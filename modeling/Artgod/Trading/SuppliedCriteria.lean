/-
# The constraints that the criteria of an offer supply

`suppliedTraits` lists what a value asks of a token, whether `normalizeOpenSeaOfferTraitCriteria` reads it or
not, together with what the reader reads.  It keeps every supplied constraint exactly when those in the fields it
passes over follow from those it reads, and what it makes of a value is made into itself.
-/
import Artgod.Trading.OfferRecognition
import Artgod.Trading.TraitCompetition

namespace Artgod.Trading

open Js Store

/-! ## 1. What is asked of a token -/

/-- What a record asks of one trait of the token: its type and its value are each of these, and it is a number
within each of these bounds.  `none` stands for what no trait is, such as a value that cannot be read. -/
structure AskedTrait where
  types : List String
  values : List (Option String)
  mins : List (Option Rat)
  maxs : List (Option Rat)
deriving DecidableEq

/-- The trait is what is asked for. -/
def AskedTrait.Admits (engine : OfferEngine) (asked : AskedTrait) (trait : TraitTarget) : Prop :=
  (∀ type ∈ asked.types, trait.type = type) ∧
  (∀ value ∈ asked.values, value = some trait.value) ∧
  (∀ min ∈ asked.mins, ∃ bound number, min = some bound ∧
    numericTraitValue engine trait.value = some number ∧ bound ≤ number) ∧
  ∀ max ∈ asked.maxs, ∃ bound number, max = some bound ∧
    numericTraitValue engine trait.value = some number ∧ number ≤ bound

/-- What a record asks, and what the reader reads of it, if it reads the record as a trait. -/
structure SuppliedTrait where
  asked : AskedTrait
  read : Option AskedTrait
deriving DecidableEq

/-! ## 2. The fields of a record -/

def typeAliases : List String := ["type", "trait_type", "traitType"]

def valueAliases : List String := ["value", "trait_value", "traitValue", "trait_name", "traitName"]

def minAliases : List String := ["min", "min_value", "minValue"]

def maxAliases : List String := ["max", "max_value", "maxValue"]

def isNullish : Value → Bool
  | .undefined | .null => true
  | _ => false

/-- The types under their names, as far as they are texts and not blank. -/
def suppliedTypes (record : List (String × Value)) : List String :=
  ((typeAliases.filterMap fun key => stringOrUndefined (field record key)).filter fun type => trim type ≠ "").map
    normalizeTradingTraitText

section Supplied

variable (engine : OfferEngine)

/-- The text of a value, if it has one. -/
def traitText (value : Value) : Option String := (openSeaTraitValue engine value).toOption.map normalizeTradingTraitText

section

variable (record : List (String × Value))

/-- The values under these names. -/
def suppliedValues (aliases : List String) : List (Option String) :=
  ((aliases.map (field record)).filter (!isNullish ·)).map (traitText engine)

def finiteNumber? : Value → Option Rat
  | .number (.finite q) => some q
  | _ => none

/-- The bounds under these names. -/
def suppliedBounds (aliases : List String) : List (Option Rat) :=
  ((aliases.map (field record)).filter (!isNullish ·)).map finiteNumber?

/-- What the fields of a record ask of one trait. -/
def askedOf : AskedTrait where
  types := suppliedTypes record
  values := suppliedValues engine record valueAliases
  mins := suppliedBounds record minAliases
  maxs := suppliedBounds record maxAliases

/-- What is read of a record that is no envelope: the first type, the first value, and the bounds `min` and
`max`. -/
def readPlain : AskedTrait where
  types := (suppliedTypes record).take 1
  values := (suppliedValues engine record valueAliases).take 1
  mins := suppliedBounds record ["min"]
  maxs := suppliedBounds record ["max"]

/-- What is read of a numeric criterion: the first type, and all bounds or all values.  A range of one number is
read as the text of the number. -/
def readNumeric : AskedTrait :=
  let types := (suppliedTypes record).take 1
  let mins := suppliedBounds record minAliases
  let maxs := suppliedBounds record maxAliases
  match mins.head?, maxs.head? with
  | some (some min), some (some max) =>
    if min = max then ⟨types, [some (engine.numberText min)], [], []⟩ else ⟨types, [], mins, maxs⟩
  | _, _ => ⟨types, suppliedValues engine record ["value", "trait_value", "traitValue"], [], []⟩

/-- The record has a field of a trait, under a name that is read. -/
def hasTraitField : Bool :=
  !isUndefined (field record "min") || !isUndefined (field record "max") ||
    (typeAliases ++ valueAliases).any (hasKey record)

/-- A property for a trait. -/
def propertyTrait (property : String × Value) : AskedTrait :=
  ⟨[normalizeTradingTraitText property.1], [traitText engine property.2], [], []⟩

/-- The numeric criteria of an envelope. -/
def suppliedNumeric : Value → List SuppliedTrait
  | .array entries => entries.map fun entry =>
    ⟨askedOf engine (asRecord entry), some (readNumeric engine (asRecord entry))⟩
  | _ => []

/-- The fields of a trait in an envelope, which are not read. -/
def envelopeTrait : List SuppliedTrait :=
  if askedOf engine record = ⟨[], [], [], []⟩ then [] else [⟨askedOf engine record, none⟩]

/-- A record, with what its `trait` and `traits` supply. -/
def suppliedRecord (trait traits : List SuppliedTrait) : List SuppliedTrait :=
  if isOpenSeaCriteriaEnvelope record then
    envelopeTrait engine record ++ trait ++ traits ++ suppliedNumeric engine (field record "numeric_traits") ++
      suppliedNumeric engine (field record "numericTraits")
  else if hasTraitField record then [⟨askedOf engine record, some (readPlain engine record)⟩]
  else record.map fun property => ⟨propertyTrait engine property, some (propertyTrait engine property)⟩

end

/-- What a property supplies. -/
def suppliedField (supplied : List (String × List SuppliedTrait)) (key : String) : List SuppliedTrait :=
  ((supplied.find? fun f => f.1 = key).map (·.2)).getD []

mutual

/-- **The constraints that a value supplies.** -/
def suppliedTraits : Value → List SuppliedTrait
  | .array entries => suppliedEntries entries
  | .object record =>
    suppliedRecord engine record (suppliedField (suppliedFields record) "trait")
      (suppliedField (suppliedFields record) "traits")
  | _ => []

def suppliedEntries : List Value → List SuppliedTrait
  | [] => []
  | entry :: rest => suppliedTraits entry ++ suppliedEntries rest

def suppliedFields : List (String × Value) → List (String × List SuppliedTrait)
  | [] => []
  | (key, value) :: rest => (key, suppliedTraits value) :: suppliedFields rest

end

theorem suppliedField_suppliedFields (record : List (String × Value)) (key : String) :
    suppliedField (suppliedFields engine record) key = suppliedTraits engine (field record key) := by
  induction record with
  | nil => rfl
  | cons entry rest ih =>
    obtain ⟨key', value⟩ := entry
    rw [suppliedFields]
    unfold suppliedField field at *
    by_cases hkey : key' = key
    · simp [hkey]
    · simp only [List.find?_cons, decide_eq_false hkey]
      exact ih

theorem suppliedTraits_object (record : List (String × Value)) : suppliedTraits engine (.object record) =
      suppliedRecord engine record (suppliedTraits engine (field record "trait"))
        (suppliedTraits engine (field record "traits")) := by
  rw [suppliedTraits, suppliedField_suppliedFields, suppliedField_suppliedFields]

end Supplied

/-- The token has a trait for every constraint that is supplied. -/
def MeetsSupplied (engine : OfferEngine) (token : Set TraitTarget) (criteria : Value) : Prop :=
  ∀ supplied ∈ suppliedTraits engine criteria, ∃ trait ∈ token, supplied.asked.Admits engine trait

/-- **Nothing is hidden:** what a record asks follows from what is read, of it or of another. -/
def NothingHidden (engine : OfferEngine) (criteria : Value) : Prop :=
  ∀ supplied ∈ suppliedTraits engine criteria, ∃ other ∈ suppliedTraits engine criteria, ∃ read,
    other.read = some read ∧ ∀ trait, read.Admits engine trait → supplied.asked.Admits engine trait

/-! ## 3. Texts as they are kept -/

theorem length_takeUnits (n : Nat) (l : List Char) : ((takeUnits n l).flatMap fun c =>
      if c.toNat < 0x10000 then [c.toNat]
      else [0xD800 + (c.toNat - 0x10000) / 0x400, 0xDC00 + (c.toNat - 0x10000) % 0x400]).length ≤ n := by
  fun_induction takeUnits n l with
  | case1 n => exact Nat.zero_le _
  | case2 c rest => exact Nat.zero_le _
  | case3 c rest =>
    rw [List.flatMap_singleton]
    by_cases h : c.toNat < 0x10000
    · rw [if_pos h, if_pos h]
      exact le_rfl
    · rw [if_neg h, if_pos (by decide)]
      exact le_rfl
  | case4 n c rest ih =>
    rw [List.flatMap_cons, List.length_append]
    split
    · next h =>
      rw [if_pos h] at ih
      simp only [List.length_singleton]
      omega
    · next h =>
      rw [if_neg h] at ih
      simp only [List.length_cons, List.length_nil]
      omega

variable {c : Char} {rest : List Char} {q : Rat}

theorem trim_eq_self {d : Char} {l : List Char} (hc : isSpace c = false) (hd : isSpace d = false) :
    trim (String.ofList (c :: l ++ [d])) = String.ofList (c :: l ++ [d]) := by
  unfold trim
  rw [String.toList_ofList, List.cons_append, List.dropWhile_cons_of_neg (by simp [hc]), ← List.cons_append,
    List.reverse_append, List.reverse_singleton, List.singleton_append, List.dropWhile_cons_of_neg (by simp [hd]),
    List.reverse_cons, List.reverse_reverse]

variable {value : String} {engine : OfferEngine}

theorem head_trim (h : (trim value).toList = c :: rest) : isSpace c = false := by
  have hdrop : (c :: rest).dropWhile isSpace = c :: rest := by
    refine dropWhile_of_prefix (l := value.toList) ?_
    rw [← h]
    exact trim_prefix value
  rw [Bool.eq_false_iff]
  intro hc
  rw [List.dropWhile_cons_of_pos hc] at hdrop
  have hlength := (List.dropWhile_suffix isSpace (l := rest)).length_le
  rw [hdrop, List.length_cons] at hlength
  omega

theorem takeUnits_cons (n : Nat) (c : Char) (rest : List Char) :
    ∃ rest', takeUnits (n + 2) (c :: rest) = c :: rest' := ⟨_, rfl⟩

theorem trim_normalizeTradingTraitText (value : String) :
    trim (normalizeTradingTraitText value) = normalizeTradingTraitText value := by
  unfold normalizeTradingTraitText
  dsimp only
  split
  · exact trim_trim value
  next hlong =>
  cases hchars : (trim value).toList with
  | nil =>
    refine absurd ?_ hlong
    unfold utf16Units
    rw [hchars]
    exact Nat.zero_le _
  | cons c rest =>
    obtain ⟨rest', hrest⟩ := takeUnits_cons (tradingTraitTextMaxLength - 5) c rest
    have htext : String.ofList (takeUnits (tradingTraitTextMaxLength - 3) (c :: rest)) ++ "..." =
        String.ofList (c :: (rest' ++ ['.', '.']) ++ ['.']) := by
      refine String.toList_injective ?_
      rw [String.toList_append, String.toList_ofList, String.toList_ofList]
      show takeUnits (tradingTraitTextMaxLength - 5 + 2) (c :: rest) ++ _ = _
      rw [hrest]
      simp
    rw [htext]
    exact trim_eq_self (head_trim hchars) (by decide)

theorem shortText_normalizeTradingTraitText (value : String) : ShortText (normalizeTradingTraitText value) := by
  unfold ShortText normalizeTradingTraitText
  dsimp only
  split
  · next hshort => exact hshort
  have hlength := length_takeUnits (tradingTraitTextMaxLength - 3) (trim value).toList
  have hdots : "...".toList = ['.', '.', '.'] := by simp
  unfold utf16Units
  rw [String.toList_append, String.toList_ofList, List.flatMap_append, List.length_append, hdots]
  have hthree : ((['.', '.', '.'] : List Char).flatMap fun c =>
    if c.toNat < 0x10000 then [c.toNat]
    else [0xD800 + (c.toNat - 0x10000) / 0x400, 0xDC00 + (c.toNat - 0x10000) % 0x400]).length = 3 := by decide
  rw [hthree]
  have hmax : tradingTraitTextMaxLength = 96 := rfl
  omega

theorem normalizeTradingTraitText_twice (value : String) :
    normalizeTradingTraitText (normalizeTradingTraitText value) = normalizeTradingTraitText value := by
  have htrim := trim_normalizeTradingTraitText value
  have hshort := shortText_normalizeTradingTraitText value
  generalize normalizeTradingTraitText value = text at htrim hshort
  unfold normalizeTradingTraitText
  dsimp only
  rw [htrim]
  exact if_pos hshort

theorem normalizeTradingTraitText_ne_empty (h : trim value ≠ "") :
    trim (normalizeTradingTraitText value) ≠ "" := by
  rw [trim_normalizeTradingTraitText]
  unfold normalizeTradingTraitText
  dsimp only
  split
  · exact h
  intro hempty
  have hlength := congrArg (fun s => s.toList.length) hempty
  rw [String.toList_append, List.length_append] at hlength
  simp at hlength

/-! ## 4. Texts of numbers -/

/-- The engine reads the text that it writes for the number, and the parser keeps it whole. -/
structure OfferEngine.WritesNumber (engine : OfferEngine) (q : Rat) : Prop where
  reads : numericTraitValue engine (engine.numberText q) = some q
  short : ShortText (engine.numberText q)

/-- The numbers that bound a record's trait are written so. -/
def SuppliedTrait.NumbersWritten (engine : OfferEngine) (supplied : SuppliedTrait) : Prop :=
  ∀ q, some q ∈ supplied.asked.mins ∨ some q ∈ supplied.asked.maxs → engine.WritesNumber q

/-- The characters of decimal texts. -/
def IsDecimalChar (c : Char) : Prop := c.isDigit = true ∨ c ∈ ['-', '.', 'e', 'E', '+']

theorem mem_takeWhile_or_dropWhile {p : Char → Bool} {l : List Char} {c : Char} (h : c ∈ l) :
    p c = true ∨ c ∈ l.dropWhile p := by
  rw [← List.takeWhile_append_dropWhile (p := p) (l := l)] at h
  rcases List.mem_append.mp h with h | h
  · exact .inl (List.all_eq_true.mp List.all_takeWhile c h)
  · exact .inr h

theorem exponent_chars {e : Char} (he : e = 'e' ∨ e = 'E')
    (hdigits : (match rest with
      | sign :: rest => if sign = '+' ∨ sign = '-' then rest else sign :: rest
      | [] => []).all Char.isDigit = true) : ∀ c ∈ e :: rest, IsDecimalChar c := by
  intro c hc
  rcases List.mem_cons.mp hc with rfl | hc
  · rcases he with rfl | rfl
    · exact .inr (by decide)
    · exact .inr (by decide)
  cases rest with
  | nil => exact absurd hc List.not_mem_nil
  | cons sign rest =>
    dsimp only at hdigits
    split at hdigits
    · next hsigned =>
      rcases List.mem_cons.mp hc with rfl | hc
      · rcases hsigned with rfl | rfl
        · exact .inr (by decide)
        · exact .inr (by decide)
      · exact .inl (List.all_eq_true.mp hdigits c hc)
    · exact .inl (List.all_eq_true.mp hdigits c hc)

theorem unsigned_chars {l unsigned : List Char}
    (hunsigned : (match l with | '-' :: rest => rest | chars => chars) = unsigned)
    (h : ∀ c ∈ unsigned, IsDecimalChar c) : ∀ c ∈ l, IsDecimalChar c := by
  intro c hc
  split at hunsigned
  · next rest =>
    rcases List.mem_cons.mp hc with rfl | hc
    · exact .inr (by decide)
    · exact h c (hunsigned ▸ hc)
  · exact h c (hunsigned ▸ hc)

theorem afterNumber_chars {unsigned afterNumber : List Char}
    (hafter : (match unsigned.dropWhile Char.isDigit with
      | '.' :: rest => (some (rest.takeWhile Char.isDigit), rest.dropWhile Char.isDigit)
      | rest => (none, rest)).2 = afterNumber)
    (hchars : ∀ c ∈ afterNumber, IsDecimalChar c) : ∀ c ∈ unsigned, IsDecimalChar c := by
  intro c hc
  rcases @mem_takeWhile_or_dropWhile Char.isDigit _ _ hc with hdigit | hc
  · exact .inl hdigit
  generalize unsigned.dropWhile Char.isDigit = afterWhole at hc hafter
  split at hafter
  · next rest =>
    rcases List.mem_cons.mp hc with rfl | hc
    · exact .inr (by decide)
    · rcases @mem_takeWhile_or_dropWhile Char.isDigit _ _ hc with hdigit | hc
      · exact .inl hdigit
      · exact hchars c (hafter ▸ hc)
  · exact hchars c (hafter ▸ hc)

theorem isDecimalText_chars (h : isDecimalText value = true) : ∀ c ∈ value.toList, IsDecimalChar c := by
  unfold isDecimalText at h
  generalize value.toList = l at h ⊢
  dsimp only at h
  rw [Bool.and_eq_true] at h
  obtain ⟨-, hexponent⟩ := h
  -- what is left after the number is an exponent
  split at hexponent
  · next hnil => exact unsigned_chars rfl (afterNumber_chars hnil fun c hc => absurd hc List.not_mem_nil)
  · next e rest hcons =>
    rw [decide_eq_true_iff] at hexponent
    exact unsigned_chars rfl (afterNumber_chars hcons (exponent_chars hexponent.1 hexponent.2.2))

theorem numericTraitValue_chars
    (h : numericTraitValue engine value = some q) : ∀ c ∈ value.toList, isSpace c = false ∧ c ≠ ',' ∧ c ≠ '"' := by
  unfold numericTraitValue at h
  split at h
  · next hdecimal =>
    intro c hc
    rcases isDecimalText_chars hdecimal c hc with hdigit | hother
    · have hrange : 48 ≤ c.toNat ∧ c.toNat ≤ 57 := Char.isDigit_iff_toNat.mp hdigit
      refine ⟨?_, ?_, ?_⟩
      · simp only [isSpace, decide_eq_false_iff_not, List.mem_cons, List.not_mem_nil, or_false]
        omega
      · rintro rfl
        exact absurd hdigit (by decide)
      · rintro rfl
        exact absurd hdigit (by decide)
    · simp only [List.mem_cons, List.not_mem_nil, or_false] at hother
      rcases hother with rfl | rfl | rfl | rfl | rfl <;> exact ⟨by decide, by decide, by decide⟩
  · cases h

theorem OfferEngine.WritesNumber.kept (h : engine.WritesNumber q) :
    normalizeTradingTraitText (engine.numberText q) = engine.numberText q := by
  have hspace := fun c hc => (numericTraitValue_chars h.reads c hc).1
  have htrim : trim (engine.numberText q) = engine.numberText q := by
    rw [trim, dropWhile_of_none hspace, dropWhile_of_none (fun c hc => hspace c (List.mem_reverse.mp hc)),
      List.reverse_reverse, String.ofList_toList]
  unfold normalizeTradingTraitText
  dsimp only
  rw [htrim]
  exact if_pos h.short

/-! ## 5. Parsing one criterion -/

/-- **What the parser of one criterion accepts,** and what it makes of it. -/
theorem parseBiddingTraitCriterion_ok {entry : Value} {criterion : BiddingTraitCriterion}
    (h : parseBiddingTraitCriterion entry = .ok criterion) :
    ∃ type, field (asRecord entry) "type" = .string type ∧ trim type ≠ "" ∧
      ((∃ value, field (asRecord entry) "value" = .string value ∧ field (asRecord entry) "min" = .undefined ∧
          field (asRecord entry) "max" = .undefined ∧
          criterion = .exactValue ⟨normalizeTradingTraitText type, normalizeTradingTraitText value⟩) ∨
        ∃ min max, field (asRecord entry) "value" = .undefined ∧
          field (asRecord entry) "min" = .number (.finite min) ∧
          field (asRecord entry) "max" = .number (.finite max) ∧ min ≤ max ∧
          criterion = .numericRange (normalizeTradingTraitText type) min max) := by
  unfold parseBiddingTraitCriterion at h
  dsimp only at h
  split at h
  · next type htype =>
    obtain ⟨hblank, h⟩ := ite_error_eq_ok.mp h
    refine ⟨type, htype, hblank, ?_⟩
    split at h
    · next value hvalue hmin hmax => exact .inl ⟨value, hvalue, hmin, hmax, (Except.ok.inj h).symm⟩
    · next min max hvalue hmin hmax =>
      split at h
      · next hle => exact .inr ⟨min, max, hvalue, hmin, hmax, hle, (Except.ok.inj h).symm⟩
      · cases h
    · cases h
  · cases h

theorem parse_toValue_exact {trait : TraitCriterion} (hblank : trim trait.type ≠ "")
    (htype : normalizeTradingTraitText trait.type = trait.type)
    (hvalue : normalizeTradingTraitText trait.value = trait.value) :
    parseBiddingTraitCriterion (BiddingTraitCriterion.exactValue trait).toValue = .ok (.exactValue trait) := by
  have hparse : parseBiddingTraitCriterion (BiddingTraitCriterion.exactValue trait).toValue =
      if trim trait.type = "" then .error "Invalid bidding trait criterion"
      else .ok (.exactValue ⟨normalizeTradingTraitText trait.type, normalizeTradingTraitText trait.value⟩) := rfl
  rw [hparse, if_neg hblank, htype, hvalue]

theorem parse_toValue_range {type : String} {min max : Rat} (hblank : trim type ≠ "")
    (htype : normalizeTradingTraitText type = type) (hle : min ≤ max) :
    parseBiddingTraitCriterion (BiddingTraitCriterion.numericRange type min max).toValue =
      .ok (.numericRange type min max) := by
  have hparse : parseBiddingTraitCriterion (BiddingTraitCriterion.numericRange type min max).toValue =
      if trim type = "" then .error "Invalid bidding trait criterion"
      else if min ≤ max then .ok (.numericRange (normalizeTradingTraitText type) min max)
      else .error "Invalid bidding trait criterion" := rfl
  rw [hparse, if_neg hblank, if_pos hle, htype]

/-! ## 6. What is read of a record -/

/-- **The criterion says what is read of the record.** -/
structure ReadAs (engine : OfferEngine) (criterion : BiddingTraitCriterion) (supplied : SuppliedTrait) : Prop where
  same : ∃ read, supplied.read = some read ∧ ∀ trait : TraitTarget,
    trait.type = criterion.type ∧ criterion.Admits engine trait.value ↔ read.Admits engine trait
  bounds : ∀ q ∈ criterion.bounds, some q ∈ supplied.asked.mins ∨ some q ∈ supplied.asked.maxs
  kept : supplied.NumbersWritten engine → parseBiddingTraitCriterion criterion.toValue = .ok criterion

/-- The criteria are what is read of the records. -/
def AllRead (engine : OfferEngine) (criteria : List BiddingTraitCriterion) (supplied : List SuppliedTrait) : Prop :=
  (∀ criterion ∈ criteria, ∃ s ∈ supplied, ReadAs engine criterion s) ∧
    ∀ s ∈ supplied, s.read ≠ none → ∃ criterion ∈ criteria, ReadAs engine criterion s

section Reading

variable {engine : OfferEngine}

theorem AllRead.nil : AllRead engine [] [] :=
  ⟨fun _ h => absurd h List.not_mem_nil, fun _ h => absurd h List.not_mem_nil⟩

variable {record : List (String × Value)} {criteria read : List BiddingTraitCriterion}
  {criterion : BiddingTraitCriterion} {supplied : List SuppliedTrait} {type : String}
  {value : Value} {aliases : List String}

theorem AllRead.append {criteria' : List BiddingTraitCriterion} {supplied' : List SuppliedTrait}
    (h : AllRead engine criteria supplied) (h' : AllRead engine criteria' supplied') :
    AllRead engine (criteria ++ criteria') (supplied ++ supplied') := by
  constructor
  · intro criterion hmem
    rcases List.mem_append.mp hmem with hmem | hmem
    · obtain ⟨s, hs, hread⟩ := h.1 criterion hmem
      exact ⟨s, List.mem_append_left _ hs, hread⟩
    · obtain ⟨s, hs, hread⟩ := h'.1 criterion hmem
      exact ⟨s, List.mem_append_right _ hs, hread⟩
  · intro s hmem hread
    rcases List.mem_append.mp hmem with hmem | hmem
    · obtain ⟨criterion, hc, hread⟩ := h.2 s hmem hread
      exact ⟨criterion, List.mem_append_left _ hc, hread⟩
    · obtain ⟨criterion, hc, hread⟩ := h'.2 s hmem hread
      exact ⟨criterion, List.mem_append_right _ hc, hread⟩

theorem AllRead.single {supplied : SuppliedTrait}
    (h : ReadAs engine criterion supplied) : AllRead engine [criterion] [supplied] := by
  constructor
  · intro c hc
    rw [List.mem_singleton.mp hc]
    exact ⟨supplied, List.mem_singleton.mpr rfl, h⟩
  · intro s hs _
    rw [List.mem_singleton.mp hs]
    exact ⟨criterion, List.mem_singleton.mpr rfl, h⟩

theorem allRead_envelopeTrait (record : List (String × Value)) : AllRead engine [] (envelopeTrait engine record) := by
  refine ⟨fun _ h => absurd h List.not_mem_nil, fun s hs hread => absurd ?_ hread⟩
  unfold envelopeTrait at hs
  split at hs
  · exact absurd hs List.not_mem_nil
  · rw [List.mem_singleton.mp hs]

theorem suppliedTypes_take
    (hfirst : firstString record ["type", "trait_type", "traitType"] = some type) (hblank : trim type ≠ "") :
    (suppliedTypes record).take 1 = [normalizeTradingTraitText type] := by
  unfold suppliedTypes
  have hhead : (typeAliases.filterMap fun key => stringOrUndefined (field record key)).head? = some type := by
    rw [List.head?_filterMap]
    exact hfirst
  generalize typeAliases.filterMap (fun key => stringOrUndefined (field record key)) = types at hhead
  cases types with
  | nil => cases hhead
  | cons first rest =>
    cases hhead
    rw [List.filter_cons_of_pos (by simpa using hblank), List.map_cons]
    rfl

theorem suppliedValues_take (record : List (String × Value)) (aliases : List String) :
    (suppliedValues engine record aliases).take 1 =
      if isNullish (firstOf record aliases) then [] else [traitText engine (firstOf record aliases)] := by
  unfold suppliedValues
  induction aliases with
  | nil => rfl
  | cons key rest ih =>
    rw [List.map_cons, firstOf]
    cases hfield : field record key with
    | undefined => exact ih
    | null => exact ih
    | bool b => rfl
    | number n => rfl
    | bigint i => rfl
    | string s => rfl
    | array items => rfl
    | object fields => rfl
    | function => rfl

variable {key text : String} {asked : AskedTrait} {q : Rat} {entry : Value}
  {traits : List BiddingTraitCriterion}

theorem traitText_of_ok (h : openSeaTraitValue engine value = .ok text) :
    isNullish value = false ∧ traitText engine value = some (normalizeTradingTraitText text) := by
  unfold traitText
  rw [h]
  refine ⟨?_, rfl⟩
  cases value with
  | undefined => cases h
  | null => cases h
  | bool b => rfl
  | number n => rfl
  | bigint i => rfl
  | string s => rfl
  | array items => rfl
  | object fields => rfl
  | function => rfl

/-- The list has this element, and no other. -/
def HasOnly {α : Type} (l : List α) (a : α) : Prop := a ∈ l ∧ ∀ b ∈ l, b = a

theorem hasOnly_singleton {α : Type} (a : α) : HasOnly [a] a :=
  ⟨List.mem_singleton.mpr rfl, fun _ h => List.mem_singleton.mp h⟩

/-- A type that is kept as it is. -/
structure KeptType (type : String) : Prop where
  filled : trim type ≠ ""
  kept : normalizeTradingTraitText type = type

theorem keptType_normalize (h : trim type ≠ "") : KeptType (normalizeTradingTraitText type) :=
  ⟨normalizeTradingTraitText_ne_empty h, normalizeTradingTraitText_twice type⟩

theorem readAs_exact {value : String} {read : AskedTrait} (htype : KeptType type)
    (htypes : read.types = [type]) (hvalues : HasOnly read.values (some value))
    (hmins : read.mins = []) (hmaxs : read.maxs = [])
    (hkept : (SuppliedTrait.mk asked (some read)).NumbersWritten engine → normalizeTradingTraitText value = value) :
    ReadAs engine (.exactValue ⟨type, value⟩) ⟨asked, some read⟩ where
  same := by
    refine ⟨read, rfl, fun trait => ?_⟩
    unfold AskedTrait.Admits
    rw [htypes, hmins, hmaxs]
    constructor
    · rintro ⟨htype, hvalue⟩
      refine ⟨fun x hx => ?_, fun x hx => ?_, fun _ h => absurd h List.not_mem_nil, fun _ h => absurd h List.not_mem_nil⟩
      · rw [List.mem_singleton.mp hx]
        exact htype
      · rw [hvalues.2 x hx, show trait.value = value from hvalue]
    · rintro ⟨htype, hvalue, -, -⟩
      exact ⟨htype _ (List.mem_singleton.mpr rfl), (Option.some.inj (hvalue _ hvalues.1)).symm⟩
  bounds := fun _ h => absurd h List.not_mem_nil
  kept := fun hwritten => parse_toValue_exact htype.filled htype.kept (hkept hwritten)

theorem readAs_range {min max : Rat} {read : AskedTrait} (htype : KeptType type)
    (hle : min ≤ max) (htypes : read.types = [type]) (hvalues : read.values = [])
    (hmins : HasOnly read.mins (some min)) (hmaxs : HasOnly read.maxs (some max))
    (hasked : some min ∈ asked.mins ∧ some max ∈ asked.maxs) :
    ReadAs engine (.numericRange type min max) ⟨asked, some read⟩ where
  same := by
    refine ⟨read, rfl, fun trait => ?_⟩
    unfold AskedTrait.Admits
    rw [htypes, hvalues]
    constructor
    · rintro ⟨htype, number, hnumber, hmin, hmax⟩
      refine ⟨fun x hx => ?_, fun _ h => absurd h List.not_mem_nil, fun x hx => ?_, fun x hx => ?_⟩
      · rw [List.mem_singleton.mp hx]
        exact htype
      · exact ⟨min, number, hmins.2 x hx, hnumber, hmin⟩
      · exact ⟨max, number, hmaxs.2 x hx, hnumber, hmax⟩
    · rintro ⟨htype, -, hmin, hmax⟩
      obtain ⟨_, number, hbound, hnumber, hmin⟩ := hmin _ hmins.1
      cases hbound
      obtain ⟨_, number', hbound, hnumber', hmax⟩ := hmax _ hmaxs.1
      cases hbound
      cases hnumber.symm.trans hnumber'
      exact ⟨htype _ (List.mem_singleton.mpr rfl), number, hnumber, hmin, hmax⟩
  bounds := by
    intro q hq
    rcases List.mem_cons.mp hq with rfl | hq
    · exact .inl hasked.1
    · rw [List.mem_singleton.mp hq]
      exact .inr hasked.2
  kept := fun _ => parse_toValue_range htype.filled htype.kept hle

theorem optionalText_eq_string {text : Option String} {s : String} (h : optionalText text = .string s) :
    text = some s := by
  cases text with
  | none => cases h
  | some t =>
    cases h
    rfl

theorem mem_suppliedBounds (hkey : key ∈ aliases) (hfield : field record key = .number (.finite q)) :
    some q ∈ suppliedBounds record aliases := by
  refine List.mem_map.mpr ⟨.number (.finite q), List.mem_filter.mpr ⟨List.mem_map.mpr ⟨key, hkey, hfield⟩, rfl⟩, rfl⟩

theorem parseBiddingTraitCriteria_singleton (h : parseBiddingTraitCriteria [entry] = .ok criteria) :
    ∃ criterion, parseBiddingTraitCriterion entry = .ok criterion ∧ criteria = [criterion] := by
  unfold parseBiddingTraitCriteria at h
  rw [List.mapM_cons] at h
  obtain ⟨criterion, hcriterion, h⟩ := bind_eq_ok.mp h
  cases h
  exact ⟨criterion, hcriterion, rfl⟩

theorem suppliedBounds_singleton (h : field record key = value) :
    suppliedBounds record [key] = if isNullish value then [] else [finiteNumber? value] := by
  unfold suppliedBounds
  rw [List.map_singleton, h]
  cases value with
  | undefined => rfl
  | null => rfl
  | bool b => rfl
  | number n => rfl
  | bigint i => rfl
  | string s => rfl
  | array items => rfl
  | object fields => rfl
  | function => rfl

theorem isUndefined_iff : isUndefined value = true ↔ value = .undefined := by
  cases value <;> simp [isUndefined]

/-- **A record with the fields of a trait** is read as its first type, its first value and its bounds. -/
theorem allRead_plain
    (hfield : hasTraitField record = true) (h : normalizePlainRecord engine record = .ok criteria) :
    AllRead engine criteria [⟨askedOf engine record, some (readPlain engine record)⟩] := by
  unfold normalizePlainRecord at h
  dsimp only at h
  split at h
  · next hbound =>
    obtain ⟨criterion, hcriterion, rfl⟩ := parseBiddingTraitCriteria_singleton h
    obtain ⟨type, htype, hblank, ⟨value, -, hmin, hmax, -⟩ | ⟨min, max, hvalue, hmin, hmax, hle, rfl⟩⟩ :=
      parseBiddingTraitCriterion_ok hcriterion
    · have hmin : field record "min" = .undefined := hmin
      have hmax : field record "max" = .undefined := hmax
      rw [hmin, hmax] at hbound
      cases hbound
    · have hmin : field record "min" = .number (.finite min) := hmin
      have hmax : field record "max" = .number (.finite max) := hmax
      have hvalue : firstOf record valueAliases = .undefined := hvalue
      refine .single (readAs_range (keptType_normalize hblank) hle
        (suppliedTypes_take (optionalText_eq_string htype) hblank) ?_ ?_ ?_
        ⟨mem_suppliedBounds (by decide) hmin, mem_suppliedBounds (by decide) hmax⟩)
      · show (suppliedValues engine record valueAliases).take 1 = []
        rw [suppliedValues_take, hvalue]
        rfl
      · show HasOnly (suppliedBounds record ["min"]) _
        rw [suppliedBounds_singleton hmin]
        exact hasOnly_singleton _
      · show HasOnly (suppliedBounds record ["max"]) _
        rw [suppliedBounds_singleton hmax]
        exact hasOnly_singleton _
  · next hbound =>
    have hbounds : field record "min" = .undefined ∧ field record "max" = .undefined := by
      simpa only [Bool.or_eq_true, not_or, Bool.not_eq_true', Bool.not_eq_false, isUndefined_iff] using hbound
    split at h
    · obtain ⟨text, htext, h⟩ := bind_eq_ok.mp h
      obtain ⟨criterion, hcriterion, rfl⟩ := parseBiddingTraitCriteria_singleton h
      obtain ⟨type, htype, hblank, ⟨value, hvalue, -, -, rfl⟩ | ⟨min, max, hvalue, -⟩⟩ :=
        parseBiddingTraitCriterion_ok hcriterion
      · cases hvalue
        obtain ⟨hnullish, hread⟩ := traitText_of_ok htext
        refine .single (readAs_exact (keptType_normalize hblank)
          (suppliedTypes_take (optionalText_eq_string htype) hblank) ?_ ?_ ?_ fun _ => normalizeTradingTraitText_twice _)
        · show HasOnly ((suppliedValues engine record valueAliases).take 1) _
          unfold valueAliases
          rw [suppliedValues_take, hnullish, if_neg Bool.false_ne_true, hread]
          exact hasOnly_singleton _
        · exact suppliedBounds_singleton hbounds.1
        · exact suppliedBounds_singleton hbounds.2
      · cases hvalue
    · next hkeys =>
      refine absurd ?_ hkeys
      unfold hasTraitField at hfield
      rw [hbounds.1, hbounds.2] at hfield
      simpa [typeAliases, valueAliases, isUndefined, or_assoc] using hfield

theorem readAs_property {property : String × Value}
    (htext : openSeaTraitValue engine property.2 = .ok text)
    (h : parseBiddingTraitCriterion (.object [("type", .string property.1), ("value", .string text)]) = .ok criterion) :
    ReadAs engine criterion ⟨propertyTrait engine property, some (propertyTrait engine property)⟩ := by
  obtain ⟨type, htype, hblank, ⟨value, hvalue, -, -, rfl⟩ | ⟨min, max, hvalue, -⟩⟩ := parseBiddingTraitCriterion_ok h
  · cases htype
    cases hvalue
    refine readAs_exact (keptType_normalize hblank) rfl ?_ rfl rfl fun _ => normalizeTradingTraitText_twice _
    show HasOnly [traitText engine property.2] _
    rw [(traitText_of_ok htext).2]
    exact hasOnly_singleton _
  · cases hvalue

theorem allRead_propertyList {entries : List Value}
    (hentries : (record.mapM fun (type, value) => do
      let value ← openSeaTraitValue engine value
      return Value.object [("type", .string type), ("value", .string value)]) = .ok entries)
    (h : entries.mapM parseBiddingTraitCriterion = .ok criteria) :
    AllRead engine criteria
      (record.map fun property => ⟨propertyTrait engine property, some (propertyTrait engine property)⟩) := by
  induction record generalizing entries criteria with
  | nil =>
    cases hentries
    cases h
    exact .nil
  | cons property rest ih =>
    rw [List.mapM_cons] at hentries
    obtain ⟨entry, hentry, hentries⟩ := bind_eq_ok.mp hentries
    obtain ⟨entries, hrest, hentries⟩ := bind_eq_ok.mp hentries
    cases hentries
    rw [List.mapM_cons] at h
    obtain ⟨criterion, hcriterion, h⟩ := bind_eq_ok.mp h
    obtain ⟨others, hothers, h⟩ := bind_eq_ok.mp h
    cases h
    obtain ⟨text, htext, hentry⟩ := bind_eq_ok.mp hentry
    cases hentry
    exact (AllRead.single (readAs_property htext hcriterion)).append (ih hrest hothers)

theorem allRead_properties
    (hfield : hasTraitField record = false) (h : normalizePlainRecord engine record = .ok criteria) :
    AllRead engine criteria
      (record.map fun property => ⟨propertyTrait engine property, some (propertyTrait engine property)⟩) := by
  unfold hasTraitField at hfield
  rw [Bool.or_eq_false_iff] at hfield
  obtain ⟨hbound, hkeys⟩ := hfield
  unfold normalizePlainRecord at h
  dsimp only at h
  rw [if_neg (Bool.eq_false_iff.mp hbound)] at h
  split at h
  · next hkey =>
    refine absurd hkey (Bool.eq_false_iff.mp ?_)
    simpa [typeAliases, valueAliases, and_assoc] using hkeys
  · obtain ⟨-, h⟩ := ite_error_eq_ok.mp h
    obtain ⟨entries, hentries, h⟩ := bind_eq_ok.mp h
    exact allRead_propertyList hentries h

/-! ## 7. Numeric criteria -/

theorem readBound_finite (h : readOpenSeaNumericTraitBound record aliases = .ok (.number (.finite q))) :
    HasOnly (suppliedBounds record aliases) (some q) ∧ (suppliedBounds record aliases).head? = some (some q) := by
  have hstrict : ∀ value : Value, strictEquals value (.number (.finite q)) = true → value = .number (.finite q) := by
    intro value heq
    cases value with
    | number n =>
      unfold strictEquals at heq
      rw [(of_decide_eq_true heq).1]
    | _ => cases heq
  unfold readOpenSeaNumericTraitBound at h
  have hall : ∃ rest, ((aliases.map (field record)).filter fun x => !isUndefined x) = .number (.finite q) :: rest ∧
      ∀ value ∈ rest, value = .number (.finite q) := by
    split at h
    · cases h
    next first rest hvalues =>
    obtain ⟨hsame, h⟩ := ite_error_eq_ok.mp h
    cases h
    rw [Bool.or_eq_true, not_or, List.any_eq_true] at hsame
    refine ⟨rest, hvalues, fun value hvalue => hstrict value ?_⟩
    by_contra hne
    exact hsame.2 ⟨value, hvalue, by simpa using hne⟩
  obtain ⟨rest, hvalues, hrest⟩ := hall
  -- a null among them would be one of them
  have hfilter : ((aliases.map (field record)).filter fun x => !isNullish x) =
      (aliases.map (field record)).filter fun x => !isUndefined x := by
    refine List.filter_congr fun value hvalue => ?_
    cases value with
    | null =>
      have hmem : Value.null ∈ (aliases.map (field record)).filter fun x => !isUndefined x :=
        List.mem_filter.mpr ⟨hvalue, rfl⟩
      rw [hvalues] at hmem
      rcases List.mem_cons.mp hmem with heq | hmem
      · cases heq
      · cases hrest _ hmem
    | _ => rfl
  have hbounds : suppliedBounds record aliases = some q :: rest.map finiteNumber? := by
    unfold suppliedBounds
    rw [hfilter, hvalues]
    rfl
  rw [hbounds]
  refine ⟨⟨List.mem_cons_self, fun x hx => ?_⟩, rfl⟩
  rcases List.mem_cons.mp hx with rfl | hx
  · rfl
  · obtain ⟨value, hvalue, rfl⟩ := List.mem_map.mp hx
    rw [hrest value hvalue]
    rfl

theorem readBound_undefined
    (h : readOpenSeaNumericTraitBound record aliases = .ok .undefined) : suppliedBounds record aliases = [] := by
  unfold readOpenSeaNumericTraitBound at h
  have hnone : ((aliases.map (field record)).filter fun x => !isUndefined x) = [] := by
    split at h
    · next hvalues => exact hvalues
    next first rest hvalues =>
    obtain ⟨-, h⟩ := ite_error_eq_ok.mp h
    cases h
    have hmem : Value.undefined ∈ (aliases.map (field record)).filter fun x => !isUndefined x := by
      rw [hvalues]
      exact List.mem_cons_self
    exact absurd (List.mem_filter.mp hmem).2 Bool.false_ne_true
  unfold suppliedBounds
  rw [List.map_eq_nil_iff, List.filter_eq_nil_iff]
  intro value hvalue
  rw [List.filter_eq_nil_iff] at hnone
  have hundefined := hnone value hvalue
  cases value with
  | undefined => exact Bool.false_ne_true
  | _ => exact absurd rfl hundefined

theorem suppliedValues_of_texts {texts : List String}
    (h : ((aliases.filter fun key => !isUndefined (field record key)).mapM
      fun key => openSeaTraitValue engine (field record key)) = .ok texts) :
    suppliedValues engine record aliases = texts.map fun text => some (normalizeTradingTraitText text) := by
  unfold suppliedValues
  induction aliases generalizing texts with
  | nil =>
    cases h
    rfl
  | cons key rest ih =>
    rw [List.map_cons]
    by_cases hundefined : isUndefined (field record key) = true
    · rw [List.filter_cons_of_neg (by simp [hundefined])] at h
      rw [isUndefined_iff.mp hundefined]
      exact ih h
    rw [List.filter_cons_of_pos (by simpa using hundefined), List.mapM_cons] at h
    obtain ⟨text, htext, h⟩ := bind_eq_ok.mp h
    obtain ⟨others, hothers, h⟩ := bind_eq_ok.mp h
    cases h
    obtain ⟨hnullish, hread⟩ := traitText_of_ok htext
    rw [List.filter_cons_of_pos (by simp [hnullish]), List.map_cons, hread, ih hothers]
    rfl

/-- **One numeric criterion** is read as its first type, and its bounds or its value. -/
theorem readAs_numeric (h : normalizeNumericTraitCriterion engine entry = .ok criterion) :
    ReadAs engine criterion
      ⟨askedOf engine (asRecord entry), some (readNumeric engine (asRecord entry))⟩ := by
  unfold normalizeNumericTraitCriterion at h
  generalize asRecord entry = record at h ⊢
  dsimp only at h
  obtain ⟨texts, htexts, h⟩ := bind_eq_ok.mp h
  obtain ⟨lower, hlower, h⟩ := bind_eq_ok.mp h
  obtain ⟨upper, hupper, h⟩ := bind_eq_ok.mp h
  split at h
  · next hbound =>
    obtain ⟨range, hrange, h⟩ := bind_eq_ok.mp h
    obtain ⟨type, htype, hblank, ⟨value, -, hmin, hmax, -⟩ | ⟨min, max, -, hmin, hmax, hle, rfl⟩⟩ :=
      parseBiddingTraitCriterion_ok hrange
    · have hmin : lower = .undefined := hmin
      have hmax : upper = .undefined := hmax
      rw [hmin, hmax] at hbound
      cases hbound
    · have hmin : lower = .number (.finite min) := hmin
      have hmax : upper = .number (.finite max) := hmax
      rw [hmin] at hlower
      rw [hmax] at hupper
      obtain ⟨hmins, hminHead⟩ := readBound_finite hlower
      obtain ⟨hmaxs, hmaxHead⟩ := readBound_finite hupper
      have htypes := suppliedTypes_take (optionalText_eq_string htype) hblank
      have hread : readNumeric engine record =
          if min = max then ⟨(suppliedTypes record).take 1, [some (engine.numberText min)], [], []⟩
          else ⟨(suppliedTypes record).take 1, [], suppliedBounds record minAliases,
            suppliedBounds record maxAliases⟩ := by
        unfold readNumeric
        dsimp only
        unfold minAliases maxAliases
        rw [hminHead, hmaxHead]
      dsimp only at h
      rw [hread]
      split at h
      · next heq =>
        cases h
        rw [if_pos heq]
        refine readAs_exact (keptType_normalize hblank) htypes (hasOnly_singleton _) rfl rfl fun hwritten => ?_
        exact (hwritten min (.inl hmins.1)).kept
      · next hne =>
        cases h
        rw [if_neg hne]
        exact readAs_range (keptType_normalize hblank) hle htypes rfl hmins hmaxs ⟨hmins.1, hmaxs.1⟩
  · next hbound =>
    have hbounds : lower = .undefined ∧ upper = .undefined := by
      simpa only [Bool.or_eq_true, not_or, Bool.not_eq_true', Bool.not_eq_false, isUndefined_iff] using hbound
    rw [hbounds.1] at hlower
    rw [hbounds.2] at hupper
    have hread : readNumeric engine record = ⟨(suppliedTypes record).take 1,
        texts.map fun text => some (normalizeTradingTraitText text), [], []⟩ := by
      unfold readNumeric
      dsimp only
      unfold minAliases
      rw [readBound_undefined hlower, suppliedValues_of_texts htexts]
      rfl
    cases texts with
    | nil => cases h
    | cons text rest =>
      dsimp only at h
      split at h
      · cases h
      next hsame =>
      obtain ⟨type, htype, hblank, ⟨value, hvalue, -, -, rfl⟩ | ⟨min, max, hvalue, -⟩⟩ :=
        parseBiddingTraitCriterion_ok h
      · cases hvalue
        rw [hread]
        refine readAs_exact (keptType_normalize hblank) (suppliedTypes_take (optionalText_eq_string htype) hblank)
          ⟨List.mem_cons_self, fun x hx => ?_⟩ rfl rfl fun _ => normalizeTradingTraitText_twice _
        obtain ⟨other, hother, rfl⟩ := List.mem_map.mp hx
        have heq : other = text := by
          by_contra hne
          exact hsame (List.any_eq_true.mpr ⟨other, hother, by simp [hne]⟩)
        rw [heq]
      · cases hvalue

theorem allRead_numeric (h : normalizeOpenSeaNumericTraitCriteria engine value = .ok criteria) :
    AllRead engine criteria (suppliedNumeric engine value) := by
  unfold normalizeOpenSeaNumericTraitCriteria at h
  split at h
  · cases h
    exact .nil
  · cases h
    exact .nil
  · next entries =>
    unfold suppliedNumeric
    dsimp only
    induction entries generalizing criteria with
    | nil =>
      cases h
      exact .nil
    | cons entry rest ih =>
      rw [List.mapM_cons] at h
      obtain ⟨criterion, hcriterion, h⟩ := bind_eq_ok.mp h
      obtain ⟨others, hothers, h⟩ := bind_eq_ok.mp h
      cases h
      exact (AllRead.single (readAs_numeric hcriterion)).append (ih hothers)
  · cases h

/-! ## 8. What is read of a value -/

theorem allRead_record
    (htrait : ∀ criteria, normalizeOpenSeaTraitCriteria engine (field record "trait") = .ok criteria →
      AllRead engine criteria (suppliedTraits engine (field record "trait")))
    (htraits : ∀ criteria, normalizeOpenSeaTraitCriteria engine (field record "traits") = .ok criteria →
      AllRead engine criteria (suppliedTraits engine (field record "traits")))
    (h : normalizeOpenSeaTraitCriteria engine (.object record) = .ok criteria) :
    AllRead engine criteria (suppliedTraits engine (.object record)) := by
  rw [normalizeOpenSeaTraitCriteria_object] at h
  rw [suppliedTraits_object]
  unfold suppliedRecord
  split at h
  · next henvelope =>
    rw [if_pos henvelope]
    obtain ⟨trait, hreadTrait, h⟩ := bind_eq_ok.mp h
    obtain ⟨traits, hreadTraits, h⟩ := bind_eq_ok.mp h
    obtain ⟨numericTraits, hnumeric, h⟩ := bind_eq_ok.mp h
    obtain ⟨numericTraits', hnumeric', h⟩ := bind_eq_ok.mp h
    cases h
    have hallTrait : AllRead engine trait (suppliedTraits engine (field record "trait")) := by
      generalize field record "trait" = value at hreadTrait htrait
      unfold normalizeOptionalOpenSeaTraitCriterion optionalCriterion at hreadTrait
      split at hreadTrait
      · cases hreadTrait
        exact .nil
      · cases hreadTrait
        exact .nil
      obtain ⟨traits', hread, h⟩ := bind_eq_ok.mp hreadTrait
      split at h
      · cases h
      · cases h
        exact htrait _ hread
    have hallTraits : AllRead engine traits (suppliedTraits engine (field record "traits")) := by
      generalize field record "traits" = value at hreadTraits htraits
      unfold normalizeOptionalOpenSeaTraitCriteria optionalCriteria at hreadTraits
      split at hreadTraits
      · cases hreadTraits
        exact .nil
      · cases hreadTraits
        exact .nil
      · exact htraits _ hreadTraits
    exact ((((allRead_envelopeTrait record).append hallTrait).append hallTraits).append
      (allRead_numeric hnumeric)).append (allRead_numeric hnumeric')
  · next henvelope =>
    rw [if_neg henvelope]
    split
    · next hfield => exact allRead_plain hfield h
    · next hfield => exact allRead_properties (Bool.eq_false_iff.mpr hfield) h

mutual

theorem allRead_value : ∀ (value : Value) (criteria : List BiddingTraitCriterion),
    normalizeOpenSeaTraitCriteria engine value = .ok criteria → AllRead engine criteria (suppliedTraits engine value)
  | .array entries, criteria, h => by
    rw [suppliedTraits]
    exact allRead_entries entries criteria h
  | .object record, criteria, h =>
    allRead_record (allRead_field record "trait") (allRead_field record "traits") h
  | .undefined, _, h => nomatch h
  | .null, _, h => nomatch h
  | .bool _, _, h => nomatch h
  | .number _, _, h => nomatch h
  | .bigint _, _, h => nomatch h
  | .string _, _, h => nomatch h
  | .function, _, h => nomatch h

theorem allRead_entries : ∀ (entries : List Value) (criteria : List BiddingTraitCriterion),
    normalizeEntries engine entries = .ok criteria → AllRead engine criteria (suppliedEntries engine entries)
  | [], _, h => by
    cases h
    exact .nil
  | entry :: rest, criteria, h => by
    rw [normalizeEntries] at h
    obtain ⟨traits, hread, h⟩ := bind_eq_ok.mp h
    obtain ⟨others, hothers, h⟩ := bind_eq_ok.mp h
    cases h
    unfold readEntry at hread
    obtain ⟨_, -, hread⟩ := bind_eq_ok.mp hread
    obtain ⟨traits', hread, h⟩ := bind_eq_ok.mp hread
    rw [suppliedEntries]
    split at h
    · cases h
    · cases h
      exact (allRead_value entry traits hread).append (allRead_entries rest others hothers)

theorem allRead_field : ∀ (record : List (String × Value)) (key : String) (criteria : List BiddingTraitCriterion),
    normalizeOpenSeaTraitCriteria engine (field record key) = .ok criteria →
      AllRead engine criteria (suppliedTraits engine (field record key))
  | [], _, _, h => nomatch h
  | (key', value) :: rest, key, criteria, h => by
    by_cases hkey : key' = key
    · have hfield : field ((key', value) :: rest) key = value := by
        unfold field
        rw [List.find?_cons, decide_eq_true hkey]
        rfl
      rw [hfield] at h ⊢
      exact allRead_value value criteria h
    · have hfield : field ((key', value) :: rest) key = field rest key := by
        unfold field
        rw [List.find?_cons, decide_eq_false hkey]
      rw [hfield] at h ⊢
      exact allRead_field rest key criteria h

end

theorem normalizeOpenSeaOfferTraitCriteria_ok {criteria : Value}
    (h : normalizeOpenSeaOfferTraitCriteria engine criteria = .ok traits) :
    ∃ read, traits = dedupeBiddingTraitCriteria engine.toTraitEngine read ∧
      AllRead engine read (suppliedTraits engine criteria) := by
  unfold normalizeOpenSeaOfferTraitCriteria at h
  split at h
  · cases h
    exact ⟨[], rfl, .nil⟩
  obtain ⟨read, hread, h⟩ := bind_eq_ok.mp h
  cases h
  refine ⟨read, rfl, ?_⟩
  unfold normalizeOptionalOpenSeaTraitCriteria optionalCriteria at hread
  split at hread
  · cases hread
    exact .nil
  · cases hread
    exact .nil
  · exact allRead_value _ _ hread

theorem writesNumbersApart_of_read
    (hread : AllRead engine read supplied) (hnumbers : ∀ s ∈ supplied, s.NumbersWritten engine) :
    engine.toTraitEngine.WritesNumbersApart read := by
  have hwritten : ∀ q ∈ read.flatMap (·.bounds), engine.WritesNumber q := by
    intro q hq
    obtain ⟨criterion, hcriterion, hq⟩ := List.mem_flatMap.mp hq
    obtain ⟨s, hs, hreadAs⟩ := hread.1 criterion hcriterion
    exact hnumbers s hs q (hreadAs.bounds q hq)
  refine ⟨fun a ha b hb heq => ?_, fun a ha => ?_⟩
  · have hreads := (hwritten a ha).reads
    rw [heq, (hwritten b hb).reads] at hreads
    exact (Option.some.inj hreads).symm
  · have hchars := numericTraitValue_chars (hwritten a ha).reads
    exact ⟨fun hmem => (hchars _ hmem).2.1 rfl, fun hmem => (hchars _ hmem).2.2 rfl⟩

theorem mem_dedupe_of_apart (hapart : engine.toTraitEngine.WritesNumbersApart read) :
    criterion ∈ dedupeBiddingTraitCriteria engine.toTraitEngine read ↔ criterion ∈ read := by
  unfold dedupeBiddingTraitCriteria
  rw [dedupeCriteria_eq_dropSeen, mem_dropSeen fun c hc d hd => criterionKey_inj hapart hc hd]
  exact and_iff_left List.not_mem_nil

/-- **The tokens that the criteria are for are those that meet what is read.** -/
theorem meetsCriteria_iff_read (hread : AllRead engine read supplied) {token : Set TraitTarget} :
    MeetsCriteria engine token read ↔
      ∀ s ∈ supplied, ∀ asked, s.read = some asked → ∃ trait ∈ token, asked.Admits engine trait := by
  constructor
  · intro h s hs asked hasked
    obtain ⟨criterion, hcriterion, hreadAs⟩ := hread.2 s hs (by rw [hasked]; exact Option.some_ne_none _)
    obtain ⟨asked', hasked', hsame⟩ := hreadAs.same
    cases hasked.symm.trans hasked'
    obtain ⟨trait, htrait, hmeets⟩ := h criterion hcriterion
    exact ⟨trait, htrait, (hsame trait).mp hmeets⟩
  · intro h criterion hcriterion
    obtain ⟨s, hs, hreadAs⟩ := hread.1 criterion hcriterion
    obtain ⟨asked, hasked, hsame⟩ := hreadAs.same
    obtain ⟨trait, htrait, hadmits⟩ := h s hs asked hasked
    exact ⟨trait, htrait, (hsame trait).mpr hadmits⟩

/-- **Containment is a matter of single constraints:** a constraint that follows from none of those read is
missed by a token that has only traits it does not admit. -/
theorem contained_iff_nothingHidden {criteria : Value}
    (hread : AllRead engine read (suppliedTraits engine criteria)) :
    (∀ token, MeetsCriteria engine token read → MeetsSupplied engine token criteria) ↔
      NothingHidden engine criteria := by
  constructor
  · intro h supplied hsupplied
    by_contra hnone
    push Not at hnone
    let token : Set TraitTarget := { trait | ¬ supplied.asked.Admits engine trait }
    have hmeets : MeetsCriteria engine token read := by
      refine (meetsCriteria_iff_read hread).mpr fun s hs asked hasked => ?_
      obtain ⟨trait, hadmits, hnot⟩ := hnone s hs asked hasked
      exact ⟨trait, hnot, hadmits⟩
    obtain ⟨trait, htrait, hadmits⟩ := h token hmeets supplied hsupplied
    exact htrait hadmits
  · intro h token hmeets supplied hsupplied
    obtain ⟨other, hother, asked, hasked, himplies⟩ := h supplied hsupplied
    obtain ⟨trait, htrait, hadmits⟩ := (meetsCriteria_iff_read hread).mp hmeets other hother asked hasked
    exact ⟨trait, htrait, himplies trait hadmits⟩

/-! ## 9. Criteria that are normal -/

/-- The criteria as a value. -/
def criteriaValue (traits : List BiddingTraitCriterion) : Value := .array (traits.map BiddingTraitCriterion.toValue)

theorem normalize_toValue (h : parseBiddingTraitCriterion criterion.toValue = .ok criterion) :
    normalizeOpenSeaTraitCriteria engine criterion.toValue = .ok [criterion] := by
  have hsingle : parseBiddingTraitCriteria [criterion.toValue] = .ok [criterion] := by
    unfold parseBiddingTraitCriteria
    rw [List.mapM_cons, h]
    rfl
  obtain ⟨type, htype, hblank, -⟩ := parseBiddingTraitCriterion_ok h
  have hfilled : type ≠ "" := by
    rintro rfl
    exact hblank (by decide)
  cases criterion with
  | exactValue trait =>
    cases htype
    unfold BiddingTraitCriterion.toValue at hsingle ⊢
    rw [normalizeOpenSeaTraitCriteria_object, if_neg (by simp [isOpenSeaCriteriaEnvelope, hasKey])]
    have hfirst : firstString [("type", Value.string trait.type), ("value", .string trait.value)]
        ["type", "trait_type", "traitType"] = some trait.type := by
      simp [firstString, field, stringOrUndefined, hfilled]
    unfold normalizePlainRecord
    dsimp only
    rw [hfirst]
    exact hsingle
  | numericRange type min max =>
    cases htype
    unfold BiddingTraitCriterion.toValue at hsingle ⊢
    rw [normalizeOpenSeaTraitCriteria_object, if_neg (by simp [isOpenSeaCriteriaEnvelope, hasKey])]
    have hfirst : firstString [("type", Value.string type), ("min", .number (.finite min)), ("max", .number (.finite max))]
        ["type", "trait_type", "traitType"] = some type := by
      simp [firstString, field, stringOrUndefined, hfilled]
    unfold normalizePlainRecord
    dsimp only
    rw [hfirst]
    exact hsingle

theorem normalizeEntries_toValue
    (h : ∀ criterion ∈ traits, parseBiddingTraitCriterion criterion.toValue = .ok criterion) :
    normalizeEntries engine (traits.map BiddingTraitCriterion.toValue) = .ok traits := by
  induction traits with
  | nil => rfl
  | cons criterion rest ih =>
    have hread : readEntry criterion.toValue (normalizeOpenSeaTraitCriteria engine criterion.toValue) =
        .ok [criterion] := by
      rw [normalize_toValue (h criterion List.mem_cons_self)]
      cases criterion <;> rfl
    rw [List.map_cons, normalizeEntries, hread, ih fun c hc => h c (List.mem_cons_of_mem _ hc)]
    rfl

theorem normalize_criteriaValue
    (hread : AllRead engine read supplied) (hnumbers : ∀ s ∈ supplied, s.NumbersWritten engine) :
    normalizeOpenSeaOfferTraitCriteria engine (criteriaValue (dedupeBiddingTraitCriteria engine.toTraitEngine read)) =
      .ok (dedupeBiddingTraitCriteria engine.toTraitEngine read) := by
  have hkept : ∀ criterion ∈ dedupeBiddingTraitCriteria engine.toTraitEngine read,
      parseBiddingTraitCriterion criterion.toValue = .ok criterion := by
    intro criterion hcriterion
    obtain ⟨s, hs, hreadAs⟩ := hread.1 criterion ((dedupeCriteria_sublist [] read).subset hcriterion)
    exact hreadAs.kept (hnumbers s hs)
  have hdedupe : dedupeBiddingTraitCriteria engine.toTraitEngine
      (dedupeBiddingTraitCriteria engine.toTraitEngine read) = dedupeBiddingTraitCriteria engine.toTraitEngine read := by
    unfold dedupeBiddingTraitCriteria
    rw [dedupeCriteria_eq_dropSeen, dedupeCriteria_eq_dropSeen]
    exact dropSeen_of_nodup (nodup_map_dropSeen _ _) fun _ _ => List.not_mem_nil
  unfold criteriaValue normalizeOpenSeaOfferTraitCriteria normalizeOptionalOpenSeaTraitCriteria optionalCriteria
  dsimp only
  rw [normalizeOpenSeaTraitCriteria, normalizeEntries_toValue hkept, bind_ok, hdedupe]
  rfl

end Reading

/-- **Which criteria are kept whole.**  For criteria that are accepted, every token that the result is for meets
every supplied constraint exactly when the constraints in the fields that are passed over follow from those that
are read; and the result is made into itself. -/
theorem normalizeOpenSeaOfferTraitCriteria_keeps_iff (engine : OfferEngine) (criteria : Value)
    (hnumbers : ∀ supplied ∈ suppliedTraits engine criteria, supplied.NumbersWritten engine)
    {traits : List BiddingTraitCriterion} (h : normalizeOpenSeaOfferTraitCriteria engine criteria = .ok traits) :
    ((∀ token, MeetsCriteria engine token traits → MeetsSupplied engine token criteria) ∧
      normalizeOpenSeaOfferTraitCriteria engine (criteriaValue traits) = .ok traits) ↔ NothingHidden engine criteria := by
  obtain ⟨read, rfl, hread⟩ := normalizeOpenSeaOfferTraitCriteria_ok h
  have hsame : ∀ token, MeetsCriteria engine token (dedupeBiddingTraitCriteria engine.toTraitEngine read) ↔
      MeetsCriteria engine token read := by
    intro token
    have hapart := writesNumbersApart_of_read hread hnumbers
    exact forall_congr' fun criterion => imp_congr_left (mem_dedupe_of_apart hapart)
  rw [and_iff_left (normalize_criteriaValue hread hnumbers), ← contained_iff_nothingHidden hread]
  exact forall_congr' fun token => imp_congr_left (hsame token)

theorem nothingHidden_of_read {criteria : Value}
    (h : ∀ supplied ∈ suppliedTraits engine criteria, supplied.read = some supplied.asked) :
    NothingHidden engine criteria :=
  fun supplied hsupplied => ⟨supplied, hsupplied, supplied.asked, h supplied hsupplied, fun _ hadmits => hadmits⟩

/-- The tokens in one mode, whose level is from 1 to 5. -/
def levelOffer : Value :=
  .object [("traits", .array [.object [("type", .string "Mode"), ("value", .string "Terrain")]]),
    ("numeric_traits", .array [.object [("trait_type", .string "Level"), ("min_value", .number (.finite 1)),
      ("max_value", .number (.finite 5))]])]

theorem keeps_levelOffer :
    (∀ token, MeetsCriteria asciiEngine token [.exactValue ⟨"Mode", "Terrain"⟩, .numericRange "Level" 1 5] →
      MeetsSupplied asciiEngine token levelOffer) ∧
    normalizeOpenSeaOfferTraitCriteria asciiEngine
      (criteriaValue [.exactValue ⟨"Mode", "Terrain"⟩, .numericRange "Level" 1 5]) =
        .ok [.exactValue ⟨"Mode", "Terrain"⟩, .numericRange "Level" 1 5] := by
  have hsupplied : suppliedTraits asciiEngine levelOffer =
      [⟨⟨["Mode"], [some "Terrain"], [], []⟩, some ⟨["Mode"], [some "Terrain"], [], []⟩⟩,
        ⟨⟨["Level"], [], [some 1], [some 5]⟩, some ⟨["Level"], [], [some 1], [some 5]⟩⟩] := by decide +kernel
  have hwrites : ∀ q ∈ [(1 : Rat), 5], asciiEngine.WritesNumber q := by
    intro q hq
    rcases List.mem_cons.mp hq with rfl | hq
    · exact ⟨by decide +kernel, by unfold ShortText; decide +kernel⟩
    · rw [List.mem_singleton.mp hq]
      exact ⟨by decide +kernel, by unfold ShortText; decide +kernel⟩
  refine (normalizeOpenSeaOfferTraitCriteria_keeps_iff asciiEngine levelOffer (fun supplied hmem q hq => ?_)
    (by decide +kernel)).mpr (nothingHidden_of_read fun supplied hmem => ?_)
  · rw [hsupplied] at hmem
    refine hwrites q ?_
    rcases List.mem_cons.mp hmem with rfl | hmem
    · simp at hq
    · rw [List.mem_singleton.mp hmem] at hq
      simpa using hq
  · rw [hsupplied] at hmem
    rcases List.mem_cons.mp hmem with rfl | hmem
    · rfl
    · rw [List.mem_singleton.mp hmem]

/-- A trait in the fields of an envelope that lists no traits. -/
def hiddenTrait : Value :=
  .object [("traits", .array []), ("type", .string "Mode"), ("value", .string "Terrain")]

/-- **A trait that is hidden:** the criteria are for every token, although they ask for one mode. -/
theorem envelope_hides_trait :
    ∃ traits, normalizeOpenSeaOfferTraitCriteria asciiEngine hiddenTrait = .ok traits ∧
      ¬ ∀ token, MeetsCriteria asciiEngine token traits → MeetsSupplied asciiEngine token hiddenTrait := by
  refine ⟨[], by decide +kernel, fun h => ?_⟩
  have hsupplied : suppliedTraits asciiEngine hiddenTrait =
      [⟨⟨["Mode"], [some "Terrain"], [], []⟩, none⟩] := by decide +kernel
  have hmeets := h ∅ fun criterion hmem => absurd hmem List.not_mem_nil
  unfold MeetsSupplied at hmeets
  rw [hsupplied] at hmeets
  obtain ⟨trait, htrait, -⟩ := hmeets _ (List.mem_singleton.mpr rfl)
  exact htrait

end Artgod.Trading
