/-
# The trait criteria of a marketplace offer

An offer comes as a value of any shape, its criteria in an envelope, a list or a record and under several
aliases; `normalizeOpenSeaOfferTraitCriteria` reads them all or throws.  The reader is written by recursion on
the value; `normalizeOpenSeaTraitCriteria_object` is it as the source has it.
-/
import Artgod.Trading.TraitCriteria

namespace Artgod.Trading

open Js

/-- The engine: the conversions of the language, and the texts of numbers and dates. -/
structure OfferEngine extends TraitEngine where
  platform : Platform
  toUpperCase : String → String
  /-- `Number(value)`. -/
  toNumber : Value → Number
  /-- `BigInt(value)`, unless it throws. -/
  toBigInt : Value → Option Int
  /-- `String(value)`. -/
  toText : Value → String
  /-- `Date.parse`, unless it is not a number. -/
  dateParse : String → Option Rat
  /-- The date of a number of seconds. -/
  toRfc3339Seconds : Int → String

/-! ## 1. Reading values -/

theorem bind_ok {ε α β : Type} (a : α) (f : α → Except ε β) : (Except.ok a >>= f) = f a := rfl

/-- `first ?? second`. -/
def orElse (first second : Value) : Value :=
  match first with
  | .undefined | .null => second
  | value => value

/-- The first of the properties that is neither undefined nor null. -/
def firstOf (record : List (String × Value)) : List String → Value
  | [] => .undefined
  | key :: keys => orElse (field record key) (firstOf record keys)

/-- `key in record`. -/
def hasKey (record : List (String × Value)) (key : String) : Bool := record.any (·.1 = key)

def asRecord (value : Value) : List (String × Value) := value.record?.getD []

def asObject (value : Value) (name : String) : Except String (List (String × Value)) :=
  match value.record? with
  | some record => .ok record
  | none => .error s!"Invalid {name}: expected object"

def asArray (value : Value) : List Value := value.array?.getD []

def stringOrUndefined : Value → Option String
  | .string s => if s = "" then none else some s
  | _ => none

/-- The first of the properties that is a text, and not an empty one. -/
def firstString (record : List (String × Value)) (keys : List String) : Option String :=
  keys.findSome? fun key => stringOrUndefined (field record key)

/-- A text that may be undefined. -/
def optionalText : Option String → Value
  | some s => .string s
  | none => .undefined

/-! ## 2. Texts -/

def tradingTraitTextMaxLength : Nat := 96

/-- `slice(0, n)`, by code units; half a surrogate pair is the replacement character. -/
def takeUnits : Nat → List Char → List Char
  | _, [] => []
  | 0, _ :: _ => []
  | 1, c :: _ => [if c.toNat < 0x10000 then c else '\uFFFD']
  | n + 2, c :: rest => c :: takeUnits (if c.toNat < 0x10000 then n + 1 else n) rest

def normalizeTradingTraitText (value : String) : String :=
  let trimmed := trim value
  if (utf16Units trimmed).length ≤ tradingTraitTextMaxLength then trimmed
  else String.ofList (takeUnits (tradingTraitTextMaxLength - 3) trimmed.toList) ++ "..."

/-- `/^-?(?:\d+(?:\.\d*)?|\.\d+)(?:[eE][+-]?\d+)?$/`. -/
def isDecimalText (value : String) : Bool :=
  let unsigned := match value.toList with
    | '-' :: rest => rest
    | chars => chars
  let whole := unsigned.takeWhile Char.isDigit
  let afterWhole := unsigned.dropWhile Char.isDigit
  let (fraction, afterNumber) := match afterWhole with
    | '.' :: rest => (some (rest.takeWhile Char.isDigit), rest.dropWhile Char.isDigit)
    | rest => (none, rest)
  let exponent := match afterNumber with
    | [] => true
    | e :: rest =>
      let digits := match rest with
        | sign :: rest => if sign = '+' ∨ sign = '-' then rest else sign :: rest
        | [] => []
      (e = 'e' ∨ e = 'E') ∧ digits ≠ [] ∧ digits.all Char.isDigit
  (whole ≠ [] ∨ (fraction.isSome ∧ fraction ≠ some [])) && exponent

/-- A number as decimal text. -/
def numericTraitValue (engine : OfferEngine) (value : String) : Option Rat :=
  if isDecimalText value then
    match engine.toNumber (.string value) with
    | .finite q => some q
    | _ => none
  else none

def biddingTraitValueMatches (engine : OfferEngine) (criterion : BiddingTraitCriterion) (value : String) : Bool :=
  match criterion with
  | .exactValue trait => trait.value = value
  | .numericRange _ min max =>
    match numericTraitValue engine value with
    | some number => min ≤ number ∧ number ≤ max
    | none => false

def biddingTraitsMatchToken (engine : OfferEngine) (criteria : List BiddingTraitCriterion)
    (tokenTraits : List TraitTarget) : Bool :=
  criteria.all fun criterion =>
    tokenTraits.any fun trait =>
      trait.type = criterion.type && biddingTraitValueMatches engine criterion trait.value

/-! ## 3. Parsing one criterion -/

def parseBiddingTraitCriterion (entry : Value) : Except String BiddingTraitCriterion :=
  let record := asRecord entry
  match field record "type" with
  | .string type =>
    if trim type = "" then .error "Invalid bidding trait criterion"
    else
      let type := normalizeTradingTraitText type
      match field record "value", field record "min", field record "max" with
      | .string value, .undefined, .undefined => .ok (.exactValue ⟨type, normalizeTradingTraitText value⟩)
      | .undefined, .number (.finite min), .number (.finite max) =>
        if min ≤ max then .ok (.numericRange type min max) else .error "Invalid bidding trait criterion"
      | _, _, _ => .error "Invalid bidding trait criterion"
  | _ => .error "Invalid bidding trait criterion"

/-- `parseBiddingTraitCriteria` of an array. -/
def parseBiddingTraitCriteria (entries : List Value) : Except String (List BiddingTraitCriterion) :=
  entries.mapM parseBiddingTraitCriterion

/-- A criterion as an object. -/
def BiddingTraitCriterion.toValue : BiddingTraitCriterion → Value
  | .exactValue trait => .object [("type", .string trait.type), ("value", .string trait.value)]
  | .numericRange type min max =>
    .object [("type", .string type), ("min", .number (.finite min)), ("max", .number (.finite max))]

section Normalize

variable (engine : OfferEngine)

def openSeaTraitValue : Value → Except String String
  | .string s => .ok s
  | .bool b => .ok (if b then "true" else "false")
  | .number (.finite q) => .ok (engine.numberText q)
  | _ => .error "Invalid OpenSea trait value"

/-- `===` of values under two keys, where two objects are never the same one. -/
def strictEquals : Value → Value → Bool
  | .undefined, .undefined => true
  | .null, .null => true
  | .bool a, .bool b => a = b
  | .number a, .number b => a = b ∧ a ≠ .nan
  | .bigint a, .bigint b => a = b
  | .string a, .string b => a = b
  | _, _ => false

def isUndefined : Value → Bool
  | .undefined => true
  | _ => false

variable (record : List (String × Value))

def readOpenSeaNumericTraitBound (aliases : List String) : Except String Value :=
  match (aliases.map (field record)).filter (!isUndefined ·) with
  | [] => .ok .undefined
  | first :: rest =>
    -- only a number that is none differs from itself
    if (match first with | .number .nan => true | _ => false) || rest.any (!strictEquals · first) then
      .error "Conflicting OpenSea numeric trait bounds"
    else .ok first

/-- One entry of a list of numeric criteria. -/
def normalizeNumericTraitCriterion (entry : Value) : Except String BiddingTraitCriterion := do
  let record := asRecord entry
  let type := firstString record ["type", "trait_type", "traitType"]
  let exactValues ← (["value", "trait_value", "traitValue"].filter
    fun key => !isUndefined (field record key)).mapM fun key => openSeaTraitValue engine (field record key)
  let min ← readOpenSeaNumericTraitBound record ["min", "min_value", "minValue"]
  let max ← readOpenSeaNumericTraitBound record ["max", "max_value", "maxValue"]
  if !isUndefined min || !isUndefined max then
    let range ← parseBiddingTraitCriterion (.object [("type", optionalText type), ("value", optionalText exactValues.head?),
      ("min", min), ("max", max)])
    match range with
    | .numericRange type min max =>
      if min = max then return .exactValue ⟨type, engine.numberText min⟩ else return range
    | .exactValue _ => return range
  else
    match exactValues with
    | [] => throw "Invalid OpenSea numeric criterion"
    | exactValue :: _ =>
      if exactValues.any fun value => value ≠ exactValue || (numericTraitValue engine value).isNone then
        throw "Invalid OpenSea numeric criterion"
      else parseBiddingTraitCriterion (.object [("type", optionalText type), ("value", .string exactValue)])

def normalizeOpenSeaNumericTraitCriteria : Value → Except String (List BiddingTraitCriterion)
  | .undefined | .null => .ok []
  | .array entries => entries.mapM (normalizeNumericTraitCriterion engine)
  | _ => .error "Invalid OpenSea numeric criteria"

/-! ## 4. Reading criteria -/

def isOpenSeaCriteriaEnvelope : Bool :=
  hasKey record "trait" || hasKey record "traits" || hasKey record "numeric_traits" ||
    hasKey record "numericTraits" || hasKey record "encoded_token_ids" || hasKey record "encodedTokenIds" ||
    hasKey record "collection" || hasKey record "contract"

/-- A value that is undefined or null counts as no criteria. -/
def optionalCriteria (value : Value) (read : Except String (List BiddingTraitCriterion)) :
    Except String (List BiddingTraitCriterion) :=
  match value with
  | .undefined | .null => .ok []
  | _ => read

/-- A supplied singular criterion must decode. -/
def optionalCriterion (value : Value) (read : Except String (List BiddingTraitCriterion)) :
    Except String (List BiddingTraitCriterion) :=
  match value with
  | .undefined | .null => .ok []
  | _ => do
    let traits ← read
    if traits = [] then throw "Invalid OpenSea trait criterion" else return traits

/-- A record that is no envelope: one criterion, or a criterion for each of its properties. -/
def normalizePlainRecord : Except String (List BiddingTraitCriterion) :=
  let type := firstString record ["type", "trait_type", "traitType"]
  let value := firstOf record ["value", "trait_value", "traitValue", "trait_name", "traitName"]
  if !isUndefined (field record "min") || !isUndefined (field record "max") then
    parseBiddingTraitCriteria [.object [("type", optionalText type), ("value", value), ("min", field record "min"),
      ("max", field record "max")]]
  else if hasKey record "type" || hasKey record "trait_type" || hasKey record "traitType" ||
      hasKey record "value" || hasKey record "trait_value" || hasKey record "traitValue" ||
      hasKey record "trait_name" || hasKey record "traitName" then do
    let value ← openSeaTraitValue engine value
    parseBiddingTraitCriteria [.object [("type", optionalText type), ("value", .string value)]]
  else if record = [] then .error "Invalid OpenSea trait criteria"
  else do
    let entries ← record.mapM fun (type, value) => do
      let value ← openSeaTraitValue engine value
      return Value.object [("type", .string type), ("value", .string value)]
    parseBiddingTraitCriteria entries

/-- A record whose `trait` and `traits` have been read. -/
def normalizeRecord (trait traits : Except String (List BiddingTraitCriterion)) :
    Except String (List BiddingTraitCriterion) :=
  if isOpenSeaCriteriaEnvelope record then do
    let trait ← optionalCriterion (field record "trait") trait
    let traits ← optionalCriteria (field record "traits") traits
    let numericTraits ← normalizeOpenSeaNumericTraitCriteria engine (field record "numeric_traits")
    let numericTraits' ← normalizeOpenSeaNumericTraitCriteria engine (field record "numericTraits")
    return trait ++ traits ++ numericTraits ++ numericTraits'
  else normalizePlainRecord engine record

/-- What was made of a property. -/
def readField (read : List (String × Except String (List BiddingTraitCriterion))) (key : String) :
    Except String (List BiddingTraitCriterion) :=
  ((read.find? fun f => f.1 = key).map (·.2)).getD (.ok [])

/-- The entries of a list are objects, and each has a criterion in it. -/
def readEntry (entry : Value) (read : Except String (List BiddingTraitCriterion)) :
    Except String (List BiddingTraitCriterion) := do
  let _ ← asObject entry "OpenSea trait criterion"
  let traits ← read
  if traits = [] then throw "Invalid OpenSea trait criterion" else return traits

mutual

def normalizeOpenSeaTraitCriteria : Value → Except String (List BiddingTraitCriterion)
  | .array entries => normalizeEntries entries
  | .object record =>
    normalizeRecord engine record (readField (normalizeFields record) "trait")
      (readField (normalizeFields record) "traits")
  | _ => .error "Invalid OpenSea trait criteria: expected object"

def normalizeEntries : List Value → Except String (List BiddingTraitCriterion)
  | [] => .ok []
  | entry :: rest => do
    let traits ← readEntry entry (normalizeOpenSeaTraitCriteria entry)
    let others ← normalizeEntries rest
    return traits ++ others

def normalizeFields : List (String × Value) → List (String × Except String (List BiddingTraitCriterion))
  | [] => []
  | (key, value) :: rest => (key, normalizeOpenSeaTraitCriteria value) :: normalizeFields rest

end

theorem readField_normalizeFields (record : List (String × Value)) (key : String) :
    readField (normalizeFields engine record) key =
      if hasKey record key then normalizeOpenSeaTraitCriteria engine (field record key) else .ok [] := by
  induction record with
  | nil => rfl
  | cons entry rest ih =>
    obtain ⟨key', value⟩ := entry
    rw [normalizeFields]
    unfold readField field hasKey at *
    by_cases hkey : key' = key
    · simp [hkey]
    · simp only [List.find?_cons, decide_eq_false hkey, List.any_cons, Bool.false_or]
      exact ih

theorem field_of_not_hasKey {record : List (String × Value)} {key : String} (h : hasKey record key = false) :
    field record key = .undefined := by
  unfold hasKey at h
  rw [List.any_eq_false] at h
  unfold field
  rw [List.find?_eq_none.mpr h]
  rfl

def normalizeOptionalOpenSeaTraitCriteria (criteria : Value) : Except String (List BiddingTraitCriterion) :=
  optionalCriteria criteria (normalizeOpenSeaTraitCriteria engine criteria)

def normalizeOptionalOpenSeaTraitCriterion (criteria : Value) : Except String (List BiddingTraitCriterion) :=
  optionalCriterion criteria (normalizeOpenSeaTraitCriteria engine criteria)

theorem normalizeOpenSeaTraitCriteria_object (record : List (String × Value)) :
    normalizeOpenSeaTraitCriteria engine (.object record) =
      if isOpenSeaCriteriaEnvelope record then do
        let trait ← normalizeOptionalOpenSeaTraitCriterion engine (field record "trait")
        let traits ← normalizeOptionalOpenSeaTraitCriteria engine (field record "traits")
        let numericTraits ← normalizeOpenSeaNumericTraitCriteria engine (field record "numeric_traits")
        let numericTraits' ← normalizeOpenSeaNumericTraitCriteria engine (field record "numericTraits")
        return trait ++ traits ++ numericTraits ++ numericTraits'
      else normalizePlainRecord engine record := by
  have hcriterion : optionalCriterion (field record "trait") (readField (normalizeFields engine record) "trait") =
      normalizeOptionalOpenSeaTraitCriterion engine (field record "trait") := by
    rw [readField_normalizeFields, normalizeOptionalOpenSeaTraitCriterion]
    cases hkey : hasKey record "trait" with
    | true => rfl
    | false => rw [field_of_not_hasKey hkey]; rfl
  have hcriteria : optionalCriteria (field record "traits") (readField (normalizeFields engine record) "traits") =
      normalizeOptionalOpenSeaTraitCriteria engine (field record "traits") := by
    rw [readField_normalizeFields, normalizeOptionalOpenSeaTraitCriteria]
    cases hkey : hasKey record "traits" with
    | true => rfl
    | false => rw [field_of_not_hasKey hkey]; rfl
  rw [normalizeOpenSeaTraitCriteria, normalizeRecord, hcriterion, hcriteria]

/-- An empty criteria object stands for no criteria. -/
def normalizeOpenSeaOfferTraitCriteria (criteria : Value) : Except String (List BiddingTraitCriterion) :=
  match criteria with
  | .object [] => .ok []
  | _ => do
    let traits ← normalizeOptionalOpenSeaTraitCriteria engine criteria
    return dedupeBiddingTraitCriteria engine.toTraitEngine traits

end Normalize

end Artgod.Trading
