/-
# Token sets

`indexer/src/application/token-sets/utils.ts` gives a set of tokens its Merkle root, and the schema that
describes the set a fingerprint.  keccak256, sha256 and the collation of the engine are given.
-/
import Artgod.Indexer.SeaportSignature
import Artgod.Js.Joined
import Artgod.Js.Json
import Artgod.Js.Sorting
import Artgod.Merkle.Promoted
import Artgod.Store.FirstByKey

namespace Artgod.Indexer

open Js Merkle

/-! ## 1. The root of a token set -/

def uint256Max : Nat := 2 ^ 256 - 1

def isSeaportTokenSetTokenId (tokenId : String) : Bool :=
  isCanonicalDecimal tokenId && decide (decimalValue tokenId ≤ uint256Max)

/-- `toHex(value, \x7b size: 32 \x7d)`. -/
def uint256Bytes (value : Nat) : List UInt8 := (List.range 32).map fun i => UInt8.ofNat (value / 256 ^ (31 - i) % 256)

def compareHex (a b : Word32) : Ordering := compare a.bytes b.bytes

section Root

variable (keccak256 : List UInt8 → Word32)

def hashTokenId (tokenId : String) : Except String Word32 :=
  if isSeaportTokenSetTokenId tokenId = false then .error ("Invalid Seaport token set token id: " ++ tokenId)
  else .ok (keccak256 (uint256Bytes (decimalValue tokenId)))

/-- The hash of a sorted pair. -/
def hashPair (left right : Word32) : Word32 :=
  if compareHex left right ≠ .gt then keccak256 (left.bytes ++ right.bytes)
  else keccak256 (right.bytes ++ left.bytes)

def generateMerkleRoot (tokenIds : List String) : Except String Word32 :=
  if tokenIds = [] then .error "Cannot build merkle root from empty tokenIds"
  else do
    let hashes ← tokenIds.mapM (hashTokenId keccak256)
    let leaves := hashes.insertionSort fun a b => compareHex a b ≠ .gt
    match promotedRoot (hashPair keccak256) leaves with
    | none => .error "Failed to derive merkle root"
    | some root => .ok root

end Root

/-! ## 2. What the root promises -/

theorem compareHex_eq_iff {a b : Word32} : compareHex a b = .eq ↔ a = b := by
  constructor
  · intro h
    have hbytes : a.bytes = b.bytes := Std.LawfulEqCmp.eq_of_compare (show compare a.bytes b.bytes = .eq from h)
    cases a
    cases b
    cases hbytes
    rfl
  · rintro rfl
    exact (Std.ReflCmp.compare_self : compare a.bytes a.bytes = .eq)

theorem compareHex_swap (a b : Word32) : compareHex b a = (compareHex a b).swap :=
  (Std.OrientedCmp.eq_swap : compare b.bytes a.bytes = (compare a.bytes b.bytes).swap)

theorem hashPair_swap {keccak256 : List UInt8 → Word32} (a b : Word32) :
    hashPair keccak256 a b = hashPair keccak256 b a := by
  have hswap := compareHex_swap a b
  unfold hashPair
  cases hcompare : compareHex a b with
  | lt => simp [hswap, hcompare]
  | eq =>
    obtain rfl := compareHex_eq_iff.mp hcompare
    rw [hcompare]
  | gt => simp [hswap, hcompare]

theorem sorted_of_perm {hashes hashes' : List Word32} (h : hashes.Perm hashes') :
    hashes.insertionSort (fun a b => compareHex a b ≠ .gt) =
      hashes'.insertionSort (fun a b => compareHex a b ≠ .gt) := by
  have htotal : Std.Total fun a b : Word32 => compareHex a b ≠ .gt := ⟨fun a b => by
    rw [compareHex_swap a b]
    cases compareHex a b <;> simp⟩
  have htrans : IsTrans Word32 fun a b => compareHex a b ≠ .gt := ⟨fun a b c hab hbc => by
    have hle := @Std.TransCmp.isLE_trans _ compare _ a.bytes b.bytes c.bytes (Ordering.isLE_iff_ne_gt.mpr hab)
      (Ordering.isLE_iff_ne_gt.mpr hbc)
    exact Ordering.isLE_iff_ne_gt.mp hle⟩
  refine List.Perm.eq_of_pairwise (fun a b _ _ hab hba => ?_) (List.pairwise_insertionSort _ _)
    (List.pairwise_insertionSort _ _)
    ((List.perm_insertionSort _ _).trans (h.trans (List.perm_insertionSort _ _).symm))
  rw [compareHex_swap a b] at hba
  refine compareHex_eq_iff.mp ?_
  cases hcompare : compareHex a b <;> simp_all

/-- **The root is one for a set of tokens, and every token can be proved against it.** -/
theorem generateMerkleRoot_canonical (keccak256 : List UInt8 → Word32) (tokenIds : List String)
    (hne : tokenIds ≠ []) (hvalid : ∀ tokenId ∈ tokenIds, isSeaportTokenSetTokenId tokenId = true) :
    ∃ root, (∀ order : List String, order.Perm tokenIds → generateMerkleRoot keccak256 order = .ok root) ∧
      ∀ tokenId ∈ tokenIds, ∃ leaf, hashTokenId keccak256 tokenId = .ok leaf ∧
        ∃ proof : List Word32, proof.length ≤ Nat.clog 2 tokenIds.length ∧
          proof.foldl (hashPair keccak256) leaf = root := by
  have hhash : ∀ tokenId ∈ tokenIds,
      hashTokenId keccak256 tokenId = .ok (keccak256 (uint256Bytes (decimalValue tokenId))) := fun tokenId h => by
    rw [hashTokenId, hvalid tokenId h, if_neg (by simp)]
  have hhashes : ∀ order : List String, (∀ tokenId ∈ order, tokenId ∈ tokenIds) →
      order.mapM (hashTokenId keccak256) =
        .ok (order.map fun tokenId => keccak256 (uint256Bytes (decimalValue tokenId))) := by
    intro order
    induction order with
    | nil => exact fun _ => rfl
    | cons tokenId rest ih =>
      intro horder
      rw [List.mapM_cons, hhash tokenId (horder tokenId List.mem_cons_self),
        ih fun id hid => horder id (List.mem_cons_of_mem _ hid)]
      rfl
  have hperm := List.perm_insertionSort (fun a b => compareHex a b ≠ .gt)
    (tokenIds.map fun tokenId => keccak256 (uint256Bytes (decimalValue tokenId)))
  have hlength := hperm.length_eq
  rw [List.length_map] at hlength
  obtain ⟨root, hroot, hproofs⟩ := exists_proof (@hashPair_swap keccak256)
    (List.ne_nil_of_length_pos (hlength ▸ List.length_pos_of_ne_nil hne))
  rw [hlength] at hproofs
  refine ⟨root, fun order horder => ?_, fun tokenId h => ?_⟩
  · have hne' : order ≠ [] := fun hnil => hne (List.Perm.nil_eq (hnil ▸ horder)).symm
    rw [generateMerkleRoot, if_neg hne', hhashes order fun _ hid => horder.subset hid]
    simp only [bind, Except.bind]
    rw [sorted_of_perm (horder.map _), hroot]
  · refine ⟨_, hhash tokenId h, hproofs _ (hperm.mem_iff.mpr (List.mem_map_of_mem h))⟩

/-- A hash that keeps the front of what it is given. -/
def leadingWord (bytes : List UInt8) : Word32 := ⟨(bytes ++ List.replicate 32 0).take 32, by simp⟩

theorem generateMerkleRoot_canonical_three :
    ∃ root, (∀ order : List String, order.Perm ["7", "0", "12"] → generateMerkleRoot leadingWord order = .ok root) ∧
      ∀ tokenId ∈ ["7", "0", "12"], ∃ leaf, hashTokenId leadingWord tokenId = .ok leaf ∧
        ∃ proof : List Word32, proof.length ≤ Nat.clog 2 ["7", "0", "12"].length ∧
          proof.foldl (hashPair leadingWord) leaf = root :=
  generateMerkleRoot_canonical leadingWord ["7", "0", "12"] (by decide) (by decide +kernel)

/-! ## 3. The fingerprint of a schema -/

/-- What the language brings: its finite numbers, their texts and the collation of texts. -/
structure SchemaEngine where
  Number : Type
  numberText : Number → String
  numberText_injective : Function.Injective numberText
  numberText_plain : ∀ n, ',' ∉ (numberText n).toList ∧ '}' ∉ (numberText n).toList
  localeCompare : String → String → Int

inductive TokenSetAttribute (Number : Type) where
  | exactValue (key value : String)
  | range (key : String) (min max : Number)

inductive TokenSetSchema (Number : Type) where
  | attribute (collection : String) (attributes : List (TokenSetAttribute Number))
  | collection (collection : String)

namespace TokenSetAttribute

variable {Number : Type}

def key : TokenSetAttribute Number → String
  | exactValue key _ | range key _ _ => key

/-- The attribute with its texts trimmed; one with a blank text is left out. -/
def normalized : TokenSetAttribute Number → Option (TokenSetAttribute Number)
  | exactValue key value =>
    if trim key = "" ∨ trim value = "" then none else some (exactValue (trim key) (trim value))
  | range key min max => if trim key = "" then none else some (range (trim key) min max)

/-- The attribute has a blank key or a blank value. -/
def IsBlank : TokenSetAttribute Number → Prop
  | exactValue key value => trim key = "" ∨ trim value = ""
  | range key _ _ => trim key = ""

end TokenSetAttribute

section Fingerprint

variable (engine : SchemaEngine)

/-- `JSON.stringify` of a normalized attribute. -/
def attributeJson : TokenSetAttribute engine.Number → String
  | .exactValue key value => "\x7b\"key\":" ++ quote key ++ ",\"value\":" ++ quote value ++ "\x7d"
  | .range key min max =>
    "\x7b\"key\":" ++ quote key ++ ",\"min\":" ++ engine.numberText min ++ ",\"max\":" ++
      engine.numberText max ++ "\x7d"

/-- The comparison of `dedupeAndSortAttributes`. -/
def compareAttributes (a b : TokenSetAttribute engine.Number) : Int :=
  let keyCompare := engine.localeCompare a.key b.key
  if keyCompare ≠ 0 then keyCompare
  else
    match a, b with
    | .exactValue _ value, .exactValue _ value' => engine.localeCompare value value'
    | a, b => engine.localeCompare (attributeJson engine a) (attributeJson engine b)

/-- `dedupeAndSortAttributes`, by the stable sort of the language. -/
def dedupeAndSortAttributes (attributes : List (TokenSetAttribute engine.Number)) :
    List (TokenSetAttribute engine.Number) :=
  (Store.dropSeen (attributeJson engine) [] (attributes.filterMap (·.normalized))).insertionSort
    fun a b => compareAttributes engine a b ≤ 0

def normalizeSchema : TokenSetSchema engine.Number → TokenSetSchema engine.Number
  | .attribute collection attributes => .attribute collection (dedupeAndSortAttributes engine attributes)
  | schema => schema

/-- `JSON.stringify` of a schema. -/
def schemaJson : TokenSetSchema engine.Number → String
  | .attribute collection attributes =>
    "\x7b\"kind\":\"attribute\",\"data\":\x7b\"collection\":" ++ quote collection ++ ",\"attributes\":[" ++
      ",".intercalate (attributes.map (attributeJson engine)) ++ "]\x7d\x7d"
  | .collection collection =>
    "\x7b\"kind\":\"collection\",\"data\":\x7b\"collection\":" ++ quote collection ++ "\x7d\x7d"

/-- The text that a schema is hashed as. -/
def hashedText (schema : TokenSetSchema engine.Number) : String := schemaJson engine (normalizeSchema engine schema)

def generateSchemaHash (sha256 : String → String) : Option (TokenSetSchema engine.Number) → String
  | none => "0x0000000000000000000000000000000000000000000000000000000000000000"
  | some schema => "0x" ++ sha256 (hashedText engine schema)

end Fingerprint

/-! ## 4. What the fingerprint promises -/

variable {engine : SchemaEngine} {attributes other : List (TokenSetAttribute engine.Number)}
  {a t : TokenSetAttribute engine.Number}

theorem normalized_eq_none_iff : a.normalized = none ↔ a.IsBlank := by
  cases a <;> simp [TokenSetAttribute.normalized, TokenSetAttribute.IsBlank, or_iff_not_imp_left]

theorem normalized_normalized (h : a.normalized = some t) : t.normalized = some t := by
  cases a with
  | exactValue key value =>
    obtain ⟨hblank, heq⟩ := Option.ite_none_left_eq_some.mp h
    cases heq
    simp only [TokenSetAttribute.normalized, trim_trim, if_neg hblank]
  | range key min max =>
    obtain ⟨hblank, heq⟩ := Option.ite_none_left_eq_some.mp h
    cases heq
    simp only [TokenSetAttribute.normalized, trim_trim, if_neg hblank]

theorem toList_attributeJson_exact (key value : String) :
    (attributeJson engine (.exactValue key value)).toList =
      "\x7b\"key\":".toList ++ (quoteChars key ++ (",\"value\":".toList ++ (quoteChars value ++ ['}']))) := by
  simp only [attributeJson, String.toList_append, toList_quote, List.append_assoc]
  rfl

theorem toList_attributeJson_range (key : String) (min max : engine.Number) :
    (attributeJson engine (.range key min max)).toList =
      "\x7b\"key\":".toList ++ (quoteChars key ++ (",\"min\":".toList ++ ((engine.numberText min).toList ++
        ',' :: ("\"max\":".toList ++ ((engine.numberText max).toList ++ ['}']))))) := by
  simp only [attributeJson, String.toList_append, toList_quote, List.append_assoc]
  rfl

theorem attributeJson_append_inj {b : TokenSetAttribute engine.Number} {x y : List Char}
    (h : (attributeJson engine a).toList ++ x = (attributeJson engine b).toList ++ y) : a = b ∧ x = y := by
  cases a with
  | exactValue key value =>
    cases b with
    | exactValue key' value' =>
      simp only [toList_attributeJson_exact, List.append_assoc] at h
      obtain ⟨rfl, hrest⟩ := quoteChars_append_inj (List.append_cancel_left h)
      obtain ⟨rfl, hlast⟩ := quoteChars_append_inj (List.append_cancel_left hrest)
      exact ⟨rfl, List.append_cancel_left hlast⟩
    | range key' min' max' =>
      simp only [toList_attributeJson_exact, toList_attributeJson_range, List.append_assoc] at h
      have hrest := (quoteChars_append_inj (List.append_cancel_left h)).2
      simp at hrest
  | range key min max =>
    cases b with
    | exactValue key' value' =>
      simp only [toList_attributeJson_exact, toList_attributeJson_range, List.append_assoc] at h
      have hrest := (quoteChars_append_inj (List.append_cancel_left h)).2
      simp at hrest
    | range key' min' max' =>
      simp only [toList_attributeJson_range, List.append_assoc, List.cons_append] at h
      obtain ⟨rfl, hrest⟩ := quoteChars_append_inj (List.append_cancel_left h)
      obtain ⟨hmin, hrest⟩ := append_cons_inj (engine.numberText_plain min).1 (engine.numberText_plain min').1
        (List.append_cancel_left hrest)
      obtain ⟨hmax, hlast⟩ := append_cons_inj (engine.numberText_plain max).2 (engine.numberText_plain max').2
        (List.append_cancel_left hrest)
      rw [engine.numberText_injective (String.toList_inj.mp hmin),
        engine.numberText_injective (String.toList_inj.mp hmax)]
      exact ⟨rfl, hlast⟩

theorem attributeJson_injective : Function.Injective (attributeJson engine) := fun a b h =>
  (@attributeJson_append_inj engine a b [] [] (by rw [h])).1

/-- The distinct trimmed attributes, in the order they come in. -/
def distinctAttributes (attributes : List (TokenSetAttribute engine.Number)) :
    List (TokenSetAttribute engine.Number) :=
  Store.dropSeen (attributeJson engine) [] (attributes.filterMap (·.normalized))

theorem mem_distinctAttributes : t ∈ distinctAttributes attributes ↔ t ∈ attributes.filterMap (·.normalized) := by
  rw [distinctAttributes, Store.mem_dropSeen fun a _ b _ h => attributeJson_injective h]
  simp

theorem nodup_distinctAttributes : (distinctAttributes attributes).Nodup :=
  List.Nodup.of_map _ (Store.nodup_map_dropSeen [] _)

theorem mem_dedupeAndSortAttributes :
    t ∈ dedupeAndSortAttributes engine attributes ↔ t ∈ attributes.filterMap (·.normalized) :=
  (List.mem_insertionSort _).trans mem_distinctAttributes

theorem filterMap_normalized (h : ∀ t ∈ other, t ∈ attributes.filterMap (·.normalized)) :
    other.filterMap (·.normalized) = other := by
  rw [List.filterMap_congr (g := some) fun t ht => ?_, List.filterMap_some]
  obtain ⟨a, -, ha⟩ := List.mem_filterMap.mp (h t ht)
  exact normalized_normalized ha

theorem attributeJson_ne_close (a : TokenSetAttribute engine.Number) (x : List Char) :
    (attributeJson engine a).toList ++ x ≠ [']'] := by
  cases a with
  | exactValue key value =>
    rw [toList_attributeJson_exact]
    simp
  | range key min max =>
    rw [toList_attributeJson_range]
    simp

theorem toList_schemaJson (collection : String) : ∃ before : List Char,
    ∀ l : List (TokenSetAttribute engine.Number), (schemaJson engine (.attribute collection l)).toList =
      before ++ (([','].intercalate (l.map fun a => (attributeJson engine a).toList) ++ [']']) ++ ['}', '}']) := by
  refine ⟨("\x7b\"kind\":\"attribute\",\"data\":\x7b\"collection\":" ++ quote collection ++
    ",\"attributes\":[").toList, fun l => ?_⟩
  have hclosed : "]\x7d\x7d".toList = [']'] ++ ['}', '}'] := by decide
  have hcomma : ",".toList = [','] := by decide
  unfold schemaJson
  rw [String.toList_append, String.toList_append, String.toList_intercalate, List.map_map, hclosed, hcomma,
    List.append_assoc, List.append_assoc, Function.comp_def]

theorem hashedText_attribute_inj {collection : String} :
    hashedText engine (.attribute collection other) = hashedText engine (.attribute collection attributes) ↔
      dedupeAndSortAttributes engine other = dedupeAndSortAttributes engine attributes := by
  constructor
  · intro h
    have hchars := congrArg String.toList h
    obtain ⟨before, htext⟩ := @toList_schemaJson engine collection
    rw [hashedText, hashedText, normalizeSchema, normalizeSchema, htext, htext] at hchars
    have hjoined := List.append_cancel_right (List.append_cancel_left hchars)
    exact @intercalate_inj _ _ (fun _ => True) (fun a => (attributeJson engine a).toList) ',' ']' (by decide)
      (fun a x _ => attributeJson_ne_close a x) (fun a b x y _ _ heq => attributeJson_append_inj heq)
      _ _ (fun _ _ => trivial) (fun _ _ => trivial) hjoined
  · intro h
    simp only [hashedText, normalizeSchema, h]

theorem exists_attributes {order : List (TokenSetAttribute engine.Number)}
    (horder : order.Perm (distinctAttributes attributes)) :
    ∃ other, (∀ a, a ∈ other ↔ a ∈ attributes) ∧ distinctAttributes other = order := by
  have hpre : ∀ order : List (TokenSetAttribute engine.Number),
      (∀ t ∈ order, t ∈ attributes.filterMap (·.normalized)) →
      ∃ pre : List (TokenSetAttribute engine.Number), (∀ a ∈ pre, a ∈ attributes) ∧
        pre.filterMap (·.normalized) = order := by
    intro order
    induction order with
    | nil => exact fun _ => ⟨[], by simp, rfl⟩
    | cons t rest ih =>
      intro h
      obtain ⟨pre, hsub, hpre⟩ := ih fun t ht => h t (List.mem_cons_of_mem _ ht)
      obtain ⟨a, ha, hat⟩ := List.mem_filterMap.mp (h t List.mem_cons_self)
      exact ⟨a :: pre, List.forall_mem_cons.mpr ⟨ha, hsub⟩, by rw [List.filterMap_cons_some hat, hpre]⟩
  obtain ⟨pre, hsub, hfirst⟩ := hpre order fun t ht => mem_distinctAttributes.mp (horder.subset ht)
  refine ⟨pre ++ attributes, fun a => ?_, ?_⟩
  · rw [List.mem_append]
    exact ⟨fun h => h.elim (hsub a) id, .inr⟩
  have hnodup : (order.map (attributeJson engine)).Nodup :=
    (horder.nodup_iff.mpr nodup_distinctAttributes).map attributeJson_injective
  rw [distinctAttributes, List.filterMap_append, hfirst]
  refine Store.dropSeen_append hnodup (fun _ _ => List.not_mem_nil) fun t ht => .inr ?_
  exact List.mem_map_of_mem (horder.mem_iff.mpr (mem_distinctAttributes.mpr ht))

theorem dedupeAndSortAttributes_again
    (h : StrictlyOrdered (fun a b => compareAttributes engine a b ≤ 0) (distinctAttributes attributes)) :
    dedupeAndSortAttributes engine (dedupeAndSortAttributes engine attributes) =
      dedupeAndSortAttributes engine attributes := by
  have hsame := insertionSort_insertionSort nodup_distinctAttributes h
  have hkept := @filterMap_normalized engine attributes (dedupeAndSortAttributes engine attributes) fun t ht =>
    mem_dedupeAndSortAttributes.mp ht
  have hnodup : (dedupeAndSortAttributes engine attributes).Nodup :=
    (List.perm_insertionSort _ _).nodup_iff.mpr nodup_distinctAttributes
  have hdistinct := Store.dropSeen_of_nodup (hnodup.map attributeJson_injective) fun _ _ => List.not_mem_nil
  calc dedupeAndSortAttributes engine (dedupeAndSortAttributes engine attributes)
      = (dedupeAndSortAttributes engine attributes).insertionSort fun a b => compareAttributes engine a b ≤ 0 := by
        rw [dedupeAndSortAttributes, hkept, hdistinct]
    _ = dedupeAndSortAttributes engine attributes := hsame

/-- **The fingerprint is canonical exactly when the collation orders the attributes.** -/
theorem schema_fingerprint_canonical_iff (engine : SchemaEngine) (collection : String)
    (attributes : List (TokenSetAttribute engine.Number)) :
    ((∀ other, (∀ a, a ∈ other ↔ a ∈ attributes) →
        hashedText engine (.attribute collection other) = hashedText engine (.attribute collection attributes)) ∧
      normalizeSchema engine (normalizeSchema engine (.attribute collection attributes)) =
        normalizeSchema engine (.attribute collection attributes) ∧
      (∀ a ∈ attributes, ¬ a.IsBlank →
        ∃ t, a.normalized = some t ∧ t ∈ dedupeAndSortAttributes engine attributes) ∧
      (∀ other, hashedText engine (.attribute collection other) =
          hashedText engine (.attribute collection attributes) →
        ∀ t, t ∈ other.filterMap (·.normalized) ↔ t ∈ attributes.filterMap (·.normalized))) ↔
    StrictlyOrdered (fun a b => compareAttributes engine a b ≤ 0) (attributes.filterMap (·.normalized)) := by
  classical
  have hdistinct : StrictlyOrdered (fun a b => compareAttributes engine a b ≤ 0)
      (attributes.filterMap (·.normalized)) ↔ _ :=
    (StrictlyOrdered.congr fun t => mem_distinctAttributes.symm).trans
      (insertionSort_perm_iff nodup_distinctAttributes).symm
  constructor
  · intro ⟨hsame, _⟩
    refine hdistinct.mpr fun order horder => ?_
    obtain ⟨other, hmem, hother⟩ := exists_attributes horder
    have hsorted := hashedText_attribute_inj.mp (hsame other hmem)
    exact hother ▸ hsorted
  · intro hordered
    refine ⟨fun other hmem => hashedText_attribute_inj.mpr ?_, congrArg (TokenSetSchema.attribute collection) (dedupeAndSortAttributes_again
      ((StrictlyOrdered.congr fun t => mem_distinctAttributes).mpr hordered)), fun a ha hblank => ?_, fun other htext t => ?_⟩
    · refine hdistinct.mp hordered (distinctAttributes other) ?_
      rw [List.perm_ext_iff_of_nodup nodup_distinctAttributes nodup_distinctAttributes]
      intro t
      rw [mem_distinctAttributes, mem_distinctAttributes, List.mem_filterMap, List.mem_filterMap]
      simp only [hmem]
    · obtain ⟨t, ht⟩ := Option.ne_none_iff_exists'.mp (mt normalized_eq_none_iff.mp hblank)
      exact ⟨t, ht, mem_dedupeAndSortAttributes.mpr (List.mem_filterMap.mpr ⟨a, ha, ht⟩)⟩
    · rw [← mem_dedupeAndSortAttributes, ← mem_dedupeAndSortAttributes, hashedText_attribute_inj.mp htext]

/-- A text as a collation reads it that passes over the joiner U+200D. -/
def visible (text : String) : List Char := text.toList.filter (· ≠ Char.ofNat 0x200d)

/-- Natural numbers, and that collation. -/
def joinerEngine : SchemaEngine where
  Number := Nat
  numberText n := String.ofList (Nat.toDigits 10 n)
  numberText_injective m n h := by
    have hdigits : Nat.toDigits 10 m = Nat.toDigits 10 n := String.ofList_injective h
    have hvalue := congrArg (fun digits => Nat.ofDigitChars 10 digits 0) hdigits
    rwa [Nat.ofDigitChars_ten_toDigits, Nat.ofDigitChars_ten_toDigits] at hvalue
  numberText_plain n := by
    rw [String.toList_ofList]
    constructor <;> exact fun h => absurd (Nat.isDigit_of_mem_toDigits (by decide) (by decide) h) (by decide)
  localeCompare a b :=
    match compare (visible a) (visible b) with
    | .lt => -1
    | .eq => 0
    | .gt => 1

theorem joinerEngine_le_iff {a b : String} : joinerEngine.localeCompare a b ≤ 0 ↔
    (compare (visible a) (visible b)).isLE = true := by
  simp only [joinerEngine]
  cases compare (visible a) (visible b) <;> decide

theorem tied_attributes_keep_order :
    (∀ a b, joinerEngine.localeCompare a b ≤ 0 ∨ joinerEngine.localeCompare b a ≤ 0) ∧
    (∀ a b c, joinerEngine.localeCompare a b ≤ 0 → joinerEngine.localeCompare b c ≤ 0 →
      joinerEngine.localeCompare a c ≤ 0) ∧
    hashedText joinerEngine (.attribute "0xabc" [.exactValue "Eyes" "Blue", .exactValue "Eyes\u200d" "Blue"]) ≠
      hashedText joinerEngine (.attribute "0xabc" [.exactValue "Eyes\u200d" "Blue", .exactValue "Eyes" "Blue"]) := by
  refine ⟨fun a b => ?_, fun a b c hab hbc => ?_, by decide +kernel⟩
  · rw [joinerEngine_le_iff, joinerEngine_le_iff]
    rw [@Std.OrientedCmp.eq_swap _ compare _ (visible b)]
    cases compare (visible a) (visible b) <;> decide
  · rw [joinerEngine_le_iff] at *
    exact Std.TransCmp.isLE_trans hab hbc

end Artgod.Indexer
