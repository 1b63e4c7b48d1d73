/-
# Bidding jobs from the database

The bidder reads its jobs from rows of the database.  The target of a job is read from the row's kind, its
token, its quantity and the JSON of its traits; a row that does not give one makes the source throw.  The
traits of a target that is read are texts without spaces around them, and none is empty
(`mapTarget_traits`).
-/
import Artgod.Trading.BiddingMandate
import Artgod.Trading.OfferCriteria

namespace Artgod.Trading

open Js

/-! ## 1. Traits -/

/-- The parts of a row that its target is read from. -/
structure JobTargetRow where
  jobId : String
  targetKind : JobTargetKind
  tokenId : Option String
  quantity : Option Number
  targetTraitsJson : Option String
  competitorTraitsJson : Option String

section Parsing

/-- One entry of a list of traits. -/
def parseTraitRecord (name : String) (entry : Value) (index : Nat) : Except String TraitTarget :=
  match entry with
  | .object record =>
    match field record "type", field record "value" with
    | .string type, .string value =>
      if trim type = "" ∨ trim value = "" then
        .error s!"Invalid {name}[{index}]: expected non-empty type and value"
      else .ok ⟨trim type, trim value⟩
    | _, _ => .error s!"Invalid {name}[{index}]: expected non-empty type and value"
  | .array _ => .error s!"Invalid {name}[{index}]: expected non-empty type and value"
  | _ => .error s!"Invalid {name}[{index}]: expected an object"

/-- `parseTraitRecords`; an empty text stands for no traits. -/
def parseTraitRecords (parseJson : String → Except String Value) (value : Option String) (name : String) :
    Except String (List TraitTarget) :=
  match value with
  | none => .ok []
  | some value =>
    if value = "" then .ok []
    else
      match parseJson value with
      | .error message => .error s!"Invalid {name}: {message}"
      | .ok (.array entries) => entries.zipIdx.mapM fun (entry, index) => parseTraitRecord name entry index
      | .ok _ => .error s!"Invalid {name}: expected an array"

def parseNonEmptyString (value : Option String) (name : String) : Except String String :=
  match value with
  | some value => if trim value = "" then .error s!"Invalid {name}: expected a non-empty string" else .ok (trim value)
  | none => .error s!"Invalid {name}: expected a non-empty string"

def parseQuantity (value : Option Number) (jobId : String) : Except String Number :=
  match value with
  | some (.finite q) =>
    if q.den = 1 ∧ 0 < q then .ok (.finite q)
    else .error s!"Invalid persisted bidding quantity: expected integer > 0 for jobId={jobId}"
  | _ => .error s!"Invalid persisted bidding quantity: expected integer > 0 for jobId={jobId}"

/-! ## 2. Targets -/

def JobTargetRow.mapTarget (row : JobTargetRow) (parseJson : String → Except String Value) :
    Except String BidderTarget :=
  match row.targetKind with
  | .token => do
    let tokenId ← parseNonEmptyString row.tokenId s!"token_id for jobId={row.jobId}"
    return .token tokenId
  | .collection => do
    let traits ← parseTraitRecords parseJson row.targetTraitsJson s!"target_traits_json for jobId={row.jobId}"
    let quantity ← parseQuantity row.quantity row.jobId
    return .collection quantity traits
  | .competitiveTrait => do
    let targetTraits ← parseTraitRecords parseJson row.targetTraitsJson
      s!"target_traits_json for jobId={row.jobId}"
    match targetTraits with
    | [targetTrait] =>
      let quantity ← parseQuantity row.quantity row.jobId
      let competitorTraits ← parseTraitRecords parseJson row.competitorTraitsJson
        s!"competitor_traits_json for jobId={row.jobId}"
      return .competitiveTrait quantity targetTrait (competitorTraits.map fun trait => ⟨trait.type, some trait.value⟩)
    | _ => throw s!"Invalid competitive-trait bidding job: expected exactly one target trait for jobId={row.jobId}"

end Parsing

/-- The traits that an offer for the target asks for. -/
def BidderTarget.placedTraits : BidderTarget → List TraitTarget
  | .token _ => []
  | .collection _ traits => traits
  | .competitiveTrait _ targetTrait _ => [targetTrait]

/-- A text without spaces around it, and not empty. -/
def TrimmedText (s : String) : Prop := trim s = s ∧ s ≠ ""

theorem trimmedText_trim {s : String} (h : trim s ≠ "") : TrimmedText (trim s) := ⟨trim_trim s, h⟩

theorem parseTraitRecord_trimmed {name : String} {entry : Value} {index : Nat} {trait : TraitTarget}
    (h : parseTraitRecord name entry index = .ok trait) : TrimmedText trait.type ∧ TrimmedText trait.value := by
  unfold parseTraitRecord at h
  split at h
  · split at h
    · next type value _ _ =>
      split at h
      · cases h
      next hblank =>
      cases h
      push Not at hblank
      exact ⟨trimmedText_trim hblank.1, trimmedText_trim hblank.2⟩
    · cases h
  · cases h
  · cases h

theorem parseTraitRecords_trimmed {parseJson : String → Except String Value} {value : Option String} {name : String}
    {traits : List TraitTarget} (h : parseTraitRecords parseJson value name = .ok traits) :
    ∀ trait ∈ traits, TrimmedText trait.type ∧ TrimmedText trait.value := by
  unfold parseTraitRecords at h
  split at h
  · cases h
    exact fun trait htrait => absurd htrait List.not_mem_nil
  split at h
  · cases h
    exact fun trait htrait => absurd htrait List.not_mem_nil
  split at h
  · cases h
  · intro trait htrait
    obtain ⟨i, hi, rfl⟩ := List.getElem_of_mem htrait
    have hread := mapM_ok h
    exact parseTraitRecord_trimmed (hread.get (by rw [hread.length_eq]; exact hi) hi)
  · cases h

theorem mapTarget_traits {parseJson : String → Except String Value} {row : JobTargetRow} {target : BidderTarget}
    (h : row.mapTarget parseJson = .ok target) :
    ∀ trait ∈ target.placedTraits, TrimmedText trait.type ∧ TrimmedText trait.value := by
  unfold JobTargetRow.mapTarget at h
  split at h
  · obtain ⟨tokenId, -, hpure⟩ := bind_eq_ok.mp h
    cases hpure
    exact fun trait htrait => absurd htrait List.not_mem_nil
  · obtain ⟨traits, htraits, h⟩ := bind_eq_ok.mp h
    obtain ⟨quantity, -, hpure⟩ := bind_eq_ok.mp h
    cases hpure
    exact parseTraitRecords_trimmed htraits
  · obtain ⟨targetTraits, htraits, h⟩ := bind_eq_ok.mp h
    split at h
    · next targetTrait =>
      obtain ⟨quantity, -, h⟩ := bind_eq_ok.mp h
      obtain ⟨competitorTraits, -, hpure⟩ := bind_eq_ok.mp h
      cases hpure
      exact parseTraitRecords_trimmed htraits
    · cases h

end Artgod.Trading
