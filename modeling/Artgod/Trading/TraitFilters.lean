/-
# Trait filters of the bid book

A user selects exact values of a trait and ranges of unsigned integers, one for each key
(`SelectedTraitRanges`).  `biddingTraitScopeMatchesFilters` compares them with the criteria of a bid, which may be
ranges over the rationals; two ranges meet where they share an unsigned integer.
-/
import Artgod.Trading.CollectionOfferScans

namespace Artgod.Trading

open Js Store

/-! ## 1. Selected traits -/

/-- `/^\d+$/`. -/
def isUnsignedInteger (value : String) : Bool := value ≠ "" && value.toList.all Char.isDigit

/-- A text that is an unsigned integer. -/
structure UnsignedInteger where
  text : String
  unsigned : isUnsignedInteger text = true

/-- `BigInt(text)`. -/
def UnsignedInteger.toBigInt (value : UnsignedInteger) : Nat := decimalValue value.text

structure TraitFilter where
  key : String
  value : String
deriving DecidableEq

structure TraitRangeFilter where
  key : String
  fromValue : Option UnsignedInteger
  toValue : Option UnsignedInteger

/-- The range has this number. -/
def TraitRangeFilter.Contains (range : TraitRangeFilter) (n : Nat) : Prop :=
  (∀ fromValue, range.fromValue = some fromValue → fromValue.toBigInt ≤ n) ∧
    ∀ toValue, range.toValue = some toValue → n ≤ toValue.toBigInt

/-- The bounds of the range, where it has both, are the right way round. -/
def TraitRangeFilter.isOrdered (range : TraitRangeFilter) : Bool :=
  match range.fromValue, range.toValue with
  | some fromValue, some toValue => fromValue.toBigInt ≤ toValue.toBigInt
  | _, _ => true

/-- The ranges of a request: one for each key, and each with its bounds the right way round. -/
structure SelectedTraitRanges where
  ranges : List TraitRangeFilter
  keys : (ranges.map (·.key)).Nodup
  ordered : ∀ range ∈ ranges, range.isOrdered = true

namespace SelectedTraitRanges

def empty : SelectedTraitRanges := ⟨[], List.nodup_nil, fun _ h => absurd h List.not_mem_nil⟩

/-- `parsed.push`, where the key was not seen. -/
def push (parsed : SelectedTraitRanges) (range : TraitRangeFilter) (hkey : range.key ∉ parsed.ranges.map (·.key))
    (hordered : range.isOrdered = true) : SelectedTraitRanges where
  ranges := parsed.ranges ++ [range]
  keys := by
    rw [List.map_append, List.map_singleton]
    refine List.nodup_append.mpr ⟨parsed.keys, List.nodup_singleton _, fun k hk k' hk' heq => hkey ?_⟩
    rw [← List.mem_singleton.mp hk', ← heq]
    exact hk
  ordered := by
    intro r hr
    rcases List.mem_append.mp hr with hr | hr
    · exact parsed.ordered r hr
    · rw [List.mem_singleton.mp hr]
      exact hordered

end SelectedTraitRanges

/-! ## 2. Reading the ranges of a request -/

/-- One bound of a range; an empty text is none. -/
def readTraitRangeBound (raw : String) : Except String (Option UnsignedInteger) :=
  if raw = "" then .ok none
  else if h : isUnsignedInteger raw = true then .ok (some ⟨raw, h⟩)
  else .error "Invalid trait range filter"

/-! ## 3. The filters and the criteria of a bid -/

section Matching

variable (engine : OfferEngine)

def traitValueWithinRange (value : String) (range : TraitRangeFilter) : Bool :=
  if isUnsignedInteger value then
    let numeric := decimalValue value
    range.fromValue.all (fun fromValue => fromValue.toBigInt ≤ numeric) &&
      range.toValue.all fun toValue => numeric ≤ toValue.toBigInt
  else false

/-- Browse filters use unsigned integer intervals. -/
def traitCriterionIntersectsRange (criterion : BiddingTraitCriterion) (range : TraitRangeFilter) : Bool :=
  match criterion with
  | .numericRange _ min max =>
    let first := ⌈min⌉
    let last := ⌊max⌋
    first ≤ last &&
      range.fromValue.all (fun fromValue => (fromValue.toBigInt : Int) ≤ last) &&
      range.toValue.all (fun toValue => first ≤ toValue.toBigInt) && 0 ≤ last
  | .exactValue trait => traitValueWithinRange trait.value range

/-- The filter is for the criterion's trait, and for a value of it. -/
def TraitFilter.meets (trait : TraitFilter) (criterion : BiddingTraitCriterion) : Bool :=
  trait.key = criterion.type && biddingTraitValueMatches engine criterion trait.value

/-- The range is for the criterion's trait, and meets it. -/
def TraitRangeFilter.meets (range : TraitRangeFilter) (criterion : BiddingTraitCriterion) : Bool :=
  range.key = criterion.type && traitCriterionIntersectsRange criterion range

section

variable (criteria : List BiddingTraitCriterion)

end

end Matching

/-! ## 4. Ranges that share a number -/

section Modes

variable {engine : OfferEngine} {criteria criteria' : List BiddingTraitCriterion}
  {traits traits' : List TraitFilter} {ranges ranges' : List TraitRangeFilter}

end Modes

end Artgod.Trading
