/-
# Trait criteria of observed offers

A criterion is an exact value or a numeric range.  Two lists are compared through `biddingTraitCriteriaKey`, the
JSON of the criteria sorted by `localeCompare`.  It determines the sorted criteria, as far as they are exact
(`sorted_of_key_eq`), and not their order where `localeCompare` does not tell them apart.
-/
import Artgod.Js.Joined
import Artgod.Js.Json
import Artgod.Store.FirstByKey
import Artgod.Trading.JobDeclarations

namespace Artgod.Trading

open Js Store

/-! ## 1. Criteria -/

/-- `TradingBiddingTraitCriterion`: a `TradingTraitCriterion`, or a `TradingNumericTraitRange`, which has no
`value`.  The bounds are finite. -/
inductive BiddingTraitCriterion
  | exactValue (trait : TraitCriterion)
  | numericRange (type : String) (min max : Rat)
  deriving DecidableEq

namespace BiddingTraitCriterion

def type : BiddingTraitCriterion → String
  | exactValue trait => trait.type
  | numericRange type _ _ => type

def value : BiddingTraitCriterion → Option String
  | exactValue trait => some trait.value
  | numericRange _ _ _ => none

end BiddingTraitCriterion

/-- The engine: `localeCompare` and the text of a number. -/
structure TraitEngine where
  localeCompare : String → String → Int
  numberText : Rat → String

section Keys

variable (engine : TraitEngine)

/-- `JSON.stringify` of what a criterion is in the key. -/
def criterionJson : BiddingTraitCriterion → String
  | .exactValue trait => "[" ++ quote trait.type ++ "," ++ quote trait.value ++ "]"
  | .numericRange type min max =>
    "[" ++ quote type ++ "," ++ engine.numberText min ++ "," ++ engine.numberText max ++ "]"

variable (criteria : List BiddingTraitCriterion)

/-- The order of the criteria in the key, by the stable sort of the language. -/
def sortCriteria : List BiddingTraitCriterion :=
  criteria.insertionSort fun a b => engine.localeCompare (criterionJson engine a) (criterionJson engine b) ≤ 0

/-- Complete, order-independent identity. -/
def biddingTraitCriteriaKey : String :=
  "[" ++ ",".intercalate ((sortCriteria engine criteria).map (criterionJson engine)) ++ "]"

/-- The criteria whose key was not seen before. -/
def dedupeCriteria : List String → List BiddingTraitCriterion → List BiddingTraitCriterion
  | _, [] => []
  | seen, criterion :: rest =>
    let key := biddingTraitCriteriaKey engine [criterion]
    if key ∈ seen then dedupeCriteria seen rest else criterion :: dedupeCriteria (key :: seen) rest

def dedupeBiddingTraitCriteria : List BiddingTraitCriterion :=
  dedupeCriteria engine [] criteria

def matchesExactTraitTargets (left right : List BiddingTraitCriterion) : Bool :=
  let normalizedLeft := dedupeBiddingTraitCriteria engine left
  let normalizedRight := dedupeBiddingTraitCriteria engine right
  if normalizedLeft.length ≠ normalizedRight.length then false
  else biddingTraitCriteriaKey engine normalizedLeft = biddingTraitCriteriaKey engine normalizedRight

/-! ## 2. What the key tells -/

/-- The criterion is an exact value. -/
def BiddingTraitCriterion.IsExact (criterion : BiddingTraitCriterion) : Prop :=
  ∃ trait, criterion = .exactValue trait

variable {engine}

theorem toList_criterionJson (trait : TraitCriterion) : (criterionJson engine (.exactValue trait)).toList =
      '[' :: (quoteChars trait.type ++ ',' :: (quoteChars trait.value ++ [']'])) := by
  unfold criterionJson
  simp only [String.toList_append, toList_quote]
  simp

theorem criterionJson_append_inj {trait trait' : TraitCriterion} {x y : List Char}
    (h : (criterionJson engine (.exactValue trait)).toList ++ x =
      (criterionJson engine (.exactValue trait')).toList ++ y) : trait = trait' ∧ x = y := by
  rw [toList_criterionJson, toList_criterionJson] at h
  simp only [List.cons_append, List.cons.injEq, true_and, List.append_assoc, List.nil_append] at h
  obtain ⟨htype, hrest⟩ := quoteChars_append_inj h
  obtain ⟨hvalue, hrest⟩ := quoteChars_append_inj (List.cons.inj hrest).2
  refine ⟨?_, (List.cons.inj hrest).2⟩
  cases trait
  cases trait'
  cases htype
  cases hvalue
  rfl

theorem joined_inj {l l' : List BiddingTraitCriterion} (hl : ∀ c ∈ l, c.IsExact) (hl' : ∀ c ∈ l', c.IsExact)
    (h : [','].intercalate (l.map fun c => (criterionJson engine c).toList) ++ [']'] =
      [','].intercalate (l'.map fun c => (criterionJson engine c).toList) ++ [']']) : l = l' := by
  refine intercalate_inj (by decide) ?_ ?_ hl hl' h
  · rintro c rest ⟨trait, rfl⟩ heq
    rw [toList_criterionJson] at heq
    exact absurd (List.cons.inj heq).1 (by decide)
  · rintro c d x y ⟨trait, rfl⟩ ⟨trait', rfl⟩ heq
    obtain ⟨rfl, hrest⟩ := criterionJson_append_inj heq
    exact ⟨rfl, hrest⟩

theorem mem_sortCriteria {l : List BiddingTraitCriterion} {c : BiddingTraitCriterion} :
    c ∈ sortCriteria engine l ↔ c ∈ l := (List.perm_insertionSort _ l).mem_iff

variable {l : List BiddingTraitCriterion} {c : BiddingTraitCriterion}

/-- **The key determines the sorted criteria,** where they are exact. -/
theorem sorted_of_key_eq {l' : List BiddingTraitCriterion} (hl : ∀ c ∈ l, c.IsExact) (hl' : ∀ c ∈ l', c.IsExact)
    (h : biddingTraitCriteriaKey engine l = biddingTraitCriteriaKey engine l') :
    sortCriteria engine l = sortCriteria engine l' := by
  refine @joined_inj engine _ _ (fun c hc => hl c (mem_sortCriteria.mp hc))
    (fun c hc => hl' c (mem_sortCriteria.mp hc)) ?_
  unfold biddingTraitCriteriaKey at h
  have hchars := congrArg String.toList h
  simp only [String.toList_append, String.toList_intercalate, List.map_map, List.append_assoc] at hchars
  exact List.append_cancel_left hchars

theorem key_singleton_inj {c' : BiddingTraitCriterion} (hc : c.IsExact) (hc' : c'.IsExact)
    (h : biddingTraitCriteriaKey engine [c] = biddingTraitCriteriaKey engine [c']) : c = c' := by
  have hsorted := sorted_of_key_eq (fun x hx => List.mem_singleton.mp hx ▸ hc)
    (fun x hx => List.mem_singleton.mp hx ▸ hc') h
  exact (List.cons.inj hsorted).1

/-! ## 3. Exact criteria without repetition -/

/-- The key of one criterion. -/
abbrev criterionKey (engine : TraitEngine) (criterion : BiddingTraitCriterion) : String :=
  biddingTraitCriteriaKey engine [criterion]

theorem dedupeCriteria_eq_dropSeen (seen : List String) (l : List BiddingTraitCriterion) :
    dedupeCriteria engine seen l = dropSeen (criterionKey engine) seen l := by
  induction l generalizing seen with
  | nil => rfl
  | cons c rest ih =>
    unfold dedupeCriteria dropSeen
    rw [← ih, ← ih]

theorem dedupeCriteria_sublist (seen : List String) (l : List BiddingTraitCriterion) :
    (dedupeCriteria engine seen l).Sublist l := by
  rw [dedupeCriteria_eq_dropSeen]
  exact dropSeen_sublist seen l

theorem mem_dedupeCriteria {seen : List String} (hl : ∀ c ∈ l, c.IsExact)
    :
    c ∈ dedupeCriteria engine seen l ↔ c ∈ l ∧ biddingTraitCriteriaKey engine [c] ∉ seen := by
  rw [dedupeCriteria_eq_dropSeen]
  exact mem_dropSeen fun c hc d hd => key_singleton_inj (hl c hc) (hl d hd)

theorem mem_dedupeBiddingTraitCriteria (hl : ∀ c ∈ l, c.IsExact)
    : c ∈ dedupeBiddingTraitCriteria engine l ↔ c ∈ l := by
  unfold dedupeBiddingTraitCriteria
  rw [mem_dedupeCriteria hl]
  simp

theorem dedupeBiddingTraitCriteria_exact {l : List BiddingTraitCriterion} (hl : ∀ c ∈ l, c.IsExact) :
    ∀ c ∈ dedupeBiddingTraitCriteria engine l, c.IsExact :=
  fun c hc => hl c ((dedupeCriteria_sublist [] l).subset hc)

theorem nodup_dedupeCriteria (seen : List String) (l : List BiddingTraitCriterion) :
    (dedupeCriteria engine seen l).Nodup := by
  rw [dedupeCriteria_eq_dropSeen]
  exact List.Nodup.of_map _ (nodup_map_dropSeen seen l)

theorem dedupeCriteria_of_nodup {seen : List String} (hl : ∀ c ∈ l, c.IsExact)
    (hnodup : l.Nodup) (hseen : ∀ c ∈ l, biddingTraitCriteriaKey engine [c] ∉ seen) :
    dedupeCriteria engine seen l = l := by
  rw [dedupeCriteria_eq_dropSeen]
  refine dropSeen_of_nodup (List.Nodup.map_on ?_ hnodup) hseen
  exact fun c hc d hd => key_singleton_inj (hl c hc) (hl d hd)

theorem dedupeBiddingTraitCriteria_of_nodup (hl : ∀ c ∈ l, c.IsExact)
    (hnodup : l.Nodup) : dedupeBiddingTraitCriteria engine l = l :=
  dedupeCriteria_of_nodup hl hnodup fun _ _ => List.not_mem_nil

theorem dedupe_dedupe (hl : ∀ c ∈ l, c.IsExact) :
    dedupeBiddingTraitCriteria engine (dedupeBiddingTraitCriteria engine l) =
      dedupeBiddingTraitCriteria engine l :=
  dedupeBiddingTraitCriteria_of_nodup (dedupeBiddingTraitCriteria_exact hl) (nodup_dedupeCriteria [] l)

theorem mem_iff_of_matches {left right : List BiddingTraitCriterion} (hleft : ∀ c ∈ left, c.IsExact)
    (hright : ∀ c ∈ right, c.IsExact) (h : matchesExactTraitTargets engine left right = true)
    (c : BiddingTraitCriterion) : c ∈ left ↔ c ∈ right := by
  unfold matchesExactTraitTargets at h
  dsimp only at h
  split at h
  · cases h
  have hsorted := sorted_of_key_eq (dedupeBiddingTraitCriteria_exact hleft)
    (dedupeBiddingTraitCriteria_exact hright) (of_decide_eq_true h)
  rw [← mem_dedupeBiddingTraitCriteria hleft, ← mem_dedupeBiddingTraitCriteria hright,
    ← @mem_sortCriteria engine, hsorted, mem_sortCriteria]

/-- The engine tells the texts of these criteria apart, and orders all texts. -/
structure TraitEngine.Orders (engine : TraitEngine) (criteria : List BiddingTraitCriterion) : Prop where
  total : ∀ a b, engine.localeCompare a b ≤ 0 ∨ engine.localeCompare b a ≤ 0
  trans : ∀ a b c, engine.localeCompare a b ≤ 0 → engine.localeCompare b c ≤ 0 → engine.localeCompare a c ≤ 0
  apart : ∀ c ∈ criteria, ∀ d ∈ criteria,
    engine.localeCompare (criterionJson engine c) (criterionJson engine d) ≤ 0 →
    engine.localeCompare (criterionJson engine d) (criterionJson engine c) ≤ 0 → c = d

theorem sortCriteria_of_perm {l' : List BiddingTraitCriterion} (h : l.Perm l') (horders : engine.Orders l) :
    sortCriteria engine l = sortCriteria engine l' := by
  have hsorted : ∀ l, (sortCriteria engine l).Pairwise fun a b =>
      engine.localeCompare (criterionJson engine a) (criterionJson engine b) ≤ 0 := by
    intro l
    have htotal : Std.Total fun a b : BiddingTraitCriterion =>
        engine.localeCompare (criterionJson engine a) (criterionJson engine b) ≤ 0 :=
      ⟨fun a b => horders.total _ _⟩
    have htrans : IsTrans BiddingTraitCriterion fun a b =>
        engine.localeCompare (criterionJson engine a) (criterionJson engine b) ≤ 0 :=
      ⟨fun a b c => horders.trans _ _ _⟩
    exact List.pairwise_insertionSort _ l
  refine List.Perm.eq_of_pairwise (fun a b ha hb => ?_) (hsorted l) (hsorted l') ?_
  · exact horders.apart a (mem_sortCriteria.mp ha) b (h.mem_iff.mpr (mem_sortCriteria.mp hb))
  · exact (List.perm_insertionSort _ l).trans (h.trans (List.perm_insertionSort _ l').symm)

end Keys

end Artgod.Trading
