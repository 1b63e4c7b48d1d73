/-
# Keys of trait criteria

`biddingTraitCriteriaKey` over exact values and numeric ranges of any text.  The key is the sorted list of the
criteria, so it tells different criteria apart; whether it forgets their order is up to the collation.
-/
import Artgod.Js.Joined
import Artgod.Js.Sorting
import Artgod.Trading.TraitCriteria
import Mathlib.Data.Nat.Pairing

namespace Artgod.Trading

open Js Store

/-! ## 1. Keys of any criteria -/

/-- An engine whose number texts can be read: no two finite numbers have one text, and no text has a quotation
mark, a comma or a bracket in it. -/
structure LegibleEngine extends TraitEngine where
  numberText_injective : Function.Injective numberText
  numberText_plain : ∀ number, ∀ c ∈ ['"', ',', ']'], c ∉ (numberText number).toList

variable {engine : LegibleEngine} {l l' : List BiddingTraitCriterion}

theorem toList_rangeJson (type : String) (min max : Rat) :
    (criterionJson engine.toTraitEngine (.numericRange type min max)).toList =
      '[' :: (quoteChars type ++ ',' :: ((engine.numberText min).toList ++
        ',' :: ((engine.numberText max).toList ++ [']']))) := by
  unfold criterionJson
  simp only [String.toList_append, toList_quote]
  simp

theorem quote_ne_number {s : String} {number : Rat} {x y : List Char} :
    quoteChars s ++ x ≠ (engine.numberText number).toList ++ ',' :: y := by
  intro h
  have hplain := engine.numberText_plain number '"' (by simp)
  cases htext : (engine.numberText number).toList with
  | nil =>
    rw [htext] at h
    exact absurd (List.cons.inj h).1 (by decide)
  | cons c rest =>
    rw [htext] at h hplain
    exact hplain ((List.cons.inj h).1 ▸ List.mem_cons_self)

/-- **The text of a criterion can be read off the front of a text.** -/
theorem criterionJson_append {c d : BiddingTraitCriterion} {x y : List Char}
    (h : (criterionJson engine.toTraitEngine c).toList ++ x =
      (criterionJson engine.toTraitEngine d).toList ++ y) : c = d ∧ x = y := by
  cases c with
  | exactValue trait =>
    cases d with
    | exactValue trait' =>
      obtain ⟨rfl, hrest⟩ := criterionJson_append_inj h
      exact ⟨rfl, hrest⟩
    | numericRange type min max =>
      rw [toList_criterionJson, toList_rangeJson] at h
      simp only [List.cons_append, List.cons.injEq, true_and, List.append_assoc] at h
      exact absurd (List.cons.inj (quoteChars_append_inj h).2).2 quote_ne_number
  | numericRange type min max =>
    cases d with
    | exactValue trait =>
      rw [toList_criterionJson, toList_rangeJson] at h
      simp only [List.cons_append, List.cons.injEq, true_and, List.append_assoc] at h
      exact absurd (List.cons.inj (quoteChars_append_inj h).2).2.symm quote_ne_number
    | numericRange type' min' max' =>
      rw [toList_rangeJson, toList_rangeJson] at h
      simp only [List.cons_append, List.cons.injEq, true_and, List.append_assoc, List.nil_append] at h
      obtain ⟨rfl, hbounds⟩ := quoteChars_append_inj h
      obtain ⟨hmin, hrest⟩ := append_cons_inj (engine.numberText_plain min ',' (by simp))
        (engine.numberText_plain min' ',' (by simp)) (List.cons.inj hbounds).2
      obtain ⟨hmax, hrest⟩ := append_cons_inj (engine.numberText_plain max ']' (by simp))
        (engine.numberText_plain max' ']' (by simp)) hrest
      rw [engine.numberText_injective (String.toList_inj.mp hmin),
        engine.numberText_injective (String.toList_inj.mp hmax)]
      exact ⟨rfl, hrest⟩

theorem key_eq_iff_sorted : biddingTraitCriteriaKey engine.toTraitEngine l =
    biddingTraitCriteriaKey engine.toTraitEngine l' ↔
      sortCriteria engine.toTraitEngine l = sortCriteria engine.toTraitEngine l' := by
  unfold biddingTraitCriteriaKey
  constructor
  · intro h
    have hchars := congrArg String.toList h
    simp only [String.toList_append, String.toList_intercalate, List.map_map, List.append_assoc] at hchars
    refine intercalate_inj (P := fun _ => True) (by decide) ?_ (fun c d x y _ _ => criterionJson_append)
      (fun _ _ => trivial) (fun _ _ => trivial) (List.append_cancel_left hchars)
    intro c rest _ heq
    cases c with
    | exactValue trait =>
      rw [toList_criterionJson] at heq
      exact absurd (List.cons.inj heq).1 (by decide)
    | numericRange type min max =>
      rw [toList_rangeJson] at heq
      exact absurd (List.cons.inj heq).1 (by decide)
  · intro h
    rw [h]

theorem criterionKey_injective : Function.Injective (criterionKey engine.toTraitEngine) :=
  fun _ _ h => (List.cons.inj (key_eq_iff_sorted.mp h)).1

theorem mem_dedupe {c : BiddingTraitCriterion} :
    c ∈ dedupeBiddingTraitCriteria engine.toTraitEngine l ↔ c ∈ l := by
  unfold dedupeBiddingTraitCriteria
  rw [dedupeCriteria_eq_dropSeen, mem_dropSeen fun c _ d _ h => criterionKey_injective h]
  simp

theorem nodup_dedupe : (dedupeBiddingTraitCriteria engine.toTraitEngine l).Nodup :=
  nodup_dedupeCriteria [] l

theorem dedupe_of_nodup (h : l.Nodup) : dedupeBiddingTraitCriteria engine.toTraitEngine l = l := by
  unfold dedupeBiddingTraitCriteria
  rw [dedupeCriteria_eq_dropSeen]
  exact dropSeen_of_nodup (h.map criterionKey_injective) fun _ _ => List.not_mem_nil

/-! ## 2. When the key is the set -/

/-- The key of the criteria, each taken once. -/
def dedupedKey (engine : LegibleEngine) (l : List BiddingTraitCriterion) : String :=
  biddingTraitCriteriaKey engine.toTraitEngine (dedupeBiddingTraitCriteria engine.toTraitEngine l)

theorem matches_iff : matchesExactTraitTargets engine.toTraitEngine l l' = true ↔
    dedupedKey engine l = dedupedKey engine l' := by
  unfold matchesExactTraitTargets dedupedKey
  dsimp only
  split
  · next hlength =>
    refine iff_of_false (by decide) fun hkey => hlength ?_
    have hsorted := congrArg List.length (key_eq_iff_sorted.mp hkey)
    unfold sortCriteria at hsorted
    rwa [List.length_insertionSort, List.length_insertionSort] at hsorted
  · exact decide_eq_true_iff

theorem mem_of_dedupedKey (h : dedupedKey engine l = dedupedKey engine l') (c : BiddingTraitCriterion) :
    c ∈ l ↔ c ∈ l' := by
  rw [← @mem_dedupe engine _ _, ← @mem_sortCriteria engine.toTraitEngine,
    key_eq_iff_sorted.mp h, mem_sortCriteria, mem_dedupe]

/-- **The key is the set of the criteria exactly when the collation orders them.**  Whatever the texts, the key
determines the criteria; it forgets their order, and exact targets match as sets, exactly when no two criteria
tie; and targets match when their keys are equal, which is an equivalence. -/
theorem criteria_key_canonical_iff (engine : LegibleEngine) (criteria : List BiddingTraitCriterion) :
    ((∀ other, dedupedKey engine other = dedupedKey engine criteria ↔ ∀ c, c ∈ other ↔ c ∈ criteria) ∧
      (∀ other, biddingTraitCriteriaKey engine.toTraitEngine other =
        biddingTraitCriteriaKey engine.toTraitEngine criteria → other.Perm criteria) ∧
      (∀ left right, matchesExactTraitTargets engine.toTraitEngine left right = true ↔
        dedupedKey engine left = dedupedKey engine right) ∧
      Equivalence fun left right => matchesExactTraitTargets engine.toTraitEngine left right = true) ↔
    StrictlyOrdered (fun a b => engine.localeCompare (criterionJson engine.toTraitEngine a)
      (criterionJson engine.toTraitEngine b) ≤ 0) criteria := by
  have hordered := (StrictlyOrdered.congr fun c => @mem_dedupe engine _ _).symm.trans
    (insertionSort_perm_iff (r := fun a b => engine.localeCompare (criterionJson engine.toTraitEngine a)
      (criterionJson engine.toTraitEngine b) ≤ 0) (@nodup_dedupe engine criteria)).symm
  rw [hordered]
  constructor
  · rintro ⟨hset, -⟩ other hperm
    refine key_eq_iff_sorted.mp ?_
    have hkey := (hset other).mpr fun c => hperm.mem_iff.trans mem_dedupe
    unfold dedupedKey at hkey
    rwa [dedupe_of_nodup (hperm.nodup_iff.mpr nodup_dedupe)] at hkey
  · intro hsame
    refine ⟨fun other => ⟨mem_of_dedupedKey, fun hmem => key_eq_iff_sorted.mpr (hsame _ ?_)⟩,
      fun other hkey => ?_, fun left right => matches_iff, ?_⟩
    · exact (List.perm_ext_iff_of_nodup nodup_dedupe nodup_dedupe).mpr fun c => by
        rw [mem_dedupe, mem_dedupe, hmem]
    · have hsorted (l) : (sortCriteria engine.toTraitEngine l).Perm l := List.perm_insertionSort _ l
      exact (hsorted other).symm.trans (key_eq_iff_sorted.mp hkey ▸ hsorted criteria)
    · simp only [matches_iff]
      exact ⟨fun _ => rfl, Eq.symm, Eq.trans⟩

/-- A collation that passes over the zero width joiner, with some legible texts of numbers. -/
def joinerCollation : LegibleEngine where
  localeCompare a b :=
    let shown (text : String) := text.toList.filter (· ≠ Char.ofNat 0x200d)
    if shown a = shown b then 0 else if shown a < shown b then -1 else 1
  numberText number := String.ofList (List.replicate 
    (Nat.pair (Nat.pair number.num.toNat (-number.num).toNat) number.den) '1')
  numberText_injective a b h := by
    have hlength := congrArg List.length (String.ofList_injective h)
    rw [List.length_replicate, List.length_replicate] at hlength
    obtain ⟨hnum, hden⟩ := Nat.pair_eq_pair.mp hlength
    obtain ⟨hpos, hneg⟩ := Nat.pair_eq_pair.mp hnum
    exact Rat.ext (by omega) hden
  numberText_plain number c hc hmem := by
    rw [String.toList_ofList] at hmem
    rw [(List.mem_replicate.mp hmem).2] at hc
    exact absurd hc (by decide)

theorem tied_criteria_keep_order :
    let blue := BiddingTraitCriterion.exactValue ⟨"Eyes", "Blue"⟩
    let joined := BiddingTraitCriterion.exactValue ⟨"Eyes\u200d", "Blue"⟩
    (∀ c, c ∈ [blue, joined] ↔ c ∈ [joined, blue]) ∧
      dedupedKey joinerCollation [blue, joined] ≠ dedupedKey joinerCollation [joined, blue] ∧
      matchesExactTraitTargets joinerCollation.toTraitEngine [blue, joined] [joined, blue] = false := by
  refine ⟨fun c => by simp [or_comm], by decide +kernel, by decide +kernel⟩

end Artgod.Trading
