/-
# When a sort forgets the order of its input

A stable sort leaves elements that tie in the order they came in, and on a comparison that is not transitive its
outcome depends on that order as well.  `insertionSort_perm_iff` says when neither happens: the elements can be
put into one order in which each is strictly before all that follow it.
-/
import Mathlib.Data.List.Sort

namespace Js

variable {α : Type} {r : α → α → Prop} {l : List α} {a b : α}

/-- The elements can be put into one order. -/
def StrictlyOrdered (r : α → α → Prop) (l : List α) : Prop :=
  ∃ sorted : List α, (∀ a, a ∈ sorted ↔ a ∈ l) ∧ sorted.Pairwise fun a b => r a b ∧ ¬ r b a

theorem StrictlyOrdered.congr {l' : List α} (h : ∀ a, a ∈ l ↔ a ∈ l') :
    StrictlyOrdered r l ↔ StrictlyOrdered r l' := by
  simp only [StrictlyOrdered, h]

theorem nodup_of_strict (h : l.Pairwise fun a b => r a b ∧ ¬ r b a) : l.Nodup :=
  h.imp fun {a b} hab => by
    rintro rfl
    exact hab.2 hab.1

variable [DecidableRel r]

theorem orderedInsert_append {front back : List α} (hfront : ∀ b ∈ front, ¬ r a b) (hback : ∀ b ∈ back, r a b) :
    (front ++ back).orderedInsert r a = front ++ a :: back := by
  induction front with
  | nil =>
    cases back with
    | nil => rfl
    | cons b back => exact List.orderedInsert_cons_of_le r back (hback b List.mem_cons_self)
  | cons b front ih =>
    rw [List.cons_append, List.orderedInsert_of_not_le r _ (hfront b List.mem_cons_self),
      ih fun c hc => hfront c (List.mem_cons_of_mem _ hc), List.cons_append]

theorem insertionSort_eq_of_strict [DecidableEq α] {sorted : List α}
    (hstrict : sorted.Pairwise fun a b => r a b ∧ ¬ r b a) : ∀ {l : List α}, l.Nodup → (∀ a ∈ l, a ∈ sorted) →
      l.insertionSort r = sorted.filter (· ∈ l)
  | [], _, _ => by simp
  | a :: rest, hl, hsub => by
    obtain ⟨hfresh, hrest⟩ := List.nodup_cons.mp hl
    have ih := insertionSort_eq_of_strict hstrict hrest fun b hb => hsub b (List.mem_cons_of_mem _ hb)
    obtain ⟨front, back, rfl⟩ := List.append_of_mem (hsub a List.mem_cons_self)
    obtain ⟨-, htail, hbefore⟩ := List.pairwise_append.mp hstrict
    have hafter := (List.pairwise_cons.mp htail).1
    -- the element joins between those before and those after it
    have hsame : ∀ part : List α, a ∉ part → part.filter (· ∈ a :: rest) = part.filter (· ∈ rest) := fun part ha =>
      List.filter_congr fun b hb => by
        have hne : b ≠ a := fun heq => ha (heq ▸ hb)
        simp [hne]
    have hapart := List.nodup_append.mp (nodup_of_strict hstrict)
    have hfront : a ∉ front := fun ha => hapart.2.2 a ha a List.mem_cons_self rfl
    have hback : a ∉ back := (List.nodup_cons.mp hapart.2.1).1
    rw [List.insertionSort_cons, ih, List.filter_append, List.filter_append, List.filter_cons, List.filter_cons,
      if_neg (by simpa using hfresh), if_pos (by simp), hsame front hfront, hsame back hback]
    refine orderedInsert_append (fun b hb => ?_) (fun b hb => ?_)
    · exact (hbefore b (List.mem_filter.mp hb).1 a List.mem_cons_self).2
    · exact (hafter b (List.mem_filter.mp hb).1).1

theorem not_both_sublist : ∀ {l : List α}, l.Nodup → [a, b].Sublist l → ¬ [b, a].Sublist l
  | c :: rest, hl, h, h' => by
    obtain ⟨hfresh, hrest⟩ := List.nodup_cons.mp hl
    cases h with
    | cons _ h =>
      cases h' with
      | cons _ h' => exact not_both_sublist hrest h h'
      | cons_cons _ h' => exact hfresh (h.subset (List.mem_cons_of_mem _ List.mem_cons_self))
    | cons_cons _ h =>
      cases h' with
      | cons _ h' => exact hfresh (h'.subset (List.mem_cons_of_mem _ List.mem_cons_self))
      | cons_cons _ h' => exact hfresh (h.subset List.mem_cons_self)

theorem insertionSort_sublist (front : List α) : (l.insertionSort r).Sublist ((front ++ l).insertionSort r) := by
  induction front with
  | nil => exact List.Sublist.refl _
  | cons c front ih => exact ih.trans (List.sublist_orderedInsert c _)

/-- **The outcome does not depend on the order of the input exactly when the comparison orders the elements.** -/
theorem insertionSort_perm_iff [DecidableEq α] (hl : l.Nodup) :
    (∀ l' : List α, l'.Perm l → l'.insertionSort r = l.insertionSort r) ↔ StrictlyOrdered r l := by
  constructor
  · intro hsame
    refine ⟨l.insertionSort r, fun a => (List.perm_insertionSort r l).mem_iff, ?_⟩
    have hnodup : (l.insertionSort r).Nodup := (List.perm_insertionSort r l).nodup_iff.mpr hl
    -- a pair that comes in last, in either order
    have hpair : ∀ a b, a ≠ b → a ∈ l → b ∈ l → ([a, b].insertionSort r).Sublist (l.insertionSort r) := by
      intro a b hne ha hb
      have hperm : (((l.erase a).erase b) ++ [a, b]).Perm l := by
        have hb' : b ∈ l.erase a := (List.mem_erase_of_ne hne.symm).mpr hb
        refine List.perm_append_comm.trans ?_
        exact ((List.perm_cons_erase hb').symm.cons a).trans (List.perm_cons_erase ha).symm
      rw [← hsame _ hperm]
      exact insertionSort_sublist _
    refine List.pairwise_of_forall_sublist fun {a b} hsub => ?_
    have hmem : ∀ c ∈ [a, b], c ∈ l := fun c hc => (List.perm_insertionSort r l).subset (hsub.subset hc)
    have hne : a ≠ b := by
      rintro rfl
      exact List.nodup_iff_sublist.mp hnodup a hsub
    have hab := hpair a b hne (hmem a (by simp)) (hmem b (by simp))
    have hba := hpair b a hne.symm (hmem b (by simp)) (hmem a (by simp))
    have hsort : ∀ x y, [x, y].insertionSort r = if r x y then [x, y] else [y, x] := fun _ _ => rfl
    rw [hsort] at hab hba
    have hnot := not_both_sublist hnodup hsub
    constructor
    · by_contra h
      rw [if_neg h] at hab
      exact hnot hab
    · intro h
      rw [if_pos h] at hba
      exact hnot hba
  · rintro ⟨sorted, hmem, hstrict⟩ l' hl'
    rw [insertionSort_eq_of_strict hstrict hl fun a => (hmem a).mpr, insertionSort_eq_of_strict hstrict
      (hl'.nodup_iff.mpr hl) fun a ha => (hmem a).mpr (hl'.mem_iff.mp ha)]
    exact List.filter_congr fun a _ => by simp [hl'.mem_iff]

theorem insertionSort_insertionSort (hl : l.Nodup) (h : StrictlyOrdered r l) :
    (l.insertionSort r).insertionSort r = l.insertionSort r := by
  classical
  exact (insertionSort_perm_iff hl).mpr h _ (List.perm_insertionSort r l)

end Js
