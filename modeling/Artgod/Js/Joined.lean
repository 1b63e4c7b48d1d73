/-
# Texts joined with separators

A key that is built by joining texts can be read back only as far as the separators can be told from the
texts.  These are the facts that such arguments need: where a separator does not occur before it, the text is
determined (`append_cons_inj`); and joining keeps, and adds to, the occurrences of every other character
(`count_intercalate`).
-/
import Mathlib.Data.List.Basic
import Mathlib.Algebra.BigOperators.Group.List.Basic
import Mathlib.Algebra.Ring.Nat

namespace Js

variable {α β : Type}

theorem append_cons_inj {x : α} {l l' m m' : List α} (hl : x ∉ l) (hl' : x ∉ l')
    (h : l ++ x :: m = l' ++ x :: m') : l = l' ∧ m = m' := by
  induction l generalizing l' with
  | nil =>
    cases l' with
    | nil => exact ⟨rfl, (List.cons.inj h).2⟩
    | cons b l' => exact absurd ((List.cons.inj h).1 ▸ List.mem_cons_self) hl'
  | cons a l ih =>
    cases l' with
    | nil => exact absurd ((List.cons.inj h).1 ▸ List.mem_cons_self) hl
    | cons b l' =>
      obtain ⟨hab, hrest⟩ := List.cons.inj h
      obtain ⟨hll, hmm⟩ := ih (fun hx => hl (List.mem_cons_of_mem _ hx))
        (fun hx => hl' (List.mem_cons_of_mem _ hx)) hrest
      exact ⟨by rw [hab, hll], hmm⟩

theorem flatMap_inj {f : α → List β} (hne : ∀ a, f a ≠ [])
    (hf : ∀ a b x y, f a ++ x = f b ++ y → a = b ∧ x = y) {xs ys : List α} (h : xs.flatMap f = ys.flatMap f) :
    xs = ys := by
  induction xs generalizing ys with
  | nil =>
    cases ys with
    | nil => rfl
    | cons y ys =>
      rw [List.flatMap_nil, List.flatMap_cons] at h
      exact absurd (List.append_eq_nil_iff.mp h.symm).1 (hne y)
  | cons x xs ih =>
    cases ys with
    | nil =>
      rw [List.flatMap_nil, List.flatMap_cons] at h
      exact absurd (List.append_eq_nil_iff.mp h).1 (hne x)
    | cons y ys =>
      rw [List.flatMap_cons, List.flatMap_cons] at h
      obtain ⟨hxy, hrest⟩ := hf x y _ _ h
      rw [hxy, ih hrest]

theorem intercalate_inj {P : α → Prop} {f : α → List β} {sep close : β} (hsep : sep ≠ close)
    (hhead : ∀ a x, P a → f a ++ x ≠ [close])
    (hf : ∀ a b x y, P a → P b → f a ++ x = f b ++ y → a = b ∧ x = y) : ∀ {xs ys : List α},
    (∀ a ∈ xs, P a) → (∀ a ∈ ys, P a) →
    [sep].intercalate (xs.map f) ++ [close] = [sep].intercalate (ys.map f) ++ [close] → xs = ys
  | [], [], _, _, _ => rfl
  | [], [y], _, hys, h => absurd h.symm (by simpa using hhead y [close] (hys y List.mem_cons_self))
  | [], y :: y' :: ys, _, hys, h => absurd h.symm (by
      simpa [List.intercalate_cons_cons] using hhead y _ (hys y List.mem_cons_self))
  | [x], [], hxs, _, h => absurd h (by simpa using hhead x [close] (hxs x List.mem_cons_self))
  | x :: x' :: xs, [], hxs, _, h => absurd h (by
      simpa [List.intercalate_cons_cons] using hhead x _ (hxs x List.mem_cons_self))
  | [x], [y], hxs, hys, h => by
    simp only [List.map_cons, List.map_nil, List.intercalate_singleton] at h
    rw [(hf x y _ _ (hxs x List.mem_cons_self) (hys y List.mem_cons_self) h).1]
  | [x], y :: y' :: ys, hxs, hys, h => by
    simp only [List.map_cons, List.map_nil, List.intercalate_singleton, List.intercalate_cons_cons,
      List.append_assoc] at h
    have hrest := (hf x y _ _ (hxs x List.mem_cons_self) (hys y List.mem_cons_self) h).2
    exact absurd (List.cons.inj hrest).1.symm hsep
  | x :: x' :: xs, [y], hxs, hys, h => by
    simp only [List.map_cons, List.map_nil, List.intercalate_singleton, List.intercalate_cons_cons,
      List.append_assoc] at h
    have hrest := (hf x y _ _ (hxs x List.mem_cons_self) (hys y List.mem_cons_self) h).2
    exact absurd (List.cons.inj hrest).1 hsep
  | x :: x' :: xs, y :: y' :: ys, hxs, hys, h => by
    rw [List.map_cons, List.map_cons, List.map_cons, List.map_cons, List.intercalate_cons_cons,
      List.intercalate_cons_cons, List.append_assoc, List.append_assoc, List.append_assoc, List.append_assoc] at h
    obtain ⟨rfl, hrest⟩ := hf x y _ _ (hxs x List.mem_cons_self) (hys y List.mem_cons_self) h
    rw [intercalate_inj hsep hhead hf (fun a ha => hxs a (List.mem_cons_of_mem _ ha))
      (fun a ha => hys a (List.mem_cons_of_mem _ ha)) (List.append_cancel_left hrest)]

theorem count_intercalate [DecidableEq α] {sep c : α} (hne : sep ≠ c) (ls : List (List α)) :
    ([sep].intercalate ls).count c = (ls.map (List.count c)).sum := by
  induction ls with
  | nil => rfl
  | cons l rest ih =>
    cases rest with
    | nil => simp
    | cons l' rest =>
      rw [List.intercalate_cons_cons, List.count_append, List.count_append, ih,
        List.count_singleton, List.map_cons, List.sum_cons]
      simp [hne]

theorem length_lt_intercalate {sep : List α} (hsep : sep ≠ []) {ls : List (List α)} (htwo : 2 ≤ ls.length)
    {l : List α} (hl : l ∈ ls) : l.length < (sep.intercalate ls).length := by
  have hpos : 0 < sep.length := List.length_pos_of_ne_nil hsep
  induction ls with
  | nil => exact absurd hl List.not_mem_nil
  | cons a rest ih =>
    cases rest with
    | nil => exact absurd htwo (by simp)
    | cons b rest =>
      rw [List.intercalate_cons_cons, List.length_append, List.length_append]
      rcases List.mem_cons.mp hl with rfl | hl
      · omega
      cases rest with
      | nil =>
        rw [List.mem_singleton.mp hl, List.intercalate_singleton]
        omega
      | cons c rest =>
        have hrest := ih (by simp) hl
        omega

end Js
