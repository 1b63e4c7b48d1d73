/-
# Grouping into a map

Collecting items under a key, `map.set(key, [...(map.get(key) ?? []), item])` for each: the groups stand in
the order their keys first occur, and each keeps its items in their order.
-/
import Artgod.Js.OrderedMap
import Mathlib.Data.List.Induction

namespace Js

namespace OrderedMap

variable {α κ : Type} [DecidableEq κ]

def group (key : α → κ) (items : List α) : OrderedMap κ (List α) :=
  items.foldl (fun m item => m.set (key item) ((m.get (key item)).getD [] ++ [item])) empty

variable {key : α → κ}

variable {items : List α} {k : κ} {item : α}

theorem group_append_singleton : group key (items ++ [item]) =
      (group key items).set (key item) (((group key items).get (key item)).getD [] ++ [item]) := by
  rw [group, List.foldl_append]
  rfl

/-- The group of a key, which is there once an item has the key. -/
def groupOf (key : α → κ) (items : List α) (k : κ) : List α := items.filter fun item => key item = k

theorem mem_groupOf : item ∈ groupOf key items k ↔ item ∈ items ∧ key item = k := by
  rw [groupOf, List.mem_filter, decide_eq_true_iff]

theorem groupOf_append_singleton : groupOf key (items ++ [item]) k =
      if k = key item then groupOf key items k ++ [item] else groupOf key items k := by
  rw [groupOf, List.filter_append, List.filter_singleton]
  by_cases h : k = key item
  · rw [if_pos h, decide_eq_true h.symm]
    rfl
  · rw [if_neg h, decide_eq_false (Ne.symm h)]
    exact List.append_nil _

theorem get_group :
    (group key items).get k = if groupOf key items k = [] then none else some (groupOf key items k) := by
  induction items using List.reverseRecOn with
  | nil => rfl
  | append_singleton items item ih =>
    rw [group_append_singleton, get_set, groupOf_append_singleton]
    by_cases h : k = key item
    · subst h
      rw [if_pos rfl, if_pos rfl, if_neg (List.append_ne_nil_of_right_ne_nil _ (List.cons_ne_nil _ _)), ih]
      by_cases hnil : groupOf key items (key item) = []
      · rw [if_pos hnil, hnil]
        rfl
      · rw [if_neg hnil]
        rfl
    · rw [if_neg h, if_neg h, ih]

theorem mem_entries_group {xs : List α} :
    (k, xs) ∈ (group key items).entries ↔ xs ≠ [] ∧ groupOf key items k = xs := by
  rw [mem_entries, get_group]
  by_cases hnil : groupOf key items k = []
  · rw [if_pos hnil, hnil]
    exact ⟨fun h => (nomatch h), fun h => absurd h.2.symm h.1⟩
  · rw [if_neg hnil, Option.some.injEq]
    exact ⟨fun h => ⟨h ▸ hnil, h⟩, fun h => h.2⟩

theorem keys_group_nodup : ((group key items).entries.map Prod.fst).Nodup :=
  (group key items).table.keyed

theorem entries_group_of_nodup (h : (items.map key).Nodup) :
    (group key items).entries = items.map fun item => (key item, [item]) := by
  induction items using List.reverseRecOn with
  | nil => rfl
  | append_singleton items item ih =>
    rw [List.map_append, List.nodup_append] at h
    obtain ⟨hnodup, -, hdisjoint⟩ := h
    have hnone : (group key items).get (key item) = none := by
      rw [get_group, if_pos]
      refine List.filter_eq_nil_iff.mpr fun other hother => ?_
      rw [decide_eq_true_iff]
      exact hdisjoint _ (List.mem_map.mpr ⟨other, hother, rfl⟩) _ List.mem_cons_self
    rw [group_append_singleton, entries_set_new hnone, ih hnodup, hnone, List.map_append]
    rfl

theorem values_group_of_nodup (h : (items.map key).Nodup) :
    (group key items).values = items.map fun item => [item] := by
  rw [values, entries_group_of_nodup h, List.map_map]
  rfl

end OrderedMap

end Js
