/-
# Maps in insertion order

`Map`: entries in the order their keys were first set.  Setting a present key keeps its place; deleting
and setting again moves it to the end.
-/
import Artgod.Store.Table

namespace Js

open Store

/-- The entries of a `Map`, with distinct keys. -/
structure OrderedMap (κ ν : Type) where
  table : Table (Prod.fst : κ × ν → κ)

namespace OrderedMap

variable {κ ν : Type}

def entries (m : OrderedMap κ ν) : List (κ × ν) := m.table.rows

def empty : OrderedMap κ ν := ⟨Table.empty⟩

def size (m : OrderedMap κ ν) : Nat := m.entries.length

def values (m : OrderedMap κ ν) : List ν := m.entries.map Prod.snd

/-- The entry whose key was set first. -/
def first? (m : OrderedMap κ ν) : Option (κ × ν) := m.entries.head?

variable [DecidableEq κ]

def get (m : OrderedMap κ ν) (k : κ) : Option ν := (m.table.get? k).map Prod.snd

def set (m : OrderedMap κ ν) (k : κ) (v : ν) : OrderedMap κ ν :=
  ⟨m.table.upsert (k, v) (fun e => (e.1, v)) (fun _ => rfl)⟩

def delete (m : OrderedMap κ ν) (k : κ) : OrderedMap κ ν := ⟨m.table.deleteWhere fun e => e.1 = k⟩

variable {m : OrderedMap κ ν} {k : κ} {v : ν} {p : ν → Bool} {f : ν → ν}

theorem mem_entries : (k, v) ∈ m.entries ↔ m.get k = some v := by
  constructor
  · intro h
    rw [get, Table.get?_of_mem (show (k, v) ∈ m.table from h)]
    rfl
  intro h
  obtain ⟨e, he, rfl⟩ := Option.map_eq_some_iff.mp h
  obtain ⟨hmem, hkey⟩ := Table.get?_eq_some.mp he
  rw [← hkey]
  exact hmem

theorem mem_values : v ∈ m.values ↔ ∃ k, m.get k = some v := by
  rw [values, List.mem_map]
  constructor
  · rintro ⟨e, he, rfl⟩
    exact ⟨e.1, mem_entries.mp he⟩
  · rintro ⟨k, hk⟩
    exact ⟨(k, v), mem_entries.mpr hk, rfl⟩

@[simp] theorem get_empty : (empty : OrderedMap κ ν).get k = none := rfl

omit [DecidableEq κ] in
@[simp] theorem size_empty : (empty : OrderedMap κ ν).size = 0 := rfl

theorem get_set {k' : κ} :
    (m.set k v).get k' = if k' = k then some v else m.get k' := by
  rw [get, set, Table.get?_upsert]
  by_cases h : k = k'
  · rw [if_pos h, if_pos h.symm]
    cases m.table.get? k' <;> rfl
  · rw [if_neg h, if_neg (Ne.symm h)]
    rfl

theorem get_delete {k' : κ} :
    (m.delete k).get k' = if k' = k then none else m.get k' := by
  rw [get, delete, Table.get?_deleteWhere, get]
  cases h : m.table.get? k' with
  | none => simp
  | some e =>
    have hkey : e.1 = k' := (Table.get?_eq_some.mp h).2
    subst hkey
    by_cases hk : e.1 = k
    · simp [Option.filter_some, hk]
    · simp [Option.filter_some, hk]

theorem get_first? (h : m.first? = some (k, v)) : m.get k = some v :=
  mem_entries.mp (List.mem_of_head? h)

theorem first?_eq_none : m.first? = none ↔ ∀ k, m.get k = none := by
  constructor
  · intro h k
    cases hk : m.get k with
    | none => rfl
    | some v =>
      have hmem := mem_entries.mpr hk
      rw [List.head?_eq_none_iff.mp h] at hmem
      cases hmem
  · intro h
    cases hf : m.first? with
    | none => rfl
    | some e =>
      have hget := get_first? (show m.first? = some (e.1, e.2) from hf)
      rw [h] at hget
      cases hget

theorem size_eq_zero : m.size = 0 ↔ ∀ k, m.get k = none := by
  rw [← first?_eq_none, size, List.length_eq_zero_iff, first?, List.head?_eq_none_iff]

theorem entries_set_new (h : m.get k = none) : (m.set k v).entries = m.entries ++ [(k, v)] := by
  have hhas : m.table.has k = false := by
    rw [Table.has, Option.isSome_eq_false_iff, Option.isNone_iff_eq_none]
    exact Option.map_eq_none_iff.mp h
  unfold entries set Table.upsert
  rw [if_neg (by rw [hhas]; decide)]
  exact Table.rows_insertOrIgnore_of_not_has hhas

theorem size_set_new (h : m.get k = none) : (m.set k v).size = m.size + 1 := by
  rw [size, entries_set_new h, List.length_append, List.length_singleton, size]

theorem size_delete_present (h : m.get k = some v) : (m.delete k).size + 1 = m.size := by
  have hmem : k ∈ m.entries.map Prod.fst := List.mem_map.mpr ⟨(k, v), mem_entries.mpr h, rfl⟩
  have hkeys : (m.delete k).entries.map Prod.fst = (m.entries.map Prod.fst).erase k := by
    have hkeyed : (m.entries.map Prod.fst).Nodup := m.table.keyed
    rw [hkeyed.erase_eq_filter, List.filter_map]
    refine congrArg _ (List.filter_congr fun e _ => ?_)
    simp [bne, BEq.beq]
  have hlength := List.length_erase_of_mem hmem
  rw [← hkeys, List.length_map, List.length_map] at hlength
  have hpos := List.length_pos_of_mem (mem_entries.mpr h)
  rw [size, size, hlength]
  omega

theorem size_delete_le (m : OrderedMap κ ν) (k : κ) : (m.delete k).size ≤ m.size := by
  have hrows : (m.delete k).entries = m.entries.filter fun e => !(decide (e.1 = k)) := rfl
  rw [size, size, hrows]
  exact List.length_filter_le _ _

theorem get_deleteAll (ks : List κ) (m : OrderedMap κ ν) (k : κ) :
    (ks.foldl (fun m k => m.delete k) m).get k = if k ∈ ks then none else m.get k := by
  induction ks generalizing m with
  | nil => simp
  | cons k' rest ih =>
    rw [List.foldl_cons, ih, get_delete]
    by_cases hk : k = k'
    · simp [hk]
    · simp [hk]

/-! ## Counting and changing values -/

omit [DecidableEq κ] in
/-- The number of entries whose value is marked. -/
def count (m : OrderedMap κ ν) (p : ν → Bool) : Nat := m.values.countP p

/-- One for a marked value, none for an unmarked or missing one. -/
def tally (p : ν → Bool) (v : Option ν) : Nat := if v.any p then 1 else 0

omit [DecidableEq κ] in
@[simp] theorem tally_none : tally p none = 0 := rfl

omit [DecidableEq κ] in
theorem tally_some : tally p (some v) = if p v then 1 else 0 := rfl

omit [DecidableEq κ] in
@[simp] theorem count_empty : (empty : OrderedMap κ ν).count p = 0 := rfl

theorem countP_replace {old : ν} :
    ∀ {l : List (κ × ν)}, (l.map Prod.fst).Nodup → (k, old) ∈ l →
      ((l.map fun e => if e.1 = k then (e.1, v) else e).map Prod.snd).countP p + tally p (some old) =
        (l.map Prod.snd).countP p + tally p (some v) := by
  intro l
  induction l with
  | nil => exact fun _ h => nomatch h
  | cons e rest ih =>
    intro hnodup hmem
    rw [List.map_cons, List.nodup_cons] at hnodup
    by_cases hk : e.1 = k
    · have hold : (k, old) = e := by
        rcases List.mem_cons.mp hmem with h | h
        · exact h
        · exact absurd (hk ▸ List.mem_map.mpr ⟨(k, old), h, rfl⟩) hnodup.1
      have hrest : (rest.map fun e => if e.1 = k then (e.1, v) else e) = rest := by
        refine (List.map_congr_left fun e' he' => ?_).trans (List.map_id' rest)
        have hne : e'.1 ≠ k := fun h => hnodup.1 (List.mem_map.mpr ⟨e', he', h.trans hk.symm⟩)
        exact if_neg hne
      subst hold
      simp only [List.map_cons, if_true, List.countP_cons, hrest, tally_some]
      omega
    · have hmem' : (k, old) ∈ rest := by
        rcases List.mem_cons.mp hmem with h | h
        · exact absurd (congrArg Prod.fst h).symm hk
        · exact h
      have hrec := ih hnodup.2 hmem'
      simp only [List.map_cons, if_neg hk, List.countP_cons]
      omega

theorem count_set {m : OrderedMap κ ν} {p : ν → Bool} {k : κ} {v : ν} :
    (m.set k v).count p + tally p (m.get k) = m.count p + tally p (some v) := by
  cases hk : m.get k with
  | none =>
    rw [count, values, entries_set_new hk, List.map_append, List.countP_append, tally_none, tally_some,
      count, values]
    simp only [List.map_cons, List.map_nil, List.countP_singleton, Nat.add_zero]
  | some old =>
    have hmem : (k, old) ∈ m.entries := mem_entries.mpr hk
    have hhas : m.table.has k = true := Table.has_iff.mpr ⟨(k, old), hmem, rfl⟩
    have hentries : (m.set k v).entries = m.entries.map fun e => if e.1 = k then (e.1, v) else e := by
      unfold entries set Table.upsert
      rw [if_pos hhas]
      simp [Table.updateWhere]
    rw [count, values, hentries]
    exact countP_replace m.table.keyed hmem

theorem count_delete {m : OrderedMap κ ν} {p : ν → Bool} {k : κ} :
    (m.delete k).count p + tally p (m.get k) = m.count p := by
  have hlist : ∀ l : List (κ × ν), (l.map Prod.fst).Nodup →
      ((l.filter fun e => !decide (e.1 = k)).map Prod.snd).countP p +
        tally p ((l.find? fun e => e.1 = k).map Prod.snd) = (l.map Prod.snd).countP p := by
    intro l
    induction l with
    | nil => exact fun _ => rfl
    | cons e rest ih =>
      intro hnodup
      rw [List.map_cons, List.nodup_cons] at hnodup
      by_cases hk : e.1 = k
      · have hrest : (rest.filter fun e => !decide (e.1 = k)) = rest := by
          refine List.filter_eq_self.mpr fun e' he' => ?_
          have hne : e'.1 ≠ k := fun h => hnodup.1 (List.mem_map.mpr ⟨e', he', h.trans hk.symm⟩)
          simp [hne]
        rw [List.filter_cons_of_neg (by simp [hk]), List.find?_cons_of_pos (by simp [hk]), hrest]
        simp only [List.map_cons, List.countP_cons, Option.map_some, tally_some]
      · have hrec := ih hnodup.2
        rw [List.filter_cons_of_pos (by simp [hk]), List.find?_cons_of_neg (by simp [hk])]
        simp only [List.map_cons, List.countP_cons]
        omega
  exact hlist m.entries m.table.keyed

/-- Every value changed. -/
def map (f : ν → ν) (m : OrderedMap κ ν) : OrderedMap κ ν :=
  ⟨m.table.updateWhere (fun _ => true) (fun e => (e.1, f e.2)) (fun _ => rfl)⟩

theorem get_map : (m.map f).get k = (m.get k).map f := by
  rw [get, map, Table.get?_updateWhere, get]
  cases m.table.get? k <;> rfl

omit [DecidableEq κ] in
theorem values_map : (m.map f).values = m.values.map f := by
  simp [values, entries, map, Table.updateWhere]

omit [DecidableEq κ] in
theorem count_map : (m.map f).count p = m.count fun v => p (f v) := by
  rw [count, values_map, List.countP_map]
  rfl

end OrderedMap

end Js
