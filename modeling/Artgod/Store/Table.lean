/-
# Keyed tables

A relational table with one unique key: a list of rows in insertion order, with the proof that no two share a
key.  `insertOrIgnore`, `upsert`, `updateWhere`, `deleteWhere`, `get?` and `select` are the SQL statements; each
keeps the key unique by construction.
-/
import Mathlib.Data.List.Nodup
import Mathlib.Data.List.Perm.Basic
import Mathlib.Tactic.Common

namespace Store

/-- A table whose rows are identified by `key`. -/
structure Table {α κ : Type} (key : α → κ) where
  rows : List α
  keyed : (rows.map key).Nodup

namespace Table

variable {α κ : Type} {key : α → κ}

instance : Membership α (Table key) := ⟨fun t a => a ∈ t.rows⟩

variable {t : Table key} {a : α} {k : κ} {p : α → Bool}

theorem mem_def : a ∈ t ↔ a ∈ t.rows := Iff.rfl

/-- The table without rows. -/
def empty : Table key := ⟨[], by simp⟩

instance : Inhabited (Table key) := ⟨empty⟩

instance [DecidableEq α] : DecidableEq (Table key) := fun t u =>
  decidable_of_iff (t.rows = u.rows) ⟨fun h => by cases t; cases u; simp_all, fun h => by rw [h]⟩

@[simp] theorem not_mem_empty : a ∉ (empty : Table key) := List.not_mem_nil

@[ext] theorem ext {u : Table key} (h : t.rows = u.rows) : t = u := by
  cases t; cases u; simp_all

theorem eq_of_key_eq {b : α} (ha : a ∈ t) (hb : b ∈ t)
    (h : key a = key b) : a = b :=
  List.inj_on_of_nodup_map t.keyed ha hb h

theorem rows_nodup (t : Table key) : t.rows.Nodup := t.keyed.of_map key

/-! ## 1. Reads -/

/-- `SELECT .. WHERE p`, in insertion order. -/
def select (t : Table key) (p : α → Bool) : List α := t.rows.filter p

@[simp] theorem mem_select : a ∈ t.select p ↔ a ∈ t ∧ p a := by
  simp [select, mem_def]

theorem select_nodup (t : Table key) (p : α → Bool) : (t.select p).Nodup :=
  t.rows_nodup.filter p

variable [DecidableEq κ]

/-- The lookup by the unique key. -/
def get? (t : Table key) (k : κ) : Option α := t.rows.find? (fun a => key a = k)

theorem get?_eq_some : t.get? k = some a ↔ a ∈ t ∧ key a = k := by
  constructor
  · intro h
    exact ⟨List.mem_of_find?_eq_some h, by simpa using List.find?_some h⟩
  rintro ⟨hm, hk⟩
  cases hf : t.get? k with
  | none =>
    have := List.find?_eq_none.mp hf a hm
    simp [hk] at this
  | some b =>
    have hb : b ∈ t := List.mem_of_find?_eq_some hf
    have hbk : key b = k := by simpa using List.find?_some hf
    rw [eq_of_key_eq hb hm (hbk.trans hk.symm)]

theorem get?_eq_none : t.get? k = none ↔ ∀ a ∈ t, key a ≠ k := by
  simp [get?, List.find?_eq_none, mem_def]

@[simp] theorem get?_empty : (empty : Table key).get? k = none := rfl

theorem get?_of_mem (h : a ∈ t) : t.get? (key a) = some a :=
  get?_eq_some.mpr ⟨h, rfl⟩

/-- Some row carries the key `k`. -/
def has (t : Table key) (k : κ) : Bool := (t.get? k).isSome

theorem has_iff : t.has k = true ↔ ∃ a ∈ t, key a = k := by
  rw [has, Option.isSome_iff_exists]
  constructor
  · rintro ⟨a, ha⟩
    exact ⟨a, get?_eq_some.mp ha⟩
  · rintro ⟨a, ha⟩
    exact ⟨a, get?_eq_some.mpr ha⟩

theorem not_has_iff : t.has k = false ↔ ∀ a ∈ t, key a ≠ k := by
  rw [has, Option.isSome_eq_false_iff, Option.isNone_iff_eq_none, get?_eq_none]

/-! ## 2. Inserts -/

theorem keyed_append (h : t.has (key a) = false) : ((t.rows ++ [a]).map key).Nodup := by
  rw [List.map_append, List.map_cons, List.map_nil]
  refine t.keyed.append (List.nodup_singleton _) ?_
  intro k hk hk'
  obtain ⟨b, hb, rfl⟩ := List.mem_map.mp hk
  exact not_has_iff.mp h b hb (List.mem_singleton.mp hk')

/-- `INSERT OR IGNORE`: the row is added unless its key is taken. -/
def insertOrIgnore (t : Table key) (a : α) : Table key :=
  if h : t.has (key a) = false then ⟨t.rows ++ [a], keyed_append h⟩ else t

theorem insertOrIgnore_of_has (h : t.has (key a) = true) : t.insertOrIgnore a = t := by
  rw [insertOrIgnore, dif_neg (by simp [h])]

theorem rows_insertOrIgnore_of_not_has (h : t.has (key a) = false) :
    (t.insertOrIgnore a).rows = t.rows ++ [a] := by
  rw [insertOrIgnore, dif_pos h]

theorem mem_insertOrIgnore {t : Table key} {a b : α} :
    b ∈ t.insertOrIgnore a ↔ b ∈ t ∨ (b = a ∧ t.has (key a) = false) := by
  cases h : t.has (key a) with
  | true => simp [insertOrIgnore_of_has h]
  | false => simp [mem_def, rows_insertOrIgnore_of_not_has h]

theorem mem_insertOrIgnore_of_mem {b : α} (h : b ∈ t) : b ∈ t.insertOrIgnore a :=
  mem_insertOrIgnore.mpr (Or.inl h)

theorem get?_insertOrIgnore :
    (t.insertOrIgnore a).get? k = if key a = k then (t.get? k <|> some a) else t.get? k := by
  cases h : t.has (key a) with
  | true =>
    rw [insertOrIgnore_of_has h]
    split
    · next hk =>
      subst hk
      obtain ⟨b, hb⟩ := Option.isSome_iff_exists.mp h
      rw [hb]
      rfl
    · rfl
  | false =>
    simp only [get?, rows_insertOrIgnore_of_not_has h, List.find?_append]
    split
    · next hk => simp [hk]
    · next hk => simp [hk]

/-! ## 3. Updates and deletes -/

/-- `UPDATE .. SET .. WHERE p`: `f` rewrites the selected rows and leaves their key alone. -/
def updateWhere (t : Table key) (p : α → Bool) (f : α → α) (hf : ∀ a, key (f a) = key a) : Table key :=
  ⟨t.rows.map (fun a => if p a then f a else a), by
    have : (t.rows.map (fun a => if p a then f a else a)).map key = t.rows.map key := by
      rw [List.map_map]
      refine List.map_congr_left (fun a _ => ?_)
      simp only [Function.comp_apply]
      split
      · exact hf a
      · rfl
    rw [this]
    exact t.keyed⟩

omit [DecidableEq κ] in
theorem mem_updateWhere {t : Table key} {p : α → Bool} {f : α → α}
    {hf : ∀ a, key (f a) = key a} {b : α} :
    b ∈ t.updateWhere p f hf ↔ ∃ a ∈ t, b = if p a then f a else a := by
  simp only [updateWhere, mem_def, List.mem_map]
  exact ⟨fun ⟨a, ha, h⟩ => ⟨a, ha, h.symm⟩, fun ⟨a, ha, h⟩ => ⟨a, ha, h.symm⟩⟩

theorem get?_updateWhere {f : α → α}
    {hf : ∀ a, key (f a) = key a} :
    (t.updateWhere p f hf).get? k = (t.get? k).map (fun a => if p a then f a else a) := by
  have hkey : ∀ a, key (if p a then f a else a) = key a := by
    intro a
    split
    · exact hf a
    · rfl
  cases h : t.get? k with
  | none =>
    rw [Option.map_none, get?_eq_none]
    intro b hb
    obtain ⟨a, ha, rfl⟩ := mem_updateWhere.mp hb
    rw [hkey]
    exact get?_eq_none.mp h a ha
  | some a =>
    obtain ⟨ha, hk⟩ := get?_eq_some.mp h
    rw [Option.map_some, get?_eq_some]
    exact ⟨mem_updateWhere.mpr ⟨a, ha, rfl⟩, (hkey a).trans hk⟩

/-- `INSERT .. ON CONFLICT(key) DO UPDATE`: `merge` computes the row that replaces the stored
one, without touching its key. -/
def upsert (t : Table key) (a : α) (merge : α → α) (hm : ∀ b, key (merge b) = key b) : Table key :=
  if t.has (key a) then t.updateWhere (fun b => key b = key a) merge hm else t.insertOrIgnore a

theorem get?_upsert {merge : α → α}
    {hm : ∀ b, key (merge b) = key b} :
    (t.upsert a merge hm).get? k =
      if key a = k then some ((t.get? k).elim a merge) else t.get? k := by
  rw [upsert]
  cases h : t.has (key a) with
  | true =>
    simp only [if_true, get?_updateWhere]
    obtain ⟨b, hb⟩ := Option.isSome_iff_exists.mp h
    split
    · next hk =>
      subst hk
      simp [hb, (get?_eq_some.mp hb).2]
    next hk =>
    cases hg : t.get? k with
    | none => rfl
    | some c =>
      have hc : key c ≠ key a := fun hc => hk (hc.symm.trans (get?_eq_some.mp hg).2)
      simp [hc]
  | false =>
    simp only [Bool.false_eq_true, if_false, get?_insertOrIgnore]
    split
    · next hk =>
      subst hk
      rw [get?_eq_none.mpr (not_has_iff.mp h)]
      rfl
    · rfl

theorem mem_upsert {merge : α → α}
    {hm : ∀ b, key (merge b) = key b} {c : α} :
    c ∈ t.upsert a merge hm ↔ (c ∈ t ∧ key c ≠ key a) ∨ c = (t.get? (key a)).elim a merge := by
  have hkey : key ((t.get? (key a)).elim a merge) = key a := by
    cases h : t.get? (key a) with
    | none => rfl
    | some b => exact (hm b).trans (get?_eq_some.mp h).2
  constructor
  · intro hc
    have hg := get?_of_mem hc
    rw [get?_upsert] at hg
    split at hg
    · next hk => exact Or.inr (by rw [hk]; exact (Option.some.inj hg).symm)
    · next hk => exact Or.inl ⟨(get?_eq_some.mp hg).1, fun h => hk h.symm⟩
  · rintro (⟨hc, hk⟩ | rfl)
    · have : (t.upsert a merge hm).get? (key c) = some c := by
        rw [get?_upsert, if_neg (fun h => hk h.symm), get?_of_mem hc]
      exact (get?_eq_some.mp this).1
    · have : (t.upsert a merge hm).get? (key a) = some ((t.get? (key a)).elim a merge) := by
        rw [get?_upsert, if_pos rfl]
      exact (get?_eq_some.mp this).1

/-- `DELETE FROM .. WHERE p`. -/
def deleteWhere (t : Table key) (p : α → Bool) : Table key :=
  ⟨t.rows.filter (fun a => !p a), t.keyed.sublist (List.filter_sublist.map key)⟩

omit [DecidableEq κ] in
@[simp] theorem mem_deleteWhere : a ∈ t.deleteWhere p ↔ a ∈ t ∧ p a = false := by
  simp [deleteWhere, mem_def]

theorem get?_deleteWhere : (t.deleteWhere p).get? k = (t.get? k).filter (fun a => !p a) := by
  cases h : t.get? k with
  | none =>
    rw [Option.filter_none, get?_eq_none]
    intro a ha
    exact get?_eq_none.mp h a (mem_deleteWhere.mp ha).1
  | some b =>
    obtain ⟨hb, hk⟩ := get?_eq_some.mp h
    cases hp : p b with
    | true =>
      simp only [Option.filter_some, hp, Bool.not_true, Bool.false_eq_true, if_false]
      rw [get?_eq_none]
      intro a ha hak
      obtain ⟨ha, hpa⟩ := mem_deleteWhere.mp ha
      rw [eq_of_key_eq ha hb (hak.trans hk.symm), hp] at hpa
      exact Bool.noConfusion hpa
    | false =>
      simp only [Option.filter_some, hp, Bool.not_false, if_true]
      exact get?_eq_some.mpr ⟨mem_deleteWhere.mpr ⟨hb, hp⟩, hk⟩

end Table

end Store
