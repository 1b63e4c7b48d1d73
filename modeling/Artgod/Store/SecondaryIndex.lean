/-
# Secondary indexes

Values held by an id are also found by a key that some of them have.  A unique index gives for a key the id of
the value that has it; a grouping index gives for a key all ids of the values that have it.  `UniqueIndex` and
`GroupIndex` say that an index is the one computed from the values; the rules say what keeps it so when a value
leaves or joins.
-/
import Mathlib.Logic.Function.Basic
import Mathlib.Tactic.Common

namespace Store

open Function (update_self update_of_ne)

variable {ι κ ν : Type} [DecidableEq ι] [DecidableEq κ]

/-- The ids by key, each key with at most one. -/
def UniqueIndex (keyOf : ν → Option κ) (held : ι → Option ν) (index : κ → Option ι) : Prop :=
  ∀ key id, index key = some id ↔ ∃ v, held id = some v ∧ keyOf v = some key

/-- All ids by key. -/
def GroupIndex (keyOf : ν → Option κ) (held : ι → Option ν) (group : κ → ι → Prop) : Prop :=
  ∀ key id, group key id ↔ ∃ v, held id = some v ∧ keyOf v = some key

/-- The entry of a key, if there is one, is changed. -/
def updateKey (index : κ → Option ι) (key : Option κ) (id : Option ι) : κ → Option ι :=
  match key with
  | none => index
  | some key => Function.update index key id

variable {keyOf : ν → Option κ} {held : ι → Option ν} {index : κ → Option ι} {group : κ → ι → Prop}
  {id : ι} {v : ν}

omit [DecidableEq κ] in
theorem held_removed (id' : ι) (v' : ν) :
    Function.update held id none id' = some v' ↔ held id' = some v' ∧ id' ≠ id := by
  by_cases heq : id' = id
  · rw [heq, update_self]
    exact ⟨fun h => (nomatch h), fun h => absurd rfl h.2⟩
  · rw [update_of_ne heq]
    exact ⟨fun h => ⟨h, heq⟩, fun h => h.1⟩

theorem held_added (hnew : held id = none) (id' : ι) (v' : ν) :
    Function.update held id (some v) id' = some v' ↔ held id' = some v' ∨ id' = id ∧ v' = v := by
  by_cases heq : id' = id
  · rw [heq, update_self, hnew]
    constructor
    · exact fun h => .inr ⟨rfl, (Option.some.inj h).symm⟩
    · rintro (h | ⟨-, rfl⟩)
      · cases h
      · rfl
  · rw [update_of_ne heq]
    exact ⟨.inl, fun h => h.resolve_right fun h => heq h.1⟩

theorem UniqueIndex.remove (h : UniqueIndex keyOf held index) (hv : held id = some v) :
    UniqueIndex keyOf (Function.update held id none) (updateKey index (keyOf v) none) := by
  intro key id'
  simp only [held_removed]
  cases hkey : keyOf v with
  | none =>
    show index key = some id' ↔ _
    rw [h]
    refine exists_congr fun v' => ?_
    rw [and_right_comm]
    refine ⟨fun hv' => ⟨hv', fun heq => ?_⟩, fun hv' => hv'.1⟩
    rw [heq, hv] at hv'
    rw [← Option.some.inj hv'.1, hkey] at hv'
    exact absurd hv'.2 (Option.some_ne_none key).symm
  | some k =>
    have hindex : index k = some id := (h k id).mpr ⟨v, hv, hkey⟩
    show Function.update index k none key = some id' ↔ _
    by_cases heq : key = k
    · subst heq
      rw [update_self]
      refine ⟨fun hnone => (nomatch hnone), ?_⟩
      rintro ⟨v', ⟨hv', hne⟩, hkey'⟩
      have hsame := (h key id').mpr ⟨v', hv', hkey'⟩
      rw [hindex] at hsame
      exact absurd (Option.some.inj hsame).symm hne
    · rw [update_of_ne heq, h]
      refine exists_congr fun v' => ?_
      rw [and_right_comm]
      refine ⟨fun hv' => ⟨hv', fun hid => ?_⟩, fun hv' => hv'.1⟩
      rw [hid, hv] at hv'
      rw [← Option.some.inj hv'.1, hkey] at hv'
      exact heq (Option.some.inj hv'.2).symm

theorem UniqueIndex.add (h : UniqueIndex keyOf held index) (hnew : held id = none)
    (hfree : ∀ id' v', held id' = some v' → keyOf v ≠ none → keyOf v' ≠ keyOf v) :
    UniqueIndex keyOf (Function.update held id (some v)) (updateKey index (keyOf v) (some id)) := by
  intro key id'
  simp only [held_added hnew, or_and_right, exists_or]
  have hself : (∃ v', (id' = id ∧ v' = v) ∧ keyOf v' = some key) ↔ id' = id ∧ keyOf v = some key :=
    ⟨fun ⟨_, ⟨hid, hv⟩, hkey⟩ => ⟨hid, hv ▸ hkey⟩, fun ⟨hid, hkey⟩ => ⟨v, ⟨hid, rfl⟩, hkey⟩⟩
  rw [hself]
  cases hkey : keyOf v with
  | none =>
    show index key = some id' ↔ _
    rw [h]
    exact ⟨.inl, fun hor => hor.resolve_right fun hnone => nomatch hnone.2⟩
  | some k =>
    show Function.update index k (some id) key = some id' ↔ _
    by_cases heq : key = k
    · subst heq
      rw [update_self, Option.some.injEq]
      constructor
      · exact fun hid => .inr ⟨hid.symm, rfl⟩
      · rintro (⟨v', hv', hkey'⟩ | ⟨hid, -⟩)
        · exact absurd (hkey'.trans hkey.symm) (hfree id' v' hv' (by rw [hkey]; exact Option.some_ne_none _))
        · exact hid.symm
    · rw [update_of_ne heq, h]
      exact ⟨.inl, fun hor => hor.resolve_right fun hsome => heq (Option.some.inj hsome.2).symm⟩

omit [DecidableEq ι] [DecidableEq κ] in
theorem UniqueIndex.eq_of_key (h : UniqueIndex keyOf held index) {id' : ι} {v' : ν} {key : κ}
    (hv : held id = some v) (hv' : held id' = some v') (hkey : keyOf v = some key) (hkey' : keyOf v' = some key) :
    id = id' := by
  have hid := (h key id).mpr ⟨v, hv, hkey⟩
  rw [(h key id').mpr ⟨v', hv', hkey'⟩] at hid
  exact (Option.some.inj hid).symm

omit [DecidableEq κ] in
theorem GroupIndex.remove (h : GroupIndex keyOf held group) (hv : held id = some v) :
    GroupIndex keyOf (Function.update held id none) fun key id' => group key id' ∧ ¬ (keyOf v = some key ∧ id' = id) := by
  intro key id'
  simp only [held_removed]
  rw [h]
  constructor
  · rintro ⟨⟨v', hv', hkey⟩, hnot⟩
    refine ⟨v', ⟨hv', fun heq => hnot ⟨?_, heq⟩⟩, hkey⟩
    rw [heq, hv] at hv'
    exact Option.some.inj hv' ▸ hkey
  · rintro ⟨v', ⟨hv', hne⟩, hkey⟩
    exact ⟨⟨v', hv', hkey⟩, fun heq => hne heq.2⟩

omit [DecidableEq κ] in
theorem GroupIndex.add (h : GroupIndex keyOf held group) (hnew : held id = none) :
    GroupIndex keyOf (Function.update held id (some v))
      fun key id' => group key id' ∨ keyOf v = some key ∧ id' = id := by
  intro key id'
  simp only [held_added hnew, or_and_right, exists_or]
  rw [h]
  refine or_congr_right ⟨fun ⟨hkey, hid⟩ => ⟨v, ⟨hid, rfl⟩, hkey⟩, fun ⟨_, ⟨hid, hv⟩, hkey⟩ => ⟨hv ▸ hkey, hid⟩⟩

end Store
