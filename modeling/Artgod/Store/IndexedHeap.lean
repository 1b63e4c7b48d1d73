/-
# Binary heaps with an index

A binary heap in a list, with the position of every entry under its key, so that an entry can be updated
or removed by key.  The order is a parameter, and may change between operations: what is shown here does
not depend on it.  Every operation keeps the index true to the list (`Indexed`), and rearranges, adds or
removes exactly the entry it says.
-/
import Mathlib.Data.List.Basic
import Mathlib.Logic.Function.Basic

namespace Store

structure IndexedHeap (α κ : Type) where
  heap : List α
  index : κ → Option Nat

namespace IndexedHeap

variable {α κ : Type} [DecidableEq κ]

/-! ## 1. The operations -/

def empty : IndexedHeap α κ := ⟨[], fun _ => none⟩

section

variable (key : α → κ)

/-- Exchange the entries at two positions. -/
def swap (h : IndexedHeap α κ) (i j : Nat) : IndexedHeap α κ :=
  if i = j then h
  else
    match h.heap[i]?, h.heap[j]? with
    | some left, some right =>
      { heap := (h.heap.set i right).set j left
        index := Function.update (Function.update h.index (key right) (some i)) (key left) (some j) }
    | _, _ => h

/-- Whether the entry at the first position is weaker than the one at the second. -/
def weakerAt (weaker : α → α → Bool) (h : IndexedHeap α κ) (i j : Nat) : Bool :=
  match h.heap[i]?, h.heap[j]? with
  | some left, some right => weaker left right
  | _, _ => false

/-- Move the entry at a position up while it is weaker than its parent, at most `n` times; with the
position where it settles. -/
def bubbleUp (key : α → κ) (weaker : α → α → Bool) : Nat → IndexedHeap α κ → Nat → IndexedHeap α κ × Nat
  | 0, h, i => (h, i)
  | n + 1, h, i =>
    if i = 0 then (h, i)
    else if h.weakerAt weaker i ((i - 1) / 2) then
      bubbleUp key weaker n (h.swap key i ((i - 1) / 2)) ((i - 1) / 2)
    else (h, i)

/-- The weakest of a position and its two children. -/
def weakestAt (weaker : α → α → Bool) (h : IndexedHeap α κ) (i : Nat) : Nat :=
  let left := i * 2 + 1
  let right := left + 1
  let weakest := if left < h.heap.length ∧ h.weakerAt weaker left i then left else i
  if right < h.heap.length ∧ h.weakerAt weaker right weakest then right else weakest

/-- Move the entry at a position down while a child is weaker, at most `n` times. -/
def bubbleDown (key : α → κ) (weaker : α → α → Bool) : Nat → IndexedHeap α κ → Nat → IndexedHeap α κ
  | 0, h, _ => h
  | n + 1, h, i =>
    if h.weakestAt weaker i = i then h
    else bubbleDown key weaker n (h.swap key i (h.weakestAt weaker i)) (h.weakestAt weaker i)

/-- Up, and then down from where it settles. -/
def settle (weaker : α → α → Bool) (h : IndexedHeap α κ) (i : Nat) : IndexedHeap α κ :=
  let (h', i') := bubbleUp key weaker i h i
  bubbleDown key weaker h'.heap.length h' i'

def add (weaker : α → α → Bool) (h : IndexedHeap α κ) (a : α) : IndexedHeap α κ :=
  let i := h.heap.length
  (bubbleUp key weaker i ⟨h.heap ++ [a], Function.update h.index (key a) (some i)⟩ i).1

def update (weaker : α → α → Bool) (h : IndexedHeap α κ) (k : κ) : IndexedHeap α κ :=
  match h.index k with
  | none => h
  | some i => h.settle key weaker i

/-- The last entry takes the place of the removed one, and settles. -/
def remove (weaker : α → α → Bool) (h : IndexedHeap α κ) (k : κ) : IndexedHeap α κ :=
  match h.index k with
  | none => h
  | some i =>
    let swapped := h.swap key i (h.heap.length - 1)
    let popped : IndexedHeap α κ := ⟨swapped.heap.dropLast, Function.update swapped.index k none⟩
    if i < popped.heap.length then popped.settle key weaker i else popped

def peek (h : IndexedHeap α κ) : Option α := h.heap.head?

/-! ## 2. The index -/

/-- The index knows the position of every entry, and of nothing else. -/
def Indexed (h : IndexedHeap α κ) : Prop :=
  ∀ k i, h.index k = some i ↔ (h.heap[i]?).map key = some k

end

variable {key : α → κ} {weaker : α → α → Bool} {h h' h'' : IndexedHeap α κ}

omit [DecidableEq κ] in
theorem Indexed.index_eq (hi : Indexed key h) {i : Nat} {a : α} (ha : h.heap[i]? = some a) :
    h.index (key a) = some i := by
  rw [hi, ha]
  rfl

omit [DecidableEq κ] in
theorem Indexed.position_unique (hi : Indexed key h) {i j : Nat} {a b : α} (ha : h.heap[i]? = some a)
    (hb : h.heap[j]? = some b) (hkey : key a = key b) : i = j := by
  have hpos := hi.index_eq ha
  rw [hkey, hi.index_eq hb] at hpos
  exact (Option.some.inj hpos).symm

omit [DecidableEq κ] in
theorem Indexed.eq_of_key_eq (hi : Indexed key h) {a b : α} (ha : a ∈ h.heap) (hb : b ∈ h.heap)
    (hkey : key a = key b) : a = b := by
  obtain ⟨i, ha'⟩ := List.mem_iff_getElem?.mp ha
  obtain ⟨j, hb'⟩ := List.mem_iff_getElem?.mp hb
  rw [hi.position_unique ha' hb' hkey, hb'] at ha'
  exact (Option.some.inj ha').symm

omit [DecidableEq κ] in
theorem Indexed.index_none (hi : Indexed key h) {k : κ} : h.index k = none ↔ ∀ a ∈ h.heap, key a ≠ k := by
  constructor
  · intro hnone a ha hk
    obtain ⟨i, ha'⟩ := List.mem_iff_getElem?.mp ha
    have hpos := hi.index_eq ha'
    rw [hk, hnone] at hpos
    cases hpos
  · intro hall
    cases hk : h.index k with
    | none => rfl
    | some i =>
      obtain ⟨a, ha, hkey⟩ := Option.map_eq_some_iff.mp ((hi k i).mp hk)
      exact absurd hkey (hall a (List.mem_of_getElem? ha))

omit [DecidableEq κ] in
theorem indexed_empty : Indexed key (⟨[], fun _ => none⟩ : IndexedHeap α κ) := fun k i => by simp

omit [DecidableEq κ] in
theorem Indexed.nodup (hi : Indexed key h) : (h.heap.map key).Nodup := by
  rw [List.Nodup, List.pairwise_map, List.pairwise_iff_getElem]
  intro i j hi' hj' hlt hkey
  have heq := hi.position_unique (List.getElem?_eq_getElem hi') (List.getElem?_eq_getElem hj') hkey
  exact absurd heq (Nat.ne_of_lt hlt)

/-- The same entries at other positions. -/
structure Rearranged (key : α → κ) (h h' : IndexedHeap α κ) : Prop where
  indexed : Indexed key h'
  length : h'.heap.length = h.heap.length
  mem : ∀ a, a ∈ h'.heap ↔ a ∈ h.heap

omit [DecidableEq κ] in
theorem Rearranged.refl (hi : Indexed key h) : Rearranged key h h := ⟨hi, rfl, fun _ => Iff.rfl⟩

omit [DecidableEq κ] in
theorem Rearranged.trans (h₁ : Rearranged key h h') (h₂ : Rearranged key h' h'') : Rearranged key h h'' :=
  ⟨h₂.indexed, h₂.length.trans h₁.length, fun a => (h₂.mem a).trans (h₁.mem a)⟩

theorem getElem?_swap (key : α → κ) {i j : Nat} {left right : α} (hij : i ≠ j)
    (hleft : h.heap[i]? = some left) (hright : h.heap[j]? = some right) (m : Nat) :
    (h.swap key i j).heap[m]? = if m = j then some left else if m = i then some right else h.heap[m]? := by
  have hi := (List.getElem?_eq_some_iff.mp hleft).1
  have hj := (List.getElem?_eq_some_iff.mp hright).1
  simp only [swap, if_neg hij, hleft, hright, List.getElem?_set, List.length_set]
  by_cases hmj : m = j
  · subst hmj
    simp [hj]
  rw [if_neg (Ne.symm hmj), if_neg hmj]
  by_cases hmi : m = i
  · subst hmi
    simp [hi]
  · rw [if_neg (Ne.symm hmi), if_neg hmi]

theorem Indexed.swap (hi : Indexed key h) (i j : Nat) : Rearranged key h (h.swap key i j) := by
  by_cases hij : i = j
  · rw [IndexedHeap.swap, if_pos hij]
    exact .refl hi
  cases hleft : h.heap[i]? with
  | none =>
    simp only [IndexedHeap.swap, if_neg hij, hleft]
    exact .refl hi
  | some left =>
    cases hright : h.heap[j]? with
    | none =>
      simp only [IndexedHeap.swap, if_neg hij, hleft, hright]
      exact .refl hi
    | some right =>
      have hne : key left ≠ key right := fun hkey => hij (hi.position_unique hleft hright hkey)
      have hat := getElem?_swap key hij hleft hright
      have hindex : (h.swap key i j).index =
          Function.update (Function.update h.index (key right) (some i)) (key left) (some j) := by
        simp only [IndexedHeap.swap, if_neg hij, hleft, hright]
      refine ⟨fun k m => ?_, ?_, fun a => ?_⟩
      · rw [hat, hindex, Function.update_apply, Function.update_apply]
        by_cases hkl : k = key left
        · subst hkl
          rw [if_pos rfl, Option.some_inj]
          by_cases hmj : m = j
          · rw [if_pos hmj]
            exact ⟨fun _ => rfl, fun _ => hmj.symm⟩
          rw [if_neg hmj]
          by_cases hmi : m = i
          · rw [if_pos hmi]
            exact ⟨fun h => absurd h.symm hmj, fun h => absurd (Option.some.inj h).symm hne⟩
          · rw [if_neg hmi, ← hi, hi.index_eq hleft]
            exact ⟨fun h => absurd h.symm hmj, fun h => absurd (Option.some.inj h).symm hmi⟩
        · rw [if_neg hkl]
          by_cases hkr : k = key right
          · subst hkr
            rw [if_pos rfl, Option.some_inj]
            by_cases hmj : m = j
            · rw [if_pos hmj]
              exact ⟨fun h => absurd (h.trans hmj) hij, fun h => absurd (Option.some.inj h) hne⟩
            rw [if_neg hmj]
            by_cases hmi : m = i
            · rw [if_pos hmi]
              exact ⟨fun _ => rfl, fun _ => hmi.symm⟩
            · rw [if_neg hmi, ← hi, hi.index_eq hright]
              exact ⟨fun h => absurd h.symm hmi, fun h => absurd (Option.some.inj h).symm hmj⟩
          · rw [if_neg hkr]
            by_cases hmj : m = j
            · rw [if_pos hmj, hi, hmj, hright]
              exact ⟨fun h => absurd (Option.some.inj h).symm hkr, fun h => absurd (Option.some.inj h).symm hkl⟩
            rw [if_neg hmj]
            by_cases hmi : m = i
            · rw [if_pos hmi, hi, hmi, hleft]
              exact ⟨fun h => absurd (Option.some.inj h).symm hkl,
                fun h => absurd (Option.some.inj h).symm hkr⟩
            · rw [if_neg hmi]
              exact hi k m
      · simp only [IndexedHeap.swap, if_neg hij, hleft, hright, List.length_set]
      · rw [List.mem_iff_getElem?, List.mem_iff_getElem?]
        constructor
        · rintro ⟨m, hm⟩
          rw [hat] at hm
          by_cases hmj : m = j
          · exact ⟨i, by rw [hleft, ← hm, if_pos hmj]⟩
          rw [if_neg hmj] at hm
          by_cases hmi : m = i
          · exact ⟨j, by rw [hright, ← hm, if_pos hmi]⟩
          · exact ⟨m, by rw [← hm, if_neg hmi]⟩
        · rintro ⟨m, hm⟩
          by_cases hmi : m = i
          · exact ⟨j, by rw [hat, if_pos rfl, ← hm, hmi, hleft]⟩
          · by_cases hmj : m = j
            · exact ⟨i, by rw [hat, if_neg hij, if_pos rfl, ← hm, hmj, hright]⟩
            · exact ⟨m, by rw [hat, if_neg hmj, if_neg hmi, hm]⟩

theorem Indexed.bubbleUp (weaker : α → α → Bool) (n : Nat) {h : IndexedHeap α κ} (hi : Indexed key h)
    (i : Nat) : Rearranged key h (bubbleUp key weaker n h i).1 := by
  induction n generalizing h i with
  | zero => exact .refl hi
  | succ n ih =>
    unfold IndexedHeap.bubbleUp
    split
    · exact .refl hi
    split
    · have hswap := hi.swap i ((i - 1) / 2)
      exact hswap.trans (ih hswap.indexed _)
    · exact .refl hi

theorem Indexed.bubbleDown (weaker : α → α → Bool) (n : Nat) {h : IndexedHeap α κ} (hi : Indexed key h)
    (i : Nat) : Rearranged key h (bubbleDown key weaker n h i) := by
  induction n generalizing h i with
  | zero => exact .refl hi
  | succ n ih =>
    unfold IndexedHeap.bubbleDown
    split
    · exact .refl hi
    · have hswap := hi.swap i (h.weakestAt weaker i)
      exact hswap.trans (ih hswap.indexed _)

theorem Indexed.settle (weaker : α → α → Bool) (hi : Indexed key h) (i : Nat) :
    Rearranged key h (h.settle key weaker i) := by
  have hup := hi.bubbleUp weaker i i
  exact hup.trans (hup.indexed.bubbleDown weaker _ _)

/-! ## 3. What the operations do -/

theorem Indexed.update (weaker : α → α → Bool) (hi : Indexed key h) (k : κ) :
    Rearranged key h (h.update key weaker k) := by
  unfold IndexedHeap.update
  cases h.index k with
  | none => exact .refl hi
  | some i => exact hi.settle weaker i

theorem Indexed.add (weaker : α → α → Bool) (hi : Indexed key h) {a : α} (hnew : h.index (key a) = none) :
    Indexed key (h.add key weaker a) ∧ (h.add key weaker a).heap.length = h.heap.length + 1 ∧
      ∀ b, b ∈ (h.add key weaker a).heap ↔ b ∈ h.heap ∨ b = a := by
  have happended : Indexed key
      (⟨h.heap ++ [a], Function.update h.index (key a) (some h.heap.length)⟩ : IndexedHeap α κ) := by
    intro k i
    simp only [Function.update_apply]
    rcases Nat.lt_trichotomy i h.heap.length with hlt | heq | hgt
    · rw [List.getElem?_append_left hlt]
      by_cases hk : k = key a
      · rw [if_pos hk, ← hi, hk, hnew, Option.some_inj]
        exact ⟨fun h => absurd h (Nat.ne_of_gt hlt), fun h => by cases h⟩
      · rw [if_neg hk]
        exact hi k i
    · subst heq
      rw [List.getElem?_concat_length]
      by_cases hk : k = key a
      · rw [if_pos hk, hk]
        exact ⟨fun _ => rfl, fun _ => rfl⟩
      · rw [if_neg hk, hi, List.getElem?_eq_none (Nat.le_refl _)]
        exact ⟨fun h => (by cases h), fun h => absurd (Option.some.inj h).symm hk⟩
    · have hnone : (h.heap ++ [a])[i]? = none := by
        rw [List.getElem?_eq_none_iff, List.length_append, List.length_singleton]
        exact hgt
      rw [hnone]
      by_cases hk : k = key a
      · rw [if_pos hk, Option.some_inj]
        exact ⟨fun h => absurd h (Nat.ne_of_lt hgt), fun h => by cases h⟩
      · rw [if_neg hk, hi, List.getElem?_eq_none (Nat.le_of_lt hgt)]
  have hup := happended.bubbleUp weaker h.heap.length h.heap.length
  refine ⟨hup.indexed, ?_, fun b => ?_⟩
  · exact hup.length.trans (by rw [List.length_append, List.length_singleton])
  · rw [IndexedHeap.add, hup.mem b, List.mem_append, List.mem_singleton]

theorem Indexed.pop {l : List α} {a : α} {index : κ → Option Nat}
    (hi : Indexed key (⟨l ++ [a], index⟩ : IndexedHeap α κ)) :
    Indexed key (⟨l, Function.update index (key a) none⟩ : IndexedHeap α κ) ∧ a ∉ l := by
  have hlast : (l ++ [a])[l.length]? = some a := List.getElem?_concat_length
  have hgone : ∀ m, m < l.length → (l[m]?).map key ≠ some (key a) := by
    intro m hm hkey
    have happended : (l ++ [a])[m]? = l[m]? := List.getElem?_append_left hm
    rw [← happended] at hkey
    have hpos := ((hi (key a) m).mpr hkey).symm.trans (hi.index_eq hlast)
    exact absurd (Option.some.inj hpos) (Nat.ne_of_lt hm)
  refine ⟨fun k m => ?_, fun hmem => ?_⟩
  · simp only [Function.update_apply]
    by_cases hk : k = key a
    · rw [if_pos hk, hk]
      refine ⟨fun h => (by cases h), fun hkey => ?_⟩
      rcases Nat.lt_or_ge m l.length with hm | hm
      · exact absurd hkey (hgone m hm)
      · rw [List.getElem?_eq_none hm] at hkey
        cases hkey
    · rw [if_neg hk]
      refine (hi k m).trans ?_
      rcases Nat.lt_trichotomy m l.length with hm | hm | hm
      · simp only [List.getElem?_append_left hm]
      · simp only [hm, hlast, List.getElem?_eq_none (Nat.le_refl l.length)]
        exact ⟨fun h => absurd (Option.some.inj h).symm hk, fun h => (by cases h)⟩
      have hnone : (l ++ [a])[m]? = none := by
        rw [List.getElem?_eq_none_iff, List.length_append, List.length_singleton]
        exact hm
      simp only [hnone, List.getElem?_eq_none (Nat.le_of_lt hm)]
  · obtain ⟨m, hm⟩ := List.mem_iff_getElem?.mp hmem
    exact hgone m (List.getElem?_eq_some_iff.mp hm).1 (by rw [hm]; rfl)

theorem Indexed.remove (weaker : α → α → Bool) (hi : Indexed key h) {a : α} (ha : a ∈ h.heap) :
    Indexed key (h.remove key weaker (key a)) ∧
      (h.remove key weaker (key a)).heap.length + 1 = h.heap.length ∧
      ∀ b, b ∈ (h.remove key weaker (key a)).heap ↔ b ∈ h.heap ∧ b ≠ a := by
  obtain ⟨i, hat⟩ := List.mem_iff_getElem?.mp ha
  have hlt := (List.getElem?_eq_some_iff.mp hat).1
  have hswap := hi.swap i (h.heap.length - 1)
  -- the removed entry is now the last one
  have hlast : (h.swap key i (h.heap.length - 1)).heap[h.heap.length - 1]? = some a := by
    by_cases hi' : i = h.heap.length - 1
    · rw [IndexedHeap.swap, if_pos hi', ← hi']
      exact hat
    · have hright := List.getElem?_eq_getElem (show h.heap.length - 1 < h.heap.length by omega)
      rw [getElem?_swap key hi' hat hright, if_pos rfl]
  have hsplit : (h.swap key i (h.heap.length - 1)).heap =
      (h.swap key i (h.heap.length - 1)).heap.dropLast ++ [a] := by
    refine (List.dropLast_append_getLast? a ?_).symm
    rw [List.getLast?_eq_getElem?, hswap.length]
    exact hlast
  generalize hl : (h.swap key i (h.heap.length - 1)).heap.dropLast = l at hsplit
  have hindexed : Indexed key (⟨l ++ [a], (h.swap key i (h.heap.length - 1)).index⟩ : IndexedHeap α κ) := by
    rw [← hsplit]
    exact hswap.indexed
  obtain ⟨hpopped, hnot⟩ := hindexed.pop
  have hlength : l.length + 1 = h.heap.length := by
    rw [← hswap.length, hsplit, List.length_append, List.length_singleton]
  have hmem : ∀ b, b ∈ l ↔ b ∈ h.heap ∧ b ≠ a := by
    intro b
    rw [← hswap.mem b, hsplit, List.mem_append, List.mem_singleton]
    constructor
    · exact fun hb => ⟨.inl hb, fun heq => hnot (heq ▸ hb)⟩
    · rintro ⟨hb | hb, hne⟩
      · exact hb
      · exact absurd hb hne
  have hremove : h.remove key weaker (key a) =
      if i < l.length then
        (⟨l, Function.update (h.swap key i (h.heap.length - 1)).index (key a) none⟩ :
          IndexedHeap α κ).settle key weaker i
      else ⟨l, Function.update (h.swap key i (h.heap.length - 1)).index (key a) none⟩ := by
    simp only [IndexedHeap.remove, hi.index_eq hat, hl]
  rw [hremove]
  split
  · have hsettled := hpopped.settle weaker i
    exact ⟨hsettled.indexed, by rw [hsettled.length, hlength], fun b => (hsettled.mem b).trans (hmem b)⟩
  · exact ⟨hpopped, hlength, hmem⟩

theorem Indexed.removeAll (weaker : α → α → Bool) (ks : List κ) {h : IndexedHeap α κ}
    (hi : Indexed key h) (hnodup : ks.Nodup) (hks : ∀ k ∈ ks, ∃ a ∈ h.heap, key a = k) :
    Indexed key (ks.foldl (fun h k => h.remove key weaker k) h) ∧
      (ks.foldl (fun h k => h.remove key weaker k) h).heap.length + ks.length = h.heap.length ∧
      ∀ b, b ∈ (ks.foldl (fun h k => h.remove key weaker k) h).heap ↔ b ∈ h.heap ∧ key b ∉ ks := by
  induction ks generalizing h with
  | nil => exact ⟨hi, rfl, fun b => by simp⟩
  | cons k rest ih =>
    obtain ⟨a, ha, rfl⟩ := hks k List.mem_cons_self
    obtain ⟨hindexed, hlength, hmem⟩ := hi.remove weaker ha
    obtain ⟨hnot, hrest⟩ := List.nodup_cons.mp hnodup
    have hthere : ∀ k ∈ rest, ∃ b ∈ (h.remove key weaker (key a)).heap, key b = k := by
      intro k hk
      obtain ⟨b, hb, hkey⟩ := hks k (List.mem_cons_of_mem _ hk)
      exact ⟨b, (hmem b).mpr ⟨hb, fun heq => hnot (by rw [← heq, hkey]; exact hk)⟩, hkey⟩
    obtain ⟨hindexed', hlength', hmem'⟩ := ih hindexed hrest hthere
    refine ⟨hindexed', ?_, fun b => ?_⟩
    · rw [List.foldl_cons, List.length_cons, ← Nat.add_assoc, hlength', hlength]
    · rw [List.foldl_cons, hmem' b, hmem b, List.mem_cons, not_or, and_assoc]
      refine and_congr_right fun hb => and_congr_left fun _ => ?_
      exact ⟨fun hne hkey => hne (hi.eq_of_key_eq hb ha hkey), fun hne heq => hne (by rw [heq])⟩

end IndexedHeap

end Store
