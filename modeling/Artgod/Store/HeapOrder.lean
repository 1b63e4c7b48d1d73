/-
# The order of an indexed heap

The heap is `Ordered` when no entry is weaker than its parent.  An operation breaks this at one position at most
(`NearlyOrdered`); moving up needs the children in order, moving down the parent, and both end in an ordered
heap.
-/
import Artgod.Store.IndexedHeap
import Mathlib.Order.Defs.LinearOrder
import Mathlib.Order.Lattice

namespace Store

namespace IndexedHeap

variable {α κ β : Type} [LinearOrder β]

/-! ## 1. Order between positions -/

/-- The entry at the second position is not weaker than the one at the first. -/
def InOrder (rank : α → β) (l : List α) (i j : Nat) : Prop :=
  ∀ a b, l[i]? = some a → l[j]? = some b → rank a ≤ rank b

/-- Position `j` has `i` for its parent. -/
def ChildOf (j i : Nat) : Prop := 0 < j ∧ (j - 1) / 2 = i

variable {i j : Nat} {a : α}

theorem ChildOf.lt (h : ChildOf j i) : i < j := by
  unfold ChildOf at h
  omega

theorem ChildOf.cases (h : ChildOf j i) : j = i * 2 + 1 ∨ j = i * 2 + 1 + 1 := by
  unfold ChildOf at h
  omega

theorem childOf_left (i : Nat) : ChildOf (i * 2 + 1) i := by
  unfold ChildOf
  omega

theorem childOf_right (i : Nat) : ChildOf (i * 2 + 1 + 1) i := by
  unfold ChildOf
  omega

theorem ChildOf.unique {i' : Nat} (h : ChildOf j i) (h' : ChildOf j i') : i = i' :=
  h.2.symm.trans h'.2

/-- The children of `i` are not weaker than the parent of `i`. -/
def Bridged (rank : α → β) (l : List α) (i : Nat) : Prop :=
  ∀ g j, ChildOf i g → ChildOf j i → InOrder rank l g j

structure NearlyOrdered (rank : α → β) (l : List α) (i : Nat) : Prop where
  away : ∀ p j, ChildOf j p → j ≠ i → p ≠ i → InOrder rank l p j
  bridged : Bridged rank l i

/-- Ordered but for position `i` and its parent. -/
structure OrderedBelow (rank : α → β) (l : List α) (i : Nat) : Prop where
  away : ∀ p j, ChildOf j p → j ≠ i → InOrder rank l p j
  bridged : Bridged rank l i

/-- Ordered but for position `i` and its children. -/
structure OrderedAbove (rank : α → β) (l : List α) (i : Nat) : Prop where
  away : ∀ p j, ChildOf j p → p ≠ i → InOrder rank l p j
  bridged : Bridged rank l i

/-- No entry is weaker than its parent. -/
def Ordered (rank : α → β) (l : List α) : Prop := ∀ p j, ChildOf j p → InOrder rank l p j

/-- The entries at two positions exchanged. -/
def Exchanged (l l' : List α) (i j : Nat) : Prop :=
  ∀ m, l'[m]? = if m = j then l[i]? else if m = i then l[j]? else l[m]?

section Positions

variable {rank : α → β} {l l' : List α}

variable {i : Nat} {x y : α}

theorem exists_of_lt {j : Nat} {b : α} (hlt : i < j) (hb : l[j]? = some b) : ∃ a, l[i]? = some a := by
  have hj := (List.getElem?_eq_some_iff.mp hb).1
  exact ⟨_, List.getElem?_eq_getElem (Nat.lt_trans hlt hj)⟩

theorem InOrder.trans {m j : Nat} (h : InOrder rank l i m) (h' : InOrder rank l m j) (hlt : m < j) :
    InOrder rank l i j := by
  intro a b ha hb
  obtain ⟨c, hc⟩ := exists_of_lt hlt hb
  exact le_trans (h a c ha hc) (h' c b hc hb)

theorem Ordered.bridged (h : Ordered rank l) (i : Nat) : Bridged rank l i :=
  fun g j hg hj => (h g i hg).trans (h i j hj) hj.lt

theorem Ordered.above (h : Ordered rank l) (i : Nat) : OrderedAbove rank l i :=
  ⟨fun p j hj _ => h p j hj, h.bridged i⟩

theorem Ordered.root_le (h : Ordered rank l) (j : Nat) : InOrder rank l 0 j := by
  induction j using Nat.strongRecOn with
  | _ j ih =>
    rcases Nat.eq_zero_or_pos j with rfl | hj
    · intro a b ha hb
      rw [ha] at hb
      exact le_of_eq (congrArg rank (Option.some.inj hb))
    · have hchild : ChildOf j ((j - 1) / 2) := ⟨hj, rfl⟩
      exact (ih _ hchild.lt).trans (h _ j hchild) hchild.lt

theorem NearlyOrdered.below {p : Nat} (h : NearlyOrdered rank l i) (hp : ChildOf i p)
    (hx : l[i]? = some x) (hy : l[p]? = some y) (hlt : rank x < rank y) : OrderedBelow rank l i := by
  refine ⟨fun p' j hj hji => ?_, h.bridged⟩
  by_cases hpi : p' = i
  · subst hpi
    intro a b ha hb
    rw [hx] at ha
    cases ha
    exact le_trans (le_of_lt hlt) (h.bridged p j hp hj y b hy hb)
  · exact h.away p' j hj hji hpi

theorem NearlyOrdered.above (h : NearlyOrdered rank l i)
    (hp : ∀ p, ChildOf i p → InOrder rank l p i) : OrderedAbove rank l i := by
  refine ⟨fun p j hj hpi => ?_, h.bridged⟩
  by_cases hji : j = i
  · exact hji ▸ hp p (hji ▸ hj)
  · exact h.away p j hj hji hpi

theorem OrderedBelow.ordered (h : OrderedBelow rank l i)
    (hp : ∀ p, ChildOf i p → InOrder rank l p i) : Ordered rank l := by
  intro p j hj
  by_cases hji : j = i
  · exact hji ▸ hp p (hji ▸ hj)
  · exact h.away p j hj hji

theorem OrderedAbove.ordered (h : OrderedAbove rank l i)
    (hc : ∀ j, ChildOf j i → InOrder rank l i j) : Ordered rank l := by
  intro p j hj
  by_cases hpi : p = i
  · exact hpi ▸ hc j (hpi ▸ hj)
  · exact h.away p j hj hpi

theorem OrderedBelow.up {p : Nat} (h : OrderedBelow rank l i) (hp : ChildOf i p)
    (hx : l[i]? = some x) (hy : l[p]? = some y) (hlt : rank x < rank y) (hl : Exchanged l l' i p) :
    OrderedBelow rank l' p := by
  have hpi := hp.lt
  have hatp : l'[p]? = some x := by rw [hl, if_pos rfl, hx]
  have hati : l'[i]? = some y := by rw [hl, if_neg (by omega), if_pos rfl, hy]
  have hrest : ∀ m, m ≠ p → m ≠ i → l'[m]? = l[m]? := fun m hmp hmi => by rw [hl, if_neg hmp, if_neg hmi]
  -- what is below the old parent is not weaker than it, but for the entry that goes up
  have hsibling : ∀ j, ChildOf j p → j ≠ i → ∀ b, l[j]? = some b → rank y ≤ rank b :=
    fun j hj hji b hb => h.away p j hj hji y b hy hb
  constructor
  · intro q j hj hjp a b ha hb
    by_cases hji : j = i
    · subst hji
      have hq := hj.unique hp
      subst hq
      rw [hatp] at ha
      rw [hati] at hb
      cases ha
      cases hb
      exact le_of_lt hlt
    · rw [hrest j hjp hji] at hb
      by_cases hqi : q = i
      · subst hqi
        rw [hati] at ha
        cases ha
        exact h.bridged p j hp hj y b hy hb
      · by_cases hqp : q = p
        · subst hqp
          rw [hatp] at ha
          cases ha
          exact le_trans (le_of_lt hlt) (hsibling j hj hji b hb)
        · rw [hrest q hqp hqi] at ha
          exact h.away q j hj hji a b ha hb
  · intro g j hg hj a b ha hb
    have hgp := hg.lt
    rw [hrest g (by omega) (by omega)] at ha
    have hle := h.away g p hg (by omega) a y ha hy
    by_cases hji : j = i
    · subst hji
      rw [hati] at hb
      cases hb
      exact hle
    · have hjp := hj.lt
      rw [hrest j (by omega) hji] at hb
      exact le_trans hle (hsibling j hj hji b hb)

theorem OrderedAbove.down {w : Nat} (h : OrderedAbove rank l i) (hw : ChildOf w i)
    (hx : l[i]? = some x) (hy : l[w]? = some y) (hlt : rank y < rank x)
    (hweakest : ∀ j, ChildOf j i → InOrder rank l w j) (hl : Exchanged l l' i w) :
    OrderedAbove rank l' w := by
  have hiw := hw.lt
  have hatw : l'[w]? = some x := by rw [hl, if_pos rfl, hx]
  have hati : l'[i]? = some y := by rw [hl, if_neg (by omega), if_pos rfl, hy]
  have hrest : ∀ m, m ≠ w → m ≠ i → l'[m]? = l[m]? := fun m hmw hmi => by rw [hl, if_neg hmw, if_neg hmi]
  constructor
  · intro q j hj hqw a b ha hb
    by_cases hjw : j = w
    · subst hjw
      have hq := hj.unique hw
      subst hq
      rw [hati] at ha
      rw [hatw] at hb
      cases ha
      cases hb
      exact le_of_lt hlt
    · by_cases hqi : q = i
      · subst hqi
        have hqj := hj.lt
        rw [hati] at ha
        rw [hrest j hjw (by omega)] at hb
        cases ha
        exact hweakest j hj y b hy hb
      · rw [hrest q hqw hqi] at ha
        by_cases hji : j = i
        · subst hji
          rw [hati] at hb
          cases hb
          exact h.bridged q w hj hw a y ha hy
        · rw [hrest j hjw hji] at hb
          exact h.away q j hj hqi a b ha hb
  · intro g j hg hj a b ha hb
    have hgi := hg.unique hw
    subst hgi
    have hwj := hj.lt
    rw [hati] at ha
    rw [hrest j (by omega) (by omega)] at hb
    cases ha
    exact h.away w j hj (by omega) y b hy hb

end Positions

/-! ## 2. The operations keep the order -/

/-- Weaker means of smaller rank. -/
def weakerBy (rank : α → β) (a b : α) : Bool := rank a < rank b

variable [DecidableEq κ] {rank : α → β} {key : α → κ} {h : IndexedHeap α κ}

omit [DecidableEq κ] in
theorem weakerAt_true (hw : h.weakerAt (weakerBy rank) i j = true) :
    ∃ a b, h.heap[i]? = some a ∧ h.heap[j]? = some b ∧ rank a < rank b := by
  unfold weakerAt at hw
  split at hw
  · next a b ha hb => exact ⟨a, b, ha, hb, of_decide_eq_true hw⟩
  · cases hw

omit [DecidableEq κ] in
theorem weakerAt_false (hw : ¬ h.weakerAt (weakerBy rank) i j = true) : InOrder rank h.heap j i := by
  intro a b ha hb
  unfold weakerAt at hw
  rw [hb, ha] at hw
  exact le_of_not_gt fun hlt => hw (decide_eq_true hlt)

theorem exchanged_swap (hij : i ≠ j) {b : α} (ha : h.heap[i]? = some a)
    (hb : h.heap[j]? = some b) : Exchanged h.heap (h.swap key i j).heap i j := by
  intro m
  rw [getElem?_swap key hij ha hb m, ha, hb]

theorem length_swap (i j : Nat) : (h.swap key i j).heap.length = h.heap.length := by
  unfold swap
  split
  · rfl
  · split
    · rw [List.length_set, List.length_set]
    · rfl

theorem OrderedBelow.bubbleUp (n : Nat) {h : IndexedHeap α κ} (hn : i ≤ n)
    (ho : OrderedBelow rank h.heap i) : Ordered rank (bubbleUp key (weakerBy rank) n h i).1.heap := by
  induction n generalizing h i with
  | zero =>
    have hi : i = 0 := Nat.le_zero.mp hn
    subst hi
    exact ho.ordered fun p hp => absurd hp.1 (Nat.lt_irrefl 0)
  | succ n ih =>
    unfold IndexedHeap.bubbleUp
    split
    · next hi =>
      subst hi
      exact ho.ordered fun p hp => absurd hp.1 (Nat.lt_irrefl 0)
    next hi =>
    have hchild : ChildOf i ((i - 1) / 2) := ⟨Nat.pos_of_ne_zero hi, rfl⟩
    have hlt := hchild.lt
    split
    · next hw =>
      obtain ⟨x, y, hx, hy, hxy⟩ := weakerAt_true hw
      exact ih (by omega) (ho.up hchild hx hy hxy (exchanged_swap (by omega) hx hy))
    next hw =>
    refine ho.ordered fun p hp => ?_
    rw [hp.unique hchild]
    exact weakerAt_false hw

omit [DecidableEq κ] in
theorem weakestAt_self (hw : h.weakestAt (weakerBy rank) i = i) :
    ∀ j, ChildOf j i → InOrder rank h.heap i j := by
  have hout : ∀ j, ¬ j < h.heap.length → InOrder rank h.heap i j := by
    intro j hj a b _ hb
    exact absurd (List.getElem?_eq_some_iff.mp hb).1 hj
  intro j hj
  unfold weakestAt at hw
  dsimp only at hw
  have hleft : ¬ (i * 2 + 1 < h.heap.length ∧ h.weakerAt (weakerBy rank) (i * 2 + 1) i = true) := by
    intro hleft
    rw [if_pos hleft] at hw
    split at hw <;> omega
  rw [if_neg hleft] at hw
  have hright : ¬ (i * 2 + 1 + 1 < h.heap.length ∧
      h.weakerAt (weakerBy rank) (i * 2 + 1 + 1) i = true) := by
    intro hright
    rw [if_pos hright] at hw
    omega
  rcases hj.cases with rfl | rfl
  · by_cases hlen : i * 2 + 1 < h.heap.length
    · exact weakerAt_false fun hw => hleft ⟨hlen, hw⟩
    · exact hout _ hlen
  · by_cases hlen : i * 2 + 1 + 1 < h.heap.length
    · exact weakerAt_false fun hw => hright ⟨hlen, hw⟩
    · exact hout _ hlen

omit [DecidableEq κ] in
theorem weakestAt_child (hw : h.weakestAt (weakerBy rank) i ≠ i) :
    ChildOf (h.weakestAt (weakerBy rank) i) i ∧
      (∃ x y, h.heap[i]? = some x ∧ h.heap[h.weakestAt (weakerBy rank) i]? = some y ∧ rank y < rank x) ∧
      ∀ j, ChildOf j i → InOrder rank h.heap (h.weakestAt (weakerBy rank) i) j := by
  have hself : ∀ j, InOrder rank h.heap j j := by
    intro j a b ha hb
    rw [ha] at hb
    exact le_of_eq (congrArg rank (Option.some.inj hb))
  unfold weakestAt at hw ⊢
  dsimp only at hw ⊢
  by_cases hleft : i * 2 + 1 < h.heap.length ∧ h.weakerAt (weakerBy rank) (i * 2 + 1) i = true
  · rw [if_pos hleft] at hw ⊢
    obtain ⟨l, x, hl, hx, hlx⟩ := weakerAt_true hleft.2
    by_cases hright : i * 2 + 1 + 1 < h.heap.length ∧
        h.weakerAt (weakerBy rank) (i * 2 + 1 + 1) (i * 2 + 1) = true
    · rw [if_pos hright]
      obtain ⟨r, l', hr, hl', hrl⟩ := weakerAt_true hright.2
      rw [hl] at hl'
      cases hl'
      refine ⟨childOf_right i, ⟨x, r, hx, hr, lt_trans hrl hlx⟩, fun j hj => ?_⟩
      rcases hj.cases with rfl | rfl
      · intro a b ha hb
        rw [hr] at ha
        rw [hl] at hb
        cases ha
        cases hb
        exact le_of_lt hrl
      · exact hself _
    · rw [if_neg hright]
      refine ⟨childOf_left i, ⟨x, l, hx, hl, hlx⟩, fun j hj => ?_⟩
      rcases hj.cases with rfl | rfl
      · exact hself _
      · intro a b ha hb
        have hlen := (List.getElem?_eq_some_iff.mp hb).1
        exact weakerAt_false (fun hw' => hright ⟨hlen, hw'⟩) a b ha hb
  · rw [if_neg hleft] at hw ⊢
    by_cases hright : i * 2 + 1 + 1 < h.heap.length ∧ h.weakerAt (weakerBy rank) (i * 2 + 1 + 1) i = true
    · rw [if_pos hright]
      obtain ⟨r, x, hr, hx, hrx⟩ := weakerAt_true hright.2
      refine ⟨childOf_right i, ⟨x, r, hx, hr, hrx⟩, fun j hj => ?_⟩
      rcases hj.cases with rfl | rfl
      · intro a b ha hb
        have hlen := (List.getElem?_eq_some_iff.mp hb).1
        rw [hr] at ha
        cases ha
        exact le_trans (le_of_lt hrx) (weakerAt_false (fun hw' => hleft ⟨hlen, hw'⟩) x b hx hb)
      · exact hself _
    · rw [if_neg hright] at hw
      exact absurd rfl hw

theorem OrderedAbove.bubbleDown (n : Nat) {h : IndexedHeap α κ} (hn : h.heap.length ≤ n + i)
    (ho : OrderedAbove rank h.heap i) : Ordered rank (bubbleDown key (weakerBy rank) n h i).heap := by
  induction n generalizing h i with
  | zero =>
    refine ho.ordered fun j hj a b _ hb => ?_
    have hlen := (List.getElem?_eq_some_iff.mp hb).1
    have hlt := hj.lt
    omega
  | succ n ih =>
    unfold IndexedHeap.bubbleDown
    split
    · next hw => exact ho.ordered (weakestAt_self hw)
    next hw =>
    obtain ⟨hchild, ⟨x, y, hx, hy, hyx⟩, hweakest⟩ := weakestAt_child hw
    have hlt := hchild.lt
    refine ih ?_ (ho.down hchild hx hy hyx hweakest (exchanged_swap (by omega) hx hy))
    rw [length_swap]
    omega

theorem NearlyOrdered.settle (hi : Indexed key h) (ho : NearlyOrdered rank h.heap i) :
    Ordered rank (h.settle key (weakerBy rank) i).heap := by
  have hlength := (hi.bubbleUp (weakerBy rank) i i).length
  unfold IndexedHeap.settle
  dsimp only
  cases i with
  | zero =>
    refine OrderedAbove.bubbleDown _ (by omega) ?_
    exact ho.above fun p hp => absurd hp.1 (Nat.lt_irrefl 0)
  | succ i =>
    have hchild : ChildOf (i + 1) ((i + 1 - 1) / 2) := ⟨Nat.succ_pos i, rfl⟩
    by_cases hw : h.weakerAt (weakerBy rank) (i + 1) ((i + 1 - 1) / 2) = true
    · obtain ⟨x, y, hx, hy, hxy⟩ := weakerAt_true hw
      have hup : Ordered rank (IndexedHeap.bubbleUp key (weakerBy rank) (i + 1) h (i + 1)).1.heap :=
        OrderedBelow.bubbleUp (i + 1) (Nat.le_refl _) (ho.below hchild hx hy hxy)
      exact OrderedAbove.bubbleDown _ (by omega) (hup.above _)
    · have hstay : IndexedHeap.bubbleUp key (weakerBy rank) (i + 1) h (i + 1) = (h, i + 1) := by
        rw [IndexedHeap.bubbleUp, if_neg (Nat.succ_ne_zero i), if_neg hw]
      rw [hstay]
      refine OrderedAbove.bubbleDown _ (by omega) (ho.above fun p hp => ?_)
      rw [hp.unique hchild]
      exact weakerAt_false hw

theorem Ordered.add (ho : Ordered rank h.heap) (a : α) :
    Ordered rank (h.add key (weakerBy rank) a).heap := by
  unfold IndexedHeap.add
  dsimp only
  refine OrderedBelow.bubbleUp _ (Nat.le_refl _) ⟨fun p j hj hlast x y hx hy => ?_, ?_⟩
  · have hj' := (List.getElem?_eq_some_iff.mp hy).1
    rw [List.length_append, List.length_singleton] at hj'
    have hlt := hj.lt
    rw [List.getElem?_append_left (by omega)] at hx hy
    exact ho p j hj x y hx hy
  · intro g j _ hj x y _ hy
    have hj' := (List.getElem?_eq_some_iff.mp hy).1
    rw [List.length_append, List.length_singleton] at hj'
    have hlt := hj.lt
    omega

/-- **An entry whose rank has changed is put in order.**  `rank'` are the ranks before. -/
theorem Ordered.update {rank' : α → β} {k : κ} (hi : Indexed key h) (ho : Ordered rank' h.heap)
    (hsame : ∀ a ∈ h.heap, key a ≠ k → rank a = rank' a) :
    Ordered rank (h.update key (weakerBy rank) k).heap := by
  unfold IndexedHeap.update
  split
  · next hnone =>
    intro p j hj a b ha hb
    have hne := hi.index_none.mp hnone
    rw [hsame a (List.mem_of_getElem? ha) (hne a (List.mem_of_getElem? ha)),
      hsame b (List.mem_of_getElem? hb) (hne b (List.mem_of_getElem? hb))]
    exact ho p j hj a b ha hb
  · next i hindex =>
    -- away from its position the ranks are those before
    have haway : ∀ m a, m ≠ i → h.heap[m]? = some a → rank a = rank' a := by
      intro m a hm ha
      refine hsame a (List.mem_of_getElem? ha) fun hk => hm ?_
      have hindex' := hi.index_eq ha
      rw [hk, hindex] at hindex'
      exact (Option.some.inj hindex').symm
    refine NearlyOrdered.settle hi ⟨fun p j hj hji hpi a b ha hb => ?_, fun g j hg hj a b ha hb => ?_⟩
    · rw [haway p a hpi ha, haway j b hji hb]
      exact ho p j hj a b ha hb
    have hgi := hg.lt
    have hij := hj.lt
    rw [haway g a (by omega) ha, haway j b (by omega) hb]
    exact ho.bridged i g j hg hj a b ha hb

theorem Ordered.remove (hi : Indexed key h) (ho : Ordered rank h.heap) (ha : a ∈ h.heap) :
    Ordered rank (h.remove key (weakerBy rank) (key a)).heap := by
  obtain ⟨i, hat⟩ := List.mem_iff_getElem?.mp ha
  have hlt := (List.getElem?_eq_some_iff.mp hat).1
  have hswap := hi.swap i (h.heap.length - 1)
  have hlast := List.getElem?_eq_getElem (show h.heap.length - 1 < h.heap.length by omega)
  unfold IndexedHeap.remove
  rw [hi.index_eq hat]
  dsimp only
  -- away from the hole every entry is where it was
  have hkeep : ∀ m b, m ≠ i → (h.swap key i (h.heap.length - 1)).heap.dropLast[m]? = some b →
      h.heap[m]? = some b := by
    intro m b hm hb
    have hlen := (List.getElem?_eq_some_iff.mp hb).1
    rw [List.length_dropLast, hswap.length] at hlen
    rw [List.getElem?_dropLast, if_pos (by rw [hswap.length]; exact hlen)] at hb
    by_cases hil : i = h.heap.length - 1
    · rw [IndexedHeap.swap, if_pos hil] at hb
      exact hb
    · rw [getElem?_swap key hil hat hlast, if_neg (by omega), if_neg hm] at hb
      exact hb
  split
  · next hinside =>
    have hlength : i < h.heap.length - 1 := by
      rw [List.length_dropLast, hswap.length] at hinside
      exact hinside
    refine NearlyOrdered.settle ?_ ⟨fun p j hj hji hpi x y hx hy => ?_, fun g j hg hj x y hx hy => ?_⟩
    · have hsplit : (h.swap key i (h.heap.length - 1)).heap =
          (h.swap key i (h.heap.length - 1)).heap.dropLast ++ [a] := by
        refine (List.dropLast_append_getLast? a ?_).symm
        rw [List.getLast?_eq_getElem?, hswap.length, getElem?_swap key (by omega) hat hlast, if_pos rfl]
        exact rfl
      have hindexed : Indexed key (⟨(h.swap key i (h.heap.length - 1)).heap.dropLast ++ [a],
          (h.swap key i (h.heap.length - 1)).index⟩ : IndexedHeap α κ) := by
        rw [← hsplit]
        exact hswap.indexed
      exact hindexed.pop.1
    · exact ho p j hj x y (hkeep p x hpi hx) (hkeep j y hji hy)
    · have hgi := hg.lt
      have hij := hj.lt
      exact ho.bridged i g j hg hj x y (hkeep g x (by omega) hx) (hkeep j y (by omega) hy)
  · next houtside =>
    rw [List.length_dropLast, hswap.length] at houtside
    intro p j hj x y hx hy
    have hpj := hj.lt
    have hlen := (List.getElem?_eq_some_iff.mp hy).1
    rw [List.length_dropLast, hswap.length] at hlen
    exact ho p j hj x y (hkeep p x (by omega) hx) (hkeep j y (by omega) hy)

theorem Ordered.congr {rank' : α → β} {l : List α} (ho : Ordered rank' l)
    (hsame : ∀ a ∈ l, rank a = rank' a) : Ordered rank l := by
  intro p j hj a b ha hb
  rw [hsame a (List.mem_of_getElem? ha), hsame b (List.mem_of_getElem? hb)]
  exact ho p j hj a b ha hb

theorem ordered_nil : Ordered rank ([] : List α) := fun p j _ a b ha => by simp at ha

omit [DecidableEq κ] in
theorem Ordered.peek_le (ho : Ordered rank h.heap) {b : α} (ha : h.peek = some a) (hb : b ∈ h.heap) :
    rank a ≤ rank b := by
  obtain ⟨j, hj⟩ := List.mem_iff_getElem?.mp hb
  rw [peek, List.head?_eq_getElem?] at ha
  exact ho.root_le j a b ha hj

end IndexedHeap

end Store
