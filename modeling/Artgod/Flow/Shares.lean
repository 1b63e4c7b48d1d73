/-
# Sharing a total over consecutive units

A total is shared over `count` units in whole parts, the remainder going to the first units, one each.  Then
the share of consecutive units depends on where they begin and on nothing else (`Tiles`, `sum_share`).
-/
import Mathlib.Algebra.BigOperators.Ring.List
import Mathlib.Algebra.Order.Field.Rat
import Mathlib.Algebra.Order.Field.Basic
import Mathlib.Tactic.FieldSimp
import Mathlib.Tactic.Ring
import Mathlib.Tactic.Linarith

namespace Flow

variable {α : Type} {start units : α → Nat}

/-! ## 1. Pieces that stand end to end -/

/-- The pieces stand end to end from `lo` to `hi`, and none is empty. -/
def Tiles (start units : α → Nat) : Nat → Nat → List α → Prop
  | lo, hi, [] => lo = hi
  | lo, hi, a :: rest => start a = lo ∧ 0 < units a ∧ Tiles start units (lo + units a) hi rest

namespace Tiles

variable {hi lo : Nat} {l : List α}

theorem le (h : Tiles start units lo hi l) : lo ≤ hi := by
  induction l generalizing lo with
  | nil => exact Nat.le_of_eq h
  | cons a rest ih =>
    have hrest := ih h.2.2
    omega

theorem within (h : Tiles start units lo hi l) {a : α} (ha : a ∈ l) :
    lo ≤ start a ∧ 0 < units a ∧ start a + units a ≤ hi := by
  induction l generalizing lo with
  | nil => cases ha
  | cons b rest ih =>
    obtain ⟨hstart, hpos, hrest⟩ := h
    rcases List.mem_cons.mp ha with rfl | ha
    · have hle := hrest.le
      exact ⟨hstart.ge, hpos, by omega⟩
    · have hin := ih hrest ha
      exact ⟨by omega, hin.2⟩

theorem pairwise (h : Tiles start units lo hi l) : l.Pairwise fun a b => start a + units a ≤ start b := by
  induction l generalizing lo with
  | nil => exact .nil
  | cons a rest ih =>
    obtain ⟨hstart, -, hrest⟩ := h
    refine List.pairwise_cons.mpr ⟨fun b hb => ?_, ih hrest⟩
    have hin := hrest.within hb
    omega

theorem covers (h : Tiles start units lo hi l) {u : Nat} (hlo : lo ≤ u)
    (hhi : u < hi) : ∃ a ∈ l, start a ≤ u ∧ u < start a + units a := by
  induction l generalizing lo with
  | nil =>
    have hempty : lo = hi := h
    omega
  | cons a rest ih =>
    obtain ⟨hstart, -, hrest⟩ := h
    by_cases hu : u < lo + units a
    · exact ⟨a, List.mem_cons_self, by omega, by omega⟩
    · obtain ⟨b, hb, hin⟩ := ih hrest (by omega)
      exact ⟨b, List.mem_cons_of_mem a hb, hin⟩

theorem sum_units (h : Tiles start units lo hi l) : lo + (l.map units).sum = hi := by
  induction l generalizing lo with
  | nil => exact h
  | cons a rest ih =>
    have hrest := ih h.2.2
    rw [List.map_cons, List.sum_cons]
    omega

end Tiles

/-! ## 2. The remainder goes to the first units -/

/-- How many of the first `remainder` units lie in a piece. -/
def extra (remainder start units : Nat) : Nat := min remainder (start + units) - min remainder start

theorem Tiles.sum_extra {lo hi : Nat} {l : List α} (h : Tiles start units lo hi l) (remainder : Nat) :
    min remainder lo + (l.map fun a => extra remainder (start a) (units a)).sum = min remainder hi := by
  induction l generalizing lo with
  | nil =>
    have hempty : lo = hi := h
    rw [hempty]
    rfl
  | cons a rest ih =>
    obtain ⟨hstart, -, hrest⟩ := h
    have hsum := ih hrest
    rw [List.map_cons, List.sum_cons]
    unfold extra at hsum ⊢
    omega

/-! ## 3. Shares -/

/-- What a piece gets of the total that is shared over `count` units. -/
def share (total count start units : Nat) : Nat := units * (total / count) + extra (total % count) start units

theorem Tiles.sum_share {count : Nat} {l : List α} (h : Tiles start units 0 count l) (hpos : 0 < count)
    (total : Nat) : (l.map fun a => share total count (start a) (units a)).sum = total := by
  have hunits := h.sum_units
  have hextra := h.sum_extra (total % count)
  have hlt : total % count < count := Nat.mod_lt _ hpos
  have hsplit : (l.map fun a => share total count (start a) (units a)).sum =
      (l.map units).sum * (total / count) +
        (l.map fun a => extra (total % count) (start a) (units a)).sum := by
    unfold share
    rw [List.sum_map_add, List.sum_map_mul_right]
  calc (l.map fun a => share total count (start a) (units a)).sum = (l.map units).sum * (total / count) +
          (l.map fun a => extra (total % count) (start a) (units a)).sum := hsplit
    _ = count * (total / count) + total % count := by
        rw [show (l.map units).sum = count by omega]
        omega
    _ = total := Nat.div_add_mod total count

theorem abs_share_sub_lt {total count start units : Nat} (hunits : 0 < units)
    (hle : start + units ≤ count) :
    |(share total count start units : ℚ) / units - (total : ℚ) / count| < 1 := by
  have hcount : 0 < count := by omega
  have hlt : total % count < count := Nat.mod_lt _ hcount
  have hextra : extra (total % count) start units ≤ units := by
    unfold extra
    omega
  have hfull : extra (total % count) start units = units → 0 < total % count := by
    unfold extra
    omega
  have hu : (0 : ℚ) < units := by exact_mod_cast hunits
  have hc : (0 : ℚ) < count := by exact_mod_cast hcount
  have hshare : (share total count start units : ℚ) / units =
      (total / count : Nat) + (extra (total % count) start units : ℚ) / units := by
    unfold share
    push_cast
    field_simp
  have hexact : (total : ℚ) / count = (total / count : Nat) + ((total % count : Nat) : ℚ) / count := by
    have hdiv : (total : ℚ) = count * (total / count : Nat) + (total % count : Nat) := by
      exact_mod_cast (Nat.div_add_mod total count).symm
    rw [hdiv]
    field_simp
  rw [hshare, hexact, abs_lt]
  have hr0 : 0 ≤ ((total % count : Nat) : ℚ) / count := by positivity
  have hr1 : ((total % count : Nat) : ℚ) / count < 1 := (div_lt_one hc).mpr (by exact_mod_cast hlt)
  have he0 : 0 ≤ (extra (total % count) start units : ℚ) / units := by positivity
  have he1 : (extra (total % count) start units : ℚ) / units ≤ 1 :=
    (div_le_one hu).mpr (by exact_mod_cast hextra)
  refine ⟨by linarith, ?_⟩
  -- a piece gets a whole extra only where there is a remainder
  rcases Nat.lt_or_eq_of_le hextra with hpart | hwhole
  · have he : (extra (total % count) start units : ℚ) / units < 1 :=
      (div_lt_one hu).mpr (by exact_mod_cast hpart)
    linarith
  · have hr : 0 < ((total % count : Nat) : ℚ) / count := div_pos (by exact_mod_cast hfull hwhole) hc
    linarith

end Flow
