/-
# Credits of a smooth rotation

Members earn their weights in every round, and the member with the greatest credit is chosen and pays the weights
of all.  The credits keep their sum and stay above minus a bound of the weights, so that no member waits for ever;
with constant whole weights of sum `W` every member is chosen as often as its weight says in `W` rounds.
-/
import Mathlib.Algebra.BigOperators.Group.Finset.Piecewise
import Mathlib.Algebra.Order.BigOperators.Group.Finset
import Mathlib.Algebra.Order.Field.Basic
import Mathlib.Tactic.Linarith
import Mathlib.Tactic.Ring

namespace Flow

open Finset

variable {ι K : Type} [Field K] [LinearOrder K] [IsStrictOrderedRing K]
  {members : Finset ι} {credit weight credit' : ι → K} {chosen i : ι} {bound : K}

/-! ## 1. Credits -/

theorem credit_le (hsum : ∑ i ∈ members, credit i = 0) (habove : ∀ i ∈ members, -bound < credit i)
    (hi : i ∈ members) : credit i ≤ members.card * bound - bound := by
  have hterm : ∀ j ∈ members, 0 ≤ credit j + bound := fun j hj => by
    have := habove j hj
    linarith
  have hsingle := single_le_sum hterm hi
  rw [sum_add_distrib, hsum, sum_const, nsmul_eq_mul, zero_add] at hsingle
  linarith

/-- Credits after rounds in which member `i` was chosen `count i` times of `rounds`. -/
def Accounted (members : Finset ι) (weight : ι → Nat) (rounds : Nat) (count : ι → Nat) (credit : ι → K) :
    Prop :=
  ∀ i ∈ members, credit i = rounds * weight i - (∑ j ∈ members, weight j : Nat) * count i

/-- **Exact shares.**  After as many rounds as the weights add up to, everyone was chosen as often as its weight
says, and the credits are gone. -/
theorem Accounted.exact {weight count : ι → Nat} (h : Accounted members weight (∑ j ∈ members, weight j) count credit)
    (hcount : ∑ i ∈ members, count i = ∑ j ∈ members, weight j)
    (habove : ∀ i ∈ members, -((∑ j ∈ members, weight j : Nat) : K) < credit i) (hi : i ∈ members) :
    count i = weight i ∧ credit i = 0 := by
  have hle : ∀ j ∈ members, count j ≤ weight j := by
    intro j hj
    have hlt := habove j hj
    rw [h j hj] at hlt
    by_contra hmore
    have hone : (weight j : K) + 1 ≤ count j := by exact_mod_cast Nat.lt_of_not_le hmore
    have hscaled := mul_le_mul_of_nonneg_left hone (@Nat.cast_nonneg K _ _ _ (∑ j ∈ members, weight j))
    linarith
  have heq := (sum_eq_sum_iff_of_le hle).mp hcount i hi
  exact ⟨heq, by rw [h i hi, heq]; ring⟩

/-! ## 2. One round -/

variable [DecidableEq ι]

/-- One round. -/
structure Pays (members : Finset ι) (credit weight : ι → K) (chosen : ι) (credit' : ι → K) : Prop where
  mem : chosen ∈ members
  greatest : ∀ i ∈ members, credit i + weight i ≤ credit chosen + weight chosen
  paid : ∀ i ∈ members, credit' i = credit i + weight i - if i = chosen then ∑ j ∈ members, weight j else 0

omit [IsStrictOrderedRing K] in
theorem Pays.sum_eq (h : Pays members credit weight chosen credit') :
    ∑ i ∈ members, credit' i = ∑ i ∈ members, credit i := by
  rw [sum_congr rfl h.paid, sum_sub_distrib, sum_add_distrib,
    sum_ite_eq' members chosen fun _ => ∑ j ∈ members, weight j, if_pos h.mem]
  ring

theorem Pays.above (h : Pays members credit weight chosen credit') (hpos : ∀ i ∈ members, 0 < weight i)
    (hbound : ∑ i ∈ members, weight i ≤ bound) (hsum : ∑ i ∈ members, credit i = 0)
    (habove : ∀ i ∈ members, -bound < credit i) : ∀ i ∈ members, -bound < credit' i := by
  intro i hi
  have hpaid := h.paid i hi
  split at hpaid
  · rename_i heq
    subst heq
    -- the greatest of credits with a positive sum is positive
    have hgreatest : 0 < credit i + weight i := by
      by_contra hle
      have hall : ∑ j ∈ members, (credit j + weight j) ≤ 0 :=
        sum_nonpos fun j hj => (h.greatest j hj).trans (not_lt.mp hle)
      rw [sum_add_distrib, hsum, zero_add] at hall
      exact absurd (sum_pos hpos ⟨i, hi⟩) (not_lt.mpr hall)
    linarith
  · have := habove i hi
    have := hpos i hi
    linarith

end Flow
