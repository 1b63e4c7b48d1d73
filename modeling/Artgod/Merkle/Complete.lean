/-
# Complete Merkle trees and positional proofs

A complete binary tree of a height, whose inner nodes are combined in order.  A proof of a leaf lists the
siblings on its path from the leaf upwards; `climb` folds it, and the bits of the leaf's index say on which
side each sibling stands.  Bits of the index above the height are not looked at.
-/
import Mathlib.Data.Nat.Bitwise

namespace Merkle

variable {α : Type}

inductive CompleteTree (α : Type) : Nat → Type where
  | leaf (value : α) : CompleteTree α 0
  | node {n : Nat} (left right : CompleteTree α n) : CompleteTree α (n + 1)

namespace CompleteTree

/-- The leaves from left to right. -/
def leaves : {n : Nat} → CompleteTree α n → List α
  | _, leaf value => [value]
  | _, node left right => left.leaves ++ right.leaves

def root (combine : α → α → α) : {n : Nat} → CompleteTree α n → α
  | _, leaf value => value
  | _, node left right => combine (left.root combine) (right.root combine)

/-- The siblings on the path to a leaf, from the leaf upwards. -/
def siblings (combine : α → α → α) : {n : Nat} → CompleteTree α n → Nat → List α
  | _, leaf _, _ => []
  | n + 1, node left right, index =>
    if index.testBit n then right.siblings combine index ++ [left.root combine]
    else left.siblings combine index ++ [right.root combine]

/-- The leaf that the low bits of the index lead to. -/
def leafAt : {n : Nat} → CompleteTree α n → Nat → α
  | _, leaf value, _ => value
  | n + 1, node left right, index => if index.testBit n then right.leafAt index else left.leafAt index

theorem length_leaves : ∀ {n : Nat} (t : CompleteTree α n), t.leaves.length = 2 ^ n
  | _, leaf _ => rfl
  | n + 1, node left right => by
    rw [leaves, List.length_append, length_leaves left, length_leaves right, Nat.pow_succ]
    omega

theorem length_siblings {combine : α → α → α} : ∀ {n : Nat} (t : CompleteTree α n) (index : Nat),
    (t.siblings combine index).length = n
  | _, leaf _, _ => rfl
  | n + 1, node left right, index => by
    rw [siblings]
    split
    · rw [List.length_append, length_siblings right, List.length_singleton]
    · rw [List.length_append, length_siblings left, List.length_singleton]

theorem getElem?_leaves : ∀ {n : Nat} (t : CompleteTree α n) (index : Nat),
    t.leaves[index % 2 ^ n]? = some (t.leafAt index)
  | _, leaf _, index => by
    rw [Nat.pow_zero, Nat.mod_one]
    rfl
  | n + 1, node left right, index => by
    have hsplit : index % 2 ^ (n + 1) = index % 2 ^ n + 2 ^ n * (index / 2 ^ n % 2) := by
      rw [Nat.pow_succ, Nat.mod_mul]
    have hlt : index % 2 ^ n < 2 ^ n := Nat.mod_lt _ (Nat.two_pow_pos n)
    rw [leaves, leafAt, hsplit]
    by_cases hbit : index.testBit n = true
    · have hone : index / 2 ^ n % 2 = 1 := by
        rw [Nat.testBit_eq_decide_div_mod_eq] at hbit
        exact of_decide_eq_true hbit
      rw [if_pos hbit, hone, Nat.mul_one, List.getElem?_append_right (by rw [length_leaves]; omega),
        length_leaves, Nat.add_sub_cancel]
      exact getElem?_leaves right index
    · have hzero : index / 2 ^ n % 2 = 0 := by
        rw [Nat.testBit_eq_decide_div_mod_eq, decide_eq_true_iff] at hbit
        omega
      rw [if_neg hbit, hzero, Nat.mul_zero, Nat.add_zero,
        List.getElem?_append_left (by rw [length_leaves]; exact hlt)]
      exact getElem?_leaves left index

end CompleteTree

/-- Folding a proof from a level on. -/
def climb (combine : α → α → α) (index : Nat) : Nat → List α → α → α
  | _, [], value => value
  | level, sibling :: rest, value =>
    climb combine index (level + 1) rest
      (if index.testBit level then combine sibling value else combine value sibling)

theorem climb_concat {combine : α → α → α} {index : Nat} {sibling : α} : ∀ {level : Nat} {proof : List α}
    {value : α}, climb combine index level (proof ++ [sibling]) value =
      if index.testBit (level + proof.length) then combine sibling (climb combine index level proof value)
      else combine (climb combine index level proof value) sibling
  | _, [], _ => rfl
  | level, first :: rest, value => by
    have hlevel : level + (rest.length + 1) = level + 1 + rest.length := by omega
    rw [List.cons_append, climb, climb_concat, List.length_cons, hlevel, climb]

theorem climb_siblings {combine : α → α → α} {index : Nat} : ∀ {n : Nat} (t : CompleteTree α n),
    climb combine index 0 (t.siblings combine index) (t.leafAt index) = t.root combine
  | _, .leaf _ => rfl
  | n + 1, .node left right => by
    rw [CompleteTree.siblings, CompleteTree.leafAt, CompleteTree.root]
    by_cases hbit : index.testBit n = true
    · rw [if_pos hbit, if_pos hbit, climb_concat, CompleteTree.length_siblings, Nat.zero_add, if_pos hbit,
        climb_siblings right]
    · rw [if_neg hbit, if_neg hbit, climb_concat, CompleteTree.length_siblings, Nat.zero_add, if_neg hbit,
        climb_siblings left]

end Merkle
