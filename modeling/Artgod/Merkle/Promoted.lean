/-
# Merkle roots of levels that need not be even

A level is paired off from the left, and an odd node at its end goes up unchanged.  Where the two sides of a node
may be swapped, every node of the first level has a proof: the siblings that it meets on its way, at most one a
level.
-/
import Mathlib.Data.List.Basic
import Mathlib.Data.Nat.Log

namespace Merkle

variable {α : Type} {combine : α → α → α}

/-- The level above. -/
def pairUp (combine : α → α → α) : List α → List α
  | left :: right :: rest => combine left right :: pairUp combine rest
  | level => level

theorem length_pairUp : ∀ level : List α, (pairUp combine level).length = (level.length + 1) / 2
  | [] => by simp [pairUp]
  | [_] => by simp [pairUp]
  | _ :: _ :: rest => by
    simp only [pairUp, List.length_cons, length_pairUp rest]
    omega

/-- The node that is left when every level is paired off. -/
def promotedRoot (combine : α → α → α) : List α → Option α
  | [] => none
  | [root] => some root
  | left :: right :: rest => promotedRoot combine (combine left right :: pairUp combine rest)
termination_by level => level.length
decreasing_by
  simp only [List.length_cons, length_pairUp]
  omega

theorem exists_pairUp (hswap : ∀ a b, combine a b = combine b a) : ∀ {level : List α} {node : α}, node ∈ level →
    ∃ proof : List α, proof.length ≤ 1 ∧ proof.foldl combine node ∈ pairUp combine level
  | [only], node, h => ⟨[], Nat.zero_le _, h⟩
  | left :: right :: rest, node, h => by
    rcases List.mem_cons.mp h with rfl | h
    · exact ⟨[right], Nat.le_refl _, List.mem_cons_self⟩
    rcases List.mem_cons.mp h with rfl | h
    · refine ⟨[left], Nat.le_refl _, List.mem_cons.mpr (.inl ?_)⟩
      exact hswap _ _
    · obtain ⟨proof, hlength, hmem⟩ := exists_pairUp hswap h
      exact ⟨proof, hlength, List.mem_cons_of_mem _ hmem⟩

theorem exists_proof (hswap : ∀ a b, combine a b = combine b a) {level : List α} (hne : level ≠ []) :
    ∃ root, promotedRoot combine level = some root ∧ ∀ node ∈ level, ∃ proof : List α,
      proof.length ≤ Nat.clog 2 level.length ∧ proof.foldl combine node = root := by
  induction level using promotedRoot.induct combine with
  | case1 => exact absurd rfl hne
  | case2 root =>
    refine ⟨root, by rw [promotedRoot], fun node hnode => ⟨[], Nat.zero_le _, ?_⟩⟩
    exact List.mem_singleton.mp hnode
  | case3 left right rest ih =>
    obtain ⟨root, hroot, hproofs⟩ := ih (List.cons_ne_nil _ _)
    refine ⟨root, by rw [promotedRoot]; exact hroot, fun node hnode => ?_⟩
    obtain ⟨first, hfirst, hup⟩ := exists_pairUp hswap hnode
    obtain ⟨proof, hlength, hfold⟩ := hproofs _ hup
    refine ⟨first ++ proof, ?_, by rw [List.foldl_append, hfold]⟩
    have hhalf : (combine left right :: pairUp combine rest).length = ((left :: right :: rest).length + 2 - 1) / 2 :=
      length_pairUp (left :: right :: rest)
    rw [hhalf] at hlength
    rw [List.length_append, Nat.clog_of_one_lt Nat.one_lt_two (by simp)]
    omega

end Merkle
