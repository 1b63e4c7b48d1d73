/-
# Searching the partial transversals of a list of rows

Each row offers options, and an option carries a key.  A partial transversal picks options so that no row and
no key is picked twice.  A depth-first search that may skip every row reaches all of them, each in the order
of its rows (`transversals`), and keeping the better of the best so far and the next one ends with a best one
(`foldl_keep_best`).  Better is first more picks, then a greater total value (`rank`).
-/
import Mathlib.Algebra.BigOperators.Group.List.Basic
import Mathlib.Algebra.Order.Group.Int
import Mathlib.Data.List.Nodup
import Mathlib.Data.Prod.Lex
import Mathlib.Algebra.Ring.Int.Defs

namespace Search

variable {β κ : Type}

/-! ## 1. Partial transversals -/

/-- Picks, each with the index of its row, whose keys avoid the used ones. -/
structure IsTransversal (key : β → κ) (rows : List (List β)) (used : List κ) (picks : List (Nat × β)) :
    Prop where
  mem_row : ∀ p ∈ picks, ∃ row, rows[p.1]? = some row ∧ p.2 ∈ row
  rows_once : (picks.map Prod.fst).Nodup
  keys_once : (picks.map fun p => key p.2).Nodup
  keys_free : ∀ p ∈ picks, key p.2 ∉ used

/-- The picks with every row index moved up by one: the rows behind one more row. -/
def shifted (picks : List (Nat × β)) : List (Nat × β) := picks.map fun p => (p.1 + 1, p.2)

@[simp] theorem shifted_snd (picks : List (Nat × β)) : (shifted picks).map Prod.snd = picks.map Prod.snd := by
  rw [shifted, List.map_map]
  rfl

theorem shifted_fst (picks : List (Nat × β)) :
    (shifted picks).map Prod.fst = (picks.map Prod.fst).map Nat.succ := by
  rw [shifted, List.map_map, List.map_map]
  rfl

theorem shifted_keys (key : β → κ) (picks : List (Nat × β)) :
    ((shifted picks).map fun p => key p.2) = picks.map fun p => key p.2 := by
  rw [shifted, List.map_map]
  rfl

theorem mem_shifted {picks : List (Nat × β)} {p : Nat × β} :
    p ∈ shifted picks ↔ ∃ q ∈ picks, (q.1 + 1, q.2) = p := List.mem_map

theorem exists_shifted {picks : List (Nat × β)} (h : ∀ p ∈ picks, p.1 ≠ 0) :
    ∃ below, picks = shifted below := by
  refine ⟨picks.map fun p => (p.1 - 1, p.2), ?_⟩
  rw [shifted, List.map_map]
  refine (List.map_id picks).symm.trans (List.map_congr_left fun p hp => ?_)
  have hpos := h p hp
  show p = (p.1 - 1 + 1, p.2)
  rw [Nat.sub_add_cancel (Nat.pos_of_ne_zero hpos)]

namespace IsTransversal

variable {key : β → κ} {rows : List (List β)} {row : List β} {used : List κ} {picks below : List (Nat × β)}

theorem nil : IsTransversal key rows used [] where
  mem_row := List.forall_mem_nil _
  rows_once := List.nodup_nil
  keys_once := List.nodup_nil
  keys_free := List.forall_mem_nil _

theorem perm {picks' : List (Nat × β)} (hperm : picks.Perm picks')
    (h : IsTransversal key rows used picks) : IsTransversal key rows used picks' where
  mem_row p hp := h.mem_row p (hperm.mem_iff.mpr hp)
  rows_once := (hperm.map _).nodup_iff.mp h.rows_once
  keys_once := (hperm.map _).nodup_iff.mp h.keys_once
  keys_free p hp := h.keys_free p (hperm.mem_iff.mpr hp)

theorem skip (h : IsTransversal key rows used picks) :
    IsTransversal key (row :: rows) used (shifted picks) where
  mem_row p hp := by
    obtain ⟨q, hq, rfl⟩ := mem_shifted.mp hp
    exact h.mem_row q hq
  rows_once := by
    rw [shifted_fst]
    exact h.rows_once.map Nat.succ_injective
  keys_once := by
    rw [shifted_keys]
    exact h.keys_once
  keys_free p hp := by
    obtain ⟨q, hq, rfl⟩ := mem_shifted.mp hp
    exact h.keys_free q hq

theorem pick {o : β} (ho : o ∈ row) (hfree : key o ∉ used)
    (h : IsTransversal key rows (used ++ [key o]) picks) :
    IsTransversal key (row :: rows) used ((0, o) :: shifted picks) := by
  have hused : ∀ p ∈ shifted picks, key p.2 ∉ used ∧ key p.2 ≠ key o := by
    intro p hp
    obtain ⟨q, hq, rfl⟩ := mem_shifted.mp hp
    have hq' := h.keys_free q hq
    rw [List.mem_append, List.mem_singleton, not_or] at hq'
    exact hq'
  constructor
  · refine List.forall_mem_cons.mpr ⟨⟨row, rfl, ho⟩, fun p hp => ?_⟩
    obtain ⟨q, hq, rfl⟩ := mem_shifted.mp hp
    exact h.mem_row q hq
  · rw [List.map_cons, List.nodup_cons, shifted_fst]
    refine ⟨fun hmem => ?_, h.rows_once.map Nat.succ_injective⟩
    obtain ⟨n, -, hn⟩ := List.mem_map.mp hmem
    exact Nat.succ_ne_zero n hn
  · rw [List.map_cons, List.nodup_cons]
    refine ⟨fun hmem => ?_, by rw [shifted_keys]; exact h.keys_once⟩
    obtain ⟨p, hp, hkey⟩ := List.mem_map.mp hmem
    exact (hused p hp).2 hkey
  · exact List.forall_mem_cons.mpr ⟨hfree, fun p hp => (hused p hp).1⟩

theorem of_skip (h : IsTransversal key (row :: rows) used (shifted below)) :
    IsTransversal key rows used below where
  mem_row p hp := h.mem_row (p.1 + 1, p.2) (mem_shifted.mpr ⟨p, hp, rfl⟩)
  rows_once := List.Nodup.of_map Nat.succ (by rw [← shifted_fst]; exact h.rows_once)
  keys_once := by
    rw [← shifted_keys]
    exact h.keys_once
  keys_free p hp := h.keys_free (p.1 + 1, p.2) (mem_shifted.mpr ⟨p, hp, rfl⟩)

theorem of_pick {o : β} (h : IsTransversal key (row :: rows) used ((0, o) :: shifted below)) :
    o ∈ row ∧ key o ∉ used ∧ IsTransversal key rows (used ++ [key o]) below := by
  obtain ⟨row', hrow, ho⟩ := h.mem_row (0, o) List.mem_cons_self
  cases hrow
  have hkeys := List.nodup_cons.mp h.keys_once
  have hrest : IsTransversal key (row :: rows) used (shifted below) :=
    { mem_row := fun p hp => h.mem_row p (List.mem_cons_of_mem _ hp)
      rows_once := (List.nodup_cons.mp h.rows_once).2
      keys_once := hkeys.2
      keys_free := fun p hp => h.keys_free p (List.mem_cons_of_mem _ hp) }
  refine ⟨ho, h.keys_free (0, o) List.mem_cons_self, { hrest.of_skip with keys_free := fun p hp => ?_ }⟩
  rw [List.mem_append, List.mem_singleton, not_or]
  refine ⟨hrest.of_skip.keys_free p hp, fun hkey => hkeys.1 ?_⟩
  rw [shifted_keys]
  exact List.mem_map.mpr ⟨p, hp, hkey⟩

end IsTransversal

/-! ## 2. Depth-first enumeration -/

section Enumeration

variable [DecidableEq κ] {key : β → κ}

/-- Skip the row first; then try each of its options whose key is free. -/
def transversals (key : β → κ) : List (List β) → List κ → List (List β)
  | [], _ => [[]]
  | row :: rest, used =>
    transversals key rest used ++ row.flatMap fun o =>
        if key o ∈ used then [] else (transversals key rest (used ++ [key o])).map (o :: ·)

theorem mem_transversals_cons {row l : List β} {rest : List (List β)} {used : List κ} :
    l ∈ transversals key (row :: rest) used ↔ l ∈ transversals key rest used ∨
      ∃ o ∈ row, key o ∉ used ∧ ∃ t ∈ transversals key rest (used ++ [key o]), o :: t = l := by
  rw [transversals, List.mem_append, List.mem_flatMap]
  refine or_congr_right (exists_congr fun o => and_congr_right fun _ => ?_)
  by_cases hused : key o ∈ used
  · rw [if_pos hused]
    exact ⟨fun h => (nomatch h), fun h => absurd hused h.1⟩
  · rw [if_neg hused, List.mem_map]
    exact ⟨fun h => ⟨hused, h⟩, fun h => h.2⟩

theorem picks_of_mem_transversals : ∀ {rows : List (List β)} {used : List κ} {l : List β},
    l ∈ transversals key rows used →
      ∃ picks, IsTransversal key rows used picks ∧ picks.map Prod.snd = l := by
  intro rows
  induction rows with
  | nil =>
    intro used l hl
    exact ⟨[], .nil, (List.mem_singleton.mp hl).symm⟩
  | cons row rest ih =>
    intro used l hl
    rcases mem_transversals_cons.mp hl with hskip | ⟨o, ho, hfree, t, ht, rfl⟩
    · obtain ⟨picks, hpicks, rfl⟩ := ih hskip
      exact ⟨shifted picks, hpicks.skip, shifted_snd picks⟩
    · obtain ⟨picks, hpicks, rfl⟩ := ih ht
      refine ⟨(0, o) :: shifted picks, hpicks.pick ho hfree, ?_⟩
      rw [List.map_cons, shifted_snd]

/-- **The search reaches every partial transversal**, up to the order of its picks. -/
theorem mem_transversals_of_picks : ∀ {rows : List (List β)} {used : List κ} {picks : List (Nat × β)},
    IsTransversal key rows used picks → ∃ l ∈ transversals key rows used, l.Perm (picks.map Prod.snd) := by
  intro rows
  induction rows with
  | nil =>
    intro used picks h
    cases picks with
    | nil => exact ⟨[], List.mem_singleton.mpr rfl, .nil⟩
    | cons p rest =>
      obtain ⟨row, hrow, -⟩ := h.mem_row p List.mem_cons_self
      cases hrow
  | cons row rest ih =>
    intro used picks h
    by_cases hfirst : ∃ p ∈ picks, p.1 = 0
    · obtain ⟨⟨i, o⟩, hp, hzero⟩ := hfirst
      obtain rfl : i = 0 := hzero
      -- the pick of the first row goes to the front; the others are of the rows behind it
      obtain ⟨before, after, rfl⟩ := List.append_of_mem hp
      have hperm : (before ++ (0, o) :: after).Perm ((0, o) :: (before ++ after)) := List.perm_middle
      have h' := h.perm hperm
      obtain ⟨below, hbelow⟩ := @exists_shifted β (before ++ after) fun p hp hzero =>
        (List.nodup_cons.mp h'.rows_once).1 (List.mem_map.mpr ⟨p, hp, hzero⟩)
      rw [hbelow] at h' hperm
      obtain ⟨ho, hfree, hrest⟩ := h'.of_pick
      obtain ⟨t, ht, htperm⟩ := ih hrest
      refine ⟨o :: t, mem_transversals_cons.mpr (Or.inr ⟨o, ho, hfree, t, ht, rfl⟩), ?_⟩
      refine List.Perm.trans (htperm.cons o) ((hperm.map Prod.snd).trans ?_).symm
      rw [List.map_cons, shifted_snd]
    · obtain ⟨below, rfl⟩ := @exists_shifted β picks fun p hp hzero => hfirst ⟨p, hp, hzero⟩
      obtain ⟨l, hl, hperm⟩ := ih h.of_skip
      refine ⟨l, mem_transversals_cons.mpr (Or.inl hl), ?_⟩
      rw [shifted_snd]
      exact hperm

end Enumeration

/-! ## 3. Keeping the best -/

/-- More picks first, then the greater total value. -/
def rank (value : β → Int) (l : List β) : Nat ×ₗ Int := toLex (l.length, (l.map value).sum)

theorem rank_perm {value : β → Int} {l l' : List β} (h : l.Perm l') : rank value l = rank value l' := by
  rw [rank, rank, h.length_eq, (h.map value).sum_eq]

theorem rank_le_iff {value : β → Int} {l l' : List β} :
    rank value l ≤ rank value l' ↔ l.length < l'.length ∨
      l.length = l'.length ∧ (l.map value).sum ≤ (l'.map value).sum :=
  Prod.Lex.toLex_le_toLex

/-- **A fold that keeps the better of two ends with a best one**, whatever it does between equals. -/
theorem foldl_keep_best {σ γ ρ : Type} [Preorder ρ] {keep : σ → γ → σ} {found : γ → σ} {rank : σ → ρ}
    (hkeep : ∀ best x, (keep best x = best ∨ keep best x = found x) ∧
      rank best ≤ rank (keep best x) ∧ rank (found x) ≤ rank (keep best x)) :
    ∀ (xs : List γ) (best : σ), (xs.foldl keep best = best ∨ ∃ x ∈ xs, xs.foldl keep best = found x) ∧
        rank best ≤ rank (xs.foldl keep best) ∧ ∀ x ∈ xs, rank (found x) ≤ rank (xs.foldl keep best) := by
  intro xs
  induction xs with
  | nil => exact fun best => ⟨Or.inl rfl, le_refl _, List.forall_mem_nil _⟩
  | cons x rest ih =>
    intro best
    obtain ⟨hfrom, hbest, hx⟩ := hkeep best x
    obtain ⟨hfrom', hkept, hrest⟩ := ih (keep best x)
    rw [List.foldl_cons]
    refine ⟨?_, le_trans hbest hkept, List.forall_mem_cons.mpr ⟨le_trans hx hkept, hrest⟩⟩
    rcases hfrom' with hsame | ⟨y, hy, hfound⟩
    · rw [hsame]
      rcases hfrom with hold | hnew
      · exact Or.inl hold
      · exact Or.inr ⟨x, List.mem_cons_self, hnew⟩
    · exact Or.inr ⟨y, List.mem_cons_of_mem _ hy, hfound⟩

end Search
