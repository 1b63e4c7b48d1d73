/-
# The two searches for a missing range

`findGap` and `findNewestGap` of `sqlite-sync-gaps.ts` answer alike on every window and every coverage
(`findNewestGap_exact`).  `GapAnswer` has where an answer ends, `StopsAt` where it begins.
-/
import Artgod.Indexer.Gaps
import Mathlib.Order.Bounds.Basic

namespace Artgod.Indexer

open Store

/-! ## 1. Where an answer begins -/

/-- The range goes down to the window's end, to the length of a batch, or to a covered block. -/
def StopsAt (coverage : CoverageTable) (c : CollectionId) (lower batchSize : Nat) (gap : Nat × Nat) : Prop :=
  gap.1 = lower ∨ gap.2 + 1 = gap.1 + batchSize ∨ 0 < gap.1 ∧ Covered coverage c (gap.1 - 1)

section Answers

variable {coverage : CoverageTable} {c : CollectionId} {lower upper batchSize : Nat}

theorem findGapLoop_stopsAt {rows : List Nat} {next : Nat} {gap : Nat × Nat}
    (hrows : ∀ row ∈ rows, Covered coverage c row) (h : findGapLoop batchSize lower next rows = some gap) :
    StopsAt coverage c lower batchSize gap := by
  induction rows generalizing next with
  | nil =>
    rw [findGapLoop] at h
    split at h
    · cases h
    · cases h
      dsimp only [StopsAt]
      omega
  | cons row rest ih =>
    rw [findGapLoop] at h
    split at h
    · cases h
      have hrow := hrows row List.mem_cons_self
      dsimp only [StopsAt]
      rcases Nat.le_total (row + 1) (next - batchSize) with hbatch | hbatch
      · rw [Nat.max_eq_right hbatch]
        omega
      · rw [Nat.max_eq_left hbatch]
        exact .inr (.inr ⟨Nat.succ_pos row, hrow⟩)
    · exact ih (fun r hr => hrows r (List.mem_cons_of_mem row hr)) h

theorem findGap_stopsAt {gap : Nat × Nat} (h : findGap coverage c lower upper batchSize = some gap) :
    StopsAt coverage c lower batchSize gap := by
  refine findGapLoop_stopsAt (fun row hrow => ?_) h
  rw [(List.perm_insertionSort _ _).mem_iff] at hrow
  exact (mem_coveredBlocks.mp hrow).1

theorem findNewestGap_stopsAt (hbatch : 1 ≤ batchSize) {gap : Nat × Nat}
    (h : findNewestGap coverage c lower upper batchSize = some gap) : StopsAt coverage c lower batchSize gap := by
  simp only [findNewestGap] at h
  split at h
  · cases h
  next hfull =>
  obtain ⟨hlo, -, hmissing, -⟩ := newest_spec hfull
  generalize (if 0 < countCoverage coverage c lower upper then
    newestMissing coverage c (upper - lower) lower upper else upper) = newest at h hlo hmissing
  have hanswer : GapAnswer coverage c (max lower (newest + 1 - batchSize)) newest batchSize
      (findGap coverage c (max lower (newest + 1 - batchSize)) newest batchSize) := findGap_answer hbatch
  rw [h] at hanswer
  obtain ⟨hgap, -⟩ := hanswer
  -- The newest missing block ends the range that is found below it.
  have hends : gap.2 = newest := by
    by_contra hne
    exact hmissing (hgap.above newest (Nat.lt_of_le_of_ne hgap.le_upper hne) (Nat.le_refl _))
  rcases findGap_stopsAt h with hfrom | hcut
  · dsimp only [StopsAt]
    omega
  · exact .inr hcut

/-! ## 2. One answer -/

/-- **Where an answer begins and ends is settled by the coverage.** -/
theorem GapAnswer.eq_of_stopsAt {a b : Option (Nat × Nat)} (ha : GapAnswer coverage c lower upper batchSize a)
    (hb : GapAnswer coverage c lower upper batchSize b) (hstopsA : ∀ gap ∈ a, StopsAt coverage c lower batchSize gap)
    (hstopsB : ∀ gap ∈ b, StopsAt coverage c lower batchSize gap) : a = b := by
  cases a with
  | none =>
    cases b with
    | none => rfl
    | some gap =>
      have hgap := hb.1
      exact absurd (ha gap.2 (hgap.lower_le.trans hgap.ordered) hgap.le_upper)
        (hgap.missing gap.2 hgap.ordered (Nat.le_refl _))
  | some gap =>
    cases b with
    | none =>
      have hgap := ha.1
      exact absurd (hb gap.2 (hgap.lower_le.trans hgap.ordered) hgap.le_upper)
        (hgap.missing gap.2 hgap.ordered (Nat.le_refl _))
    | some gap' =>
      obtain ⟨hgap, hsize⟩ := ha
      obtain ⟨hgap', hsize'⟩ := hb
      have hends : gap.2 = gap'.2 := by
        rcases Nat.lt_trichotomy gap.2 gap'.2 with hlt | heq | hlt
        · exact absurd (hgap.above gap'.2 hlt hgap'.le_upper) (hgap'.missing _ hgap'.ordered (Nat.le_refl _))
        · exact heq
        · exact absurd (hgap'.above gap.2 hlt hgap.le_upper) (hgap.missing _ hgap.ordered (Nat.le_refl _))
      have hbegins : ∀ {g g' : Nat × Nat}, NewestGap coverage c lower upper g → NewestGap coverage c lower upper g' →
          g.2 = g'.2 → g'.2 < g'.1 + batchSize → StopsAt coverage c lower batchSize g → ¬ g'.1 < g.1 := by
        intro g g' hg hg' heq hshort hstops hlt
        rcases hstops with hwindow | hcut | ⟨hpos, hcovered⟩
        · have := hg'.lower_le
          omega
        · omega
        · have := hg.ordered
          exact hg'.missing (g.1 - 1) (by omega) (by omega) hcovered
      have hle := hbegins hgap hgap' hends hsize' (hstopsA gap rfl)
      have hge := hbegins hgap' hgap hends.symm hsize (hstopsB gap' rfl)
      exact congrArg some (Prod.ext (by omega) hends)

/-- The blocks of the window that are missing. -/
def missingBlocks (coverage : CoverageTable) (c : CollectionId) (lower upper : Nat) : Set Nat :=
  {n | lower ≤ n ∧ n ≤ upper ∧ ¬ Covered coverage c n}

/-- The blocks of the window from which on everything up to the block is missing. -/
def runBelow (coverage : CoverageTable) (c : CollectionId) (lower block : Nat) : Set Nat :=
  {n | lower ≤ n ∧ n ≤ block ∧ ∀ m, n ≤ m → m ≤ block → ¬ Covered coverage c m}

/-- The range is the run of missing blocks that ends at the newest one of the window, cut to a batch. -/
structure NewestRun (coverage : CoverageTable) (c : CollectionId) (lower upper batchSize : Nat)
    (gap : Nat × Nat) : Prop where
  newest : IsGreatest (missingBlocks coverage c lower upper) gap.2
  cut : ∃ start, IsLeast (runBelow coverage c lower gap.2) start ∧ gap.1 = max start (gap.2 + 1 - batchSize)

theorem NewestGap.newestRun {gap : Nat × Nat} (h : NewestGap coverage c lower upper gap)
    (hsize : gap.2 < gap.1 + batchSize) (hstops : StopsAt coverage c lower batchSize gap) :
    NewestRun coverage c lower upper batchSize gap := by
  have hmem : gap.1 ∈ runBelow coverage c lower gap.2 := ⟨h.lower_le, h.ordered, h.missing⟩
  refine ⟨⟨⟨h.lower_le.trans h.ordered, h.le_upper, h.missing gap.2 h.ordered (Nat.le_refl _)⟩, fun n hn => ?_⟩, ?_⟩
  · by_contra hgt
    exact hn.2.2 (h.above n (by omega) hn.2.1)
  -- The run has a least block, for it is not empty.
  classical
  have hexists : ∃ n, n ∈ runBelow coverage c lower gap.2 := ⟨gap.1, hmem⟩
  refine ⟨Nat.find hexists, ⟨Nat.find_spec hexists, fun n hn => Nat.find_min' hexists hn⟩, ?_⟩
  have hle : Nat.find hexists ≤ gap.1 := Nat.find_min' hexists hmem
  obtain ⟨hwindow, -, hrun⟩ := Nat.find_spec hexists
  rcases hstops with hlower | hcut | ⟨hpos, hcovered⟩
  · omega
  · omega
  -- A covered block right below the range ends the run.
  have hge : gap.1 ≤ Nat.find hexists := by
    by_contra hlt
    have := h.ordered
    exact hrun (gap.1 - 1) (by omega) (by omega) hcovered
  omega

/-- **The two searches answer alike**: with nothing if and only if the window is covered, and otherwise with the
run of missing blocks that ends at the newest one, cut to the window and to one batch. -/
theorem findNewestGap_exact (coverage : CoverageTable) (c : CollectionId) (lower upper batchSize : Nat)
    (hbatch : 1 ≤ batchSize) :
    findNewestGap coverage c lower upper batchSize = findGap coverage c lower upper batchSize ∧
      (findGap coverage c lower upper batchSize = none ↔ ∀ n, lower ≤ n → n ≤ upper → Covered coverage c n) ∧
      ∀ gap, findGap coverage c lower upper batchSize = some gap → NewestRun coverage c lower upper batchSize gap := by
  have hanswer : GapAnswer coverage c lower upper batchSize (findGap coverage c lower upper batchSize) :=
    findGap_answer hbatch
  refine ⟨?_, ⟨fun hnone => ?_, fun hcovered => ?_⟩, fun gap hgap => ?_⟩
  · exact (findNewestGap_answer hbatch).eq_of_stopsAt hanswer (fun _ h => findNewestGap_stopsAt hbatch h)
      fun _ h => findGap_stopsAt h
  · rw [hnone] at hanswer
    exact hanswer
  · cases hgap : findGap coverage c lower upper batchSize with
    | none => rfl
    | some gap =>
      rw [hgap] at hanswer
      obtain ⟨hnewest, -⟩ := hanswer
      exact absurd (hcovered gap.2 (hnewest.lower_le.trans hnewest.ordered) hnewest.le_upper)
        (hnewest.missing gap.2 hnewest.ordered (Nat.le_refl _))
  · rw [hgap] at hanswer
    exact hanswer.1.newestRun hanswer.2 (findGap_stopsAt hgap)

/-- Blocks 3 and 7 of a collection are covered. -/
def sparseCoverage : CoverageTable := (Table.empty.insertOrIgnore ⟨1, 3⟩).insertOrIgnore ⟨1, 7⟩

theorem findNewestGap_exact_sample : findNewestGap sparseCoverage 1 0 7 2 = some (5, 6) ∧
      findNewestGap sparseCoverage 1 0 7 2 = findGap sparseCoverage 1 0 7 2 :=
  ⟨by decide +kernel, (findNewestGap_exact sparseCoverage 1 0 7 2 (by decide)).1⟩

end Answers

end Artgod.Indexer
