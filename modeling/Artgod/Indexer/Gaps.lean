/-
# Gap-scan progress

The store half of gap repair (`sqlite-sync-gaps.ts`, `domain/sync-gap-repair.ts`): one cursor and at most one
pending range for each collection, and the two searches for a missing range, both for the newest one, cut to a
batch (`NewestGap`).
-/
import Artgod.Indexer.Recovery
import Mathlib.Data.Finset.Card
import Mathlib.Order.Interval.Finset.Nat

namespace Artgod.Indexer

open Store

abbrev CoverageTable := Table (id : CoverageRow → CoverageRow)

/-! ## 1. Coverage of a window -/

/-- The block was acquired for the collection. -/
def Covered (coverage : CoverageTable) (c : CollectionId) (n : Nat) : Prop :=
  (⟨c, n⟩ : CoverageRow) ∈ coverage

/-- The covered blocks of a window: `selectCoverage` without its order. -/
def coveredBlocks (coverage : CoverageTable) (c : CollectionId) (lower upper : Nat) : List Nat :=
  (coverage.select (fun r => r.collectionId = c && lower ≤ r.blockNumber && r.blockNumber ≤ upper)).map
    (·.blockNumber)

def countCoverage (coverage : CoverageTable) (c : CollectionId) (lower upper : Nat) : Nat :=
  (coveredBlocks coverage c lower upper).length

variable {c : CollectionId} {coverage : CoverageTable} {batchSize lower upper : Nat} {db db' : Db}
  {repair : SyncGapRepairTarget}

theorem mem_coveredBlocks {n : Nat} :
    n ∈ coveredBlocks coverage c lower upper ↔ Covered coverage c n ∧ lower ≤ n ∧ n ≤ upper := by
  simp only [coveredBlocks, List.mem_map, Table.mem_select, Bool.and_eq_true, decide_eq_true_eq, Covered]
  constructor
  · rintro ⟨⟨c', n'⟩, ⟨hmem, ⟨rfl, hlo⟩, hhi⟩, rfl⟩
    exact ⟨hmem, hlo, hhi⟩
  · rintro ⟨hmem, hlo, hhi⟩
    exact ⟨⟨c, n⟩, ⟨hmem, ⟨rfl, hlo⟩, hhi⟩, rfl⟩

theorem coveredBlocks_nodup : (coveredBlocks coverage c lower upper).Nodup := by
  refine List.Nodup.map_on ?_ (coverage.select_nodup _)
  rintro ⟨c₁, n₁⟩ h₁ ⟨c₂, n₂⟩ h₂ rfl
  simp only [Table.mem_select, Bool.and_eq_true, decide_eq_true_eq] at h₁ h₂
  rw [h₁.2.1.1, h₂.2.1.1]

theorem countCoverage_le : countCoverage coverage c lower upper ≤ upper + 1 - lower := by
  have hcard : (coveredBlocks coverage c lower upper).toFinset.card =
      countCoverage coverage c lower upper := List.toFinset_card_of_nodup coveredBlocks_nodup
  rw [← hcard, ← Nat.card_Icc]
  refine Finset.card_le_card (fun n hn => ?_)
  obtain ⟨-, hlo, hhi⟩ := mem_coveredBlocks.mp (List.mem_toFinset.mp hn)
  exact Finset.mem_Icc.mpr ⟨hlo, hhi⟩

theorem countCoverage_eq_iff : countCoverage coverage c lower upper = upper + 1 - lower ↔
      ∀ n, lower ≤ n → n ≤ upper → Covered coverage c n := by
  set s := (coveredBlocks coverage c lower upper).toFinset with hs
  have hcard : s.card = countCoverage coverage c lower upper :=
    List.toFinset_card_of_nodup coveredBlocks_nodup
  have hsub : s ⊆ Finset.Icc lower upper := by
    intro n hn
    obtain ⟨-, hlo, hhi⟩ := mem_coveredBlocks.mp (List.mem_toFinset.mp hn)
    exact Finset.mem_Icc.mpr ⟨hlo, hhi⟩
  have hmem : ∀ n, n ∈ s ↔ Covered coverage c n ∧ lower ≤ n ∧ n ≤ upper := by
    intro n
    rw [hs, List.mem_toFinset, mem_coveredBlocks]
  rw [← hcard, ← Nat.card_Icc]
  constructor
  · intro h n hlo hhi
    have heq : s = Finset.Icc lower upper :=
      Finset.eq_of_subset_of_card_le hsub (Nat.le_of_eq h.symm)
    have hn : n ∈ s := by
      rw [heq, Finset.mem_Icc]
      exact ⟨hlo, hhi⟩
    exact ((hmem n).mp hn).1
  · intro h
    have heq : s = Finset.Icc lower upper := by
      ext n
      rw [hmem, Finset.mem_Icc]
      exact ⟨fun hn => hn.2, fun hn => ⟨h n hn.1 hn.2, hn⟩⟩
    rw [heq]

/-! ## 2. The newest missing range -/

/-- A range of missing blocks of the window with nothing missing above it. -/
structure NewestGap (coverage : CoverageTable) (c : CollectionId) (lower upper : Nat)
    (gap : Nat × Nat) : Prop where
  lower_le : lower ≤ gap.1
  ordered : gap.1 ≤ gap.2
  le_upper : gap.2 ≤ upper
  missing : ∀ n, gap.1 ≤ n → n ≤ gap.2 → ¬ Covered coverage c n
  above : ∀ n, gap.2 < n → n ≤ upper → Covered coverage c n

/-- What a search of the window may answer. -/
def GapAnswer (coverage : CoverageTable) (c : CollectionId) (lower upper batchSize : Nat) :
    Option (Nat × Nat) → Prop
  | none => ∀ n, lower ≤ n → n ≤ upper → Covered coverage c n
  | some gap => NewestGap coverage c lower upper gap ∧ gap.2 < gap.1 + batchSize

/-- The loop of `findGap` over the covered blocks in descending order.  `upper` is `cursor + 1`:
every block from it to the end of the window is covered. -/
def findGapLoop (batchSize lower : Nat) : Nat → List Nat → Option (Nat × Nat)
  | upper, [] =>
    if upper ≤ lower then none else some (max lower (upper - batchSize), upper - 1)
  | upper, row :: rest =>
    if row + 1 < upper then some (max (row + 1) (upper - batchSize), upper - 1)
    else findGapLoop batchSize lower row rest

def findGap (coverage : CoverageTable) (c : CollectionId) (lower upper batchSize : Nat) :
    Option (Nat × Nat) :=
  findGapLoop batchSize lower (upper + 1)
    ((coveredBlocks coverage c lower upper).insertionSort (fun a b => b ≤ a))

theorem findGapLoop_answer (hbatch : 1 ≤ batchSize) : ∀ {rows : List Nat} {next : Nat}, next ≤ upper + 1 →
      (∀ n, next ≤ n → n ≤ upper → Covered coverage c n) →
      (∀ n, n ∈ rows ↔ Covered coverage c n ∧ lower ≤ n ∧ n < next) →
      rows.Pairwise (fun a b => b < a) →
      GapAnswer coverage c lower upper batchSize (findGapLoop batchSize lower next rows)
  | [], next, hnext, habove, hrows, _ => by
    have hmissing : ∀ n, lower ≤ n → n < next → ¬ Covered coverage c n := by
      intro n hlo hn hc
      exact absurd ((hrows n).mpr ⟨hc, hlo, hn⟩) (by simp)
    rw [findGapLoop]
    split
    · next hle =>
      intro n hlo hhi
      exact habove n (by omega) hhi
    next hlt =>
    refine ⟨⟨by simp, ?_, by simp; omega, ?_, ?_⟩, ?_⟩
    · simp only
      omega
    · intro n h₁ h₂
      simp only at h₁ h₂
      exact hmissing n (by omega) (by omega)
    · intro n h₁ h₂
      simp only at h₁
      exact habove n (by omega) h₂
    · simp only
      omega
  | row :: rest, next, hnext, habove, hrows, hsorted => by
    obtain ⟨hrow, hlo, hlt⟩ := (hrows row).mp (by simp)
    obtain ⟨hhead, htail⟩ := List.pairwise_cons.mp hsorted
    rw [findGapLoop]
    split
    · next hgap =>
      -- the blocks between this row and the next one are missing
      have hmissing : ∀ n, row < n → n < next → ¬ Covered coverage c n := by
        intro n h₁ h₂ hc
        rcases List.mem_cons.mp ((hrows n).mpr ⟨hc, by omega, h₂⟩) with rfl | hn
        · omega
        · have := hhead n hn
          omega
      refine ⟨⟨?_, ?_, ?_, ?_, ?_⟩, ?_⟩
      · simp only
        omega
      · simp only
        omega
      · simp only
        omega
      · intro n h₁ h₂
        simp only at h₁ h₂
        exact hmissing n (by omega) (by omega)
      · intro n h₁ h₂
        simp only at h₁
        exact habove n (by omega) h₂
      · simp only
        omega
    · next hadj =>
      refine findGapLoop_answer hbatch (by omega) ?_ ?_ htail
      · intro n h₁ h₂
        by_cases hn : n = row
        · rw [hn]
          exact hrow
        · exact habove n (by omega) h₂
      · intro n
        constructor
        · intro hn
          obtain ⟨hc, hl, -⟩ := (hrows n).mp (by simp [hn])
          exact ⟨hc, hl, hhead n hn⟩
        rintro ⟨hc, hl, hn⟩
        rcases List.mem_cons.mp ((hrows n).mpr ⟨hc, hl, by omega⟩) with rfl | hn'
        · omega
        · exact hn'

theorem findGap_answer (hbatch : 1 ≤ batchSize) :
    GapAnswer coverage c lower upper batchSize (findGap coverage c lower upper batchSize) := by
  have hperm := List.perm_insertionSort (fun a b => b ≤ a) (coveredBlocks coverage c lower upper)
  refine findGapLoop_answer hbatch (Nat.le_refl _) (by intro n h₁ h₂; omega) ?_ ?_
  · intro n
    rw [hperm.mem_iff, mem_coveredBlocks]
    constructor
    · rintro ⟨hc, hl, hu⟩
      exact ⟨hc, hl, by omega⟩
    · rintro ⟨hc, hl, hu⟩
      exact ⟨hc, hl, by omega⟩
  · have hsorted : ((coveredBlocks coverage c lower upper).insertionSort
        (fun a b => b ≤ a)).Pairwise (fun a b => b ≤ a) := List.pairwise_insertionSort _ _
    refine (hsorted.and (hperm.nodup_iff.mpr coveredBlocks_nodup)).imp ?_
    rintro a b ⟨hle, hne⟩
    omega

/-- The bisection of `findNewestGap`: the newest block of the window that is missing. -/
def newestMissing (coverage : CoverageTable) (c : CollectionId) : Nat → Nat → Nat → Nat
  | 0, _, upper => upper
  | fuel + 1, lower, upper =>
    if lower < upper then
      let middle := (lower + upper + 1) / 2
      if countCoverage coverage c middle upper < upper + 1 - middle then
        newestMissing coverage c fuel middle upper
      else newestMissing coverage c fuel lower (middle - 1)
    else upper

def findNewestGap (coverage : CoverageTable) (c : CollectionId) (lower upper batchSize : Nat) :
    Option (Nat × Nat) :=
  let covered := countCoverage coverage c lower upper
  if covered = upper + 1 - lower then none
  else
    let newest := if 0 < covered then newestMissing coverage c (upper - lower) lower upper else upper
    findGap coverage c (max lower (newest + 1 - batchSize)) newest batchSize

/-- The bisection keeps the newest missing block between its bounds, and halves their distance, so
the fuel suffices. -/
theorem newestMissing_spec : ∀ (fuel lower upper : Nat), upper - lower ≤ fuel → lower ≤ upper →
      (∃ n, lower ≤ n ∧ n ≤ upper ∧ ¬ Covered coverage c n) →
      lower ≤ newestMissing coverage c fuel lower upper ∧
        newestMissing coverage c fuel lower upper ≤ upper ∧
        ¬ Covered coverage c (newestMissing coverage c fuel lower upper) ∧
        ∀ n, newestMissing coverage c fuel lower upper < n → n ≤ upper → Covered coverage c n
  | 0, lower, upper, hfuel, hle, ⟨n, hlo, hhi, hn⟩ => by
    have : n = upper := by omega
    subst this
    exact ⟨hle, Nat.le_refl _, hn, fun m h₁ h₂ => by simp only [newestMissing] at h₁; omega⟩
  | fuel + 1, lower, upper, hfuel, hle, ⟨n, hlo, hhi, hn⟩ => by
    rw [newestMissing]
    by_cases hlt : lower < upper
    · rw [if_pos hlt]
      set middle := (lower + upper + 1) / 2 with hmid
      simp only
      by_cases hcount : countCoverage coverage c middle upper < upper + 1 - middle
      · rw [if_pos hcount]
        have hex : ∃ n, middle ≤ n ∧ n ≤ upper ∧ ¬ Covered coverage c n := by
          by_contra hno
          push Not at hno
          have := countCoverage_eq_iff.mpr hno
          omega
        obtain ⟨h₁, h₂, h₃, h₄⟩ := newestMissing_spec fuel middle upper (by omega) (by omega) hex
        exact ⟨by omega, h₂, h₃, h₄⟩
      · rw [if_neg hcount]
        -- nothing is missing in the upper half
        have hfull : ∀ n, middle ≤ n → n ≤ upper → Covered coverage c n := by
          apply countCoverage_eq_iff.mp
          have hbound : countCoverage coverage c middle upper ≤ upper + 1 - middle := by
            rw [← Nat.card_Icc, countCoverage, ← List.toFinset_card_of_nodup coveredBlocks_nodup]
            refine Finset.card_le_card (fun m hm => ?_)
            obtain ⟨-, h₁, h₂⟩ := mem_coveredBlocks.mp (List.mem_toFinset.mp hm)
            exact Finset.mem_Icc.mpr ⟨h₁, h₂⟩
          omega
        have hnmid : n < middle := by
          by_contra hge
          exact hn (hfull n (by omega) hhi)
        obtain ⟨h₁, h₂, h₃, h₄⟩ := newestMissing_spec fuel lower (middle - 1) (by omega)
          (by omega) ⟨n, hlo, by omega, hn⟩
        refine ⟨h₁, by omega, h₃, ?_⟩
        intro m hm₁ hm₂
        by_cases hm : middle ≤ m
        · exact hfull m hm hm₂
        · exact h₄ m hm₁ (by omega)
    · rw [if_neg hlt]
      have : n = upper := by omega
      subst this
      exact ⟨hle, Nat.le_refl _, hn, fun m h₁ h₂ => by omega⟩

theorem newest_spec (hfull : countCoverage coverage c lower upper ≠ upper + 1 - lower) :
    let newest := if 0 < countCoverage coverage c lower upper then
      newestMissing coverage c (upper - lower) lower upper else upper
    lower ≤ newest ∧ newest ≤ upper ∧ ¬ Covered coverage c newest ∧
      ∀ n, newest < n → n ≤ upper → Covered coverage c n := by
  obtain ⟨n, hlo, hhi, hn⟩ : ∃ n, lower ≤ n ∧ n ≤ upper ∧ ¬ Covered coverage c n := by
    by_contra hno
    push Not at hno
    exact hfull (countCoverage_eq_iff.mpr hno)
  dsimp only
  split
  · exact newestMissing_spec _ lower upper (Nat.le_refl _) (by omega) ⟨n, hlo, hhi, hn⟩
  next hzero =>
  refine ⟨by omega, Nat.le_refl _, ?_, fun m h₁ h₂ => by omega⟩
  intro hc
  have hmem : upper ∈ coveredBlocks coverage c lower upper :=
    mem_coveredBlocks.mpr ⟨hc, by omega, Nat.le_refl _⟩
  have := List.length_pos_of_mem hmem
  rw [countCoverage] at hzero
  omega

theorem findNewestGap_answer (hbatch : 1 ≤ batchSize) : GapAnswer coverage c lower upper batchSize
      (findNewestGap coverage c lower upper batchSize) := by
  simp only [findNewestGap]
  by_cases hfull : countCoverage coverage c lower upper = upper + 1 - lower
  · rw [if_pos hfull]
    exact countCoverage_eq_iff.mp hfull
  rw [if_neg hfull]
  obtain ⟨hlo, hhi, hmiss, habove⟩ := newest_spec hfull
  set newest := if 0 < countCoverage coverage c lower upper then
    newestMissing coverage c (upper - lower) lower upper else upper
  have hgap : GapAnswer coverage c (max lower (newest + 1 - batchSize)) newest batchSize
      (findGap coverage c (max lower (newest + 1 - batchSize)) newest batchSize) :=
    findGap_answer hbatch
  cases hf : findGap coverage c (max lower (newest + 1 - batchSize)) newest batchSize with
  | none =>
    rw [hf] at hgap
    exact absurd (hgap newest (by omega) (Nat.le_refl _)) hmiss
  | some gap =>
    rw [hf] at hgap
    obtain ⟨hg, hsize⟩ := hgap
    refine ⟨⟨?_, hg.ordered, Nat.le_trans hg.le_upper hhi, hg.missing, ?_⟩, hsize⟩
    · have := hg.lower_le
      omega
    intro n h₁ h₂
    by_cases hn : n ≤ newest
    · exact hg.above n h₁ hn
    · exact habove n (by omega) h₂

/-! ## 3. The progress row -/

structure SyncGapRepairTarget where
  collectionId : CollectionId
  repairId : String
  anchorBlock : Nat
  fromBlock : Nat
  toBlock : Nat

def getProgress (db : Db) (c : CollectionId) : Option SyncGapProgress :=
  (db.gapScans.get? c).map (·.progress)

/-- The `CHECK` constraints of `collection_sync_gap_scans`. -/
def SyncGapProgress.Storable (p : SyncGapProgress) : Prop :=
  1 ≤ p.anchorBlock ∧ (∀ n ∈ p.cursorBlock, p.anchorBlock ≤ n) ∧
    ∀ r ∈ p.pending, p.anchorBlock ≤ r.fromBlock ∧ r.fromBlock ≤ r.toBlock

instance (p : SyncGapProgress) : Decidable p.Storable := by
  unfold SyncGapProgress.Storable
  infer_instance

/-- Replace the progress of one collection. -/
def setProgress (db : Db) (c : CollectionId) (progress : SyncGapProgress) : Db :=
  { db with
    gapScans := db.gapScans.updateWhere (fun r => r.collectionId = c)
      (fun r => { r with progress := progress }) (fun _ => rfl) }

/-- `saveProgress`: the compare-and-set of the row.  Every column of the row takes part in the
comparison, so it compares the whole progress. -/
def saveProgress (c : CollectionId) (expected : Option SyncGapProgress)
    (progress : SyncGapProgress) : StoreM Bool := do
  let db ← get
  match expected with
  | none =>
    Tx.throwIf (¬ progress.Storable) (.sqliteConstraint "CHECK constraint failed")
    if db.gapScans.has c then pure false
    else
      Tx.throwIf (db.collections.has c = false) (.sqliteConstraint "FOREIGN KEY constraint failed")
      set { db with gapScans := db.gapScans.insertOrIgnore ⟨c, progress⟩ }
      pure true
  | some e =>
    if getProgress db c = some e then
      Tx.throwIf (¬ progress.Storable) (.sqliteConstraint "CHECK constraint failed")
      set (setProgress db c progress)
      pure true
    else pure false

/-- The row still holds the whole repair: the `WHERE` of `advanceRepair` and `updateRetry`. -/
def SyncGapProgress.holds (p : SyncGapProgress) (repair : SyncGapRepairTarget) : Bool :=
  p.anchorBlock = repair.anchorBlock &&
    p.pending.any (fun r => r.repairId = repair.repairId && r.fromBlock = repair.fromBlock &&
      r.toBlock = repair.toBlock)

/-- The pending range after a repair reached `remaining`. -/
def SyncGapProgress.advance (p : SyncGapProgress) (repairId : String) (remaining : Option (Nat × Nat))
    (retryAt : Nat) : SyncGapProgress :=
  { p with pending := remaining.map (fun r => ⟨repairId, r.1, r.2, retryAt⟩) }

section

variable (repair : SyncGapRepairTarget)

def recordRepairProgress (remaining : Option (Nat × Nat)) (retryAt : Nat) : StoreM Bool := do
  let db ← get
  match getProgress db repair.collectionId with
  | none => pure false
  | some p =>
    if p.holds repair then
      Tx.throwIf (¬ (p.advance repair.repairId remaining retryAt).Storable)
        (.sqliteConstraint "CHECK constraint failed")
      set (setProgress db repair.collectionId (p.advance repair.repairId remaining retryAt))
      pure true
    else pure false

def deferRetry (retryAt : Nat) (db : Db) : Db :=
  { db with
    gapScans := db.gapScans.updateWhere
      (fun r => r.collectionId = repair.collectionId && r.progress.holds repair)
      (fun r => { r with
        progress := { r.progress with
          pending := r.progress.pending.map (fun q => { q with retryAt := retryAt }) } })
      (fun _ => rfl) }

/-- `reconcileRepairCoverage`: cut the suffix that was covered since.  The anchor is at least 1, so
`fromBlock - 1` does not underflow. -/
def reconcileRepairCoverage (batchSize now : Nat) : StoreM (Option (SyncGapRepairTarget × (Nat × Nat))) :=
  Tx.writeTransaction do
    let db ← get
    match getProgress db repair.collectionId with
    | none => pure none
    | some p =>
      if p.holds repair then
        let lower := max repair.fromBlock (repair.toBlock + 1 - batchSize)
        let missing := findGap db.coverage repair.collectionId lower repair.toBlock batchSize
        let toBlock := missing.elim (lower - 1) (·.2)
        if toBlock ≠ repair.toBlock then
          let _ ← recordRepairProgress repair
            (if repair.fromBlock ≤ toBlock then some (repair.fromBlock, toBlock) else none) now
        pure (missing.map (fun gap => ({ repair with toBlock := toBlock }, gap)))
      else pure none

def isCurrentSyncGapRepair (collection : Option CollectionRecord)
    (progress : Option SyncGapProgress) : Bool :=
  match collection with
  | none => false
  | some c =>
    match c.gapRepairWindow repair.toBlock with
    | none => false
    | some window =>
      repair.anchorBlock = window.1 && window.1 ≤ repair.fromBlock && progress.any (fun p => p.holds repair)

def remainingSyncGapRepairRange (repairedFromBlock : Nat) : Option (Nat × Nat) :=
  if repair.fromBlock < repairedFromBlock then some (repair.fromBlock, repairedFromBlock - 1)
  else none

end

/-! ## 4. What the row operations do -/

theorem getProgress_setProgress {d : CollectionId} {p : SyncGapProgress} :
    getProgress (setProgress db c p) d =
      if d = c then (getProgress db c).map (fun _ => p) else getProgress db d := by
  simp only [getProgress, setProgress, Table.get?_updateWhere, Option.map_map]
  cases hrow : db.gapScans.get? d with
  | none =>
    split
    · next h => subst h; rw [hrow]; rfl
    · rfl
  | some r =>
    obtain ⟨-, hkey⟩ := Table.get?_eq_some.mp hrow
    split
    · next h => subst h; rw [hrow]; simp [hkey]
    · next h => simp [hkey, h]

theorem SyncGapProgress.holds_iff {p : SyncGapProgress} :
    p.holds repair = true ↔ p.anchorBlock = repair.anchorBlock ∧
      ∃ q, p.pending = some q ∧ q.repairId = repair.repairId ∧ q.fromBlock = repair.fromBlock ∧
        q.toBlock = repair.toBlock := by
  simp only [holds, Bool.and_eq_true, decide_eq_true_eq, Option.any_eq_true, and_assoc]

theorem saveProgress_effect {expected : Option SyncGapProgress}
    {progress : SyncGapProgress} {saved : Bool}
    (h : Tx.Returns (saveProgress c expected progress) db saved db') :
    (saved = false ∧ db' = db) ∨ (saved = true ∧ progress.Storable ∧ getProgress db c = expected ∧
        (∀ d, getProgress db' d = if d = c then some progress else getProgress db d) ∧
        ∃ scans, db' = { db with gapScans := scans }) := by
  simp only [saveProgress, Tx.returns_bind, Tx.returns_get] at h
  obtain ⟨_, _, ⟨rfl, rfl⟩, h⟩ := h
  cases expected with
  | none =>
    simp only [Tx.returns_bind, Tx.returns_throwIf] at h
    obtain ⟨_, _, ⟨hst, rfl⟩, h⟩ := h
    split at h
    · rw [Tx.returns_pure] at h
      exact Or.inl ⟨h.1.symm, h.2.symm⟩
    next hhas =>
    simp only [Tx.returns_bind, Tx.returns_throwIf, Tx.returns_set, Tx.returns_pure] at h
    obtain ⟨_, _, ⟨-, rfl⟩, _, _, rfl, rfl, rfl⟩ := h
    rw [Bool.not_eq_true] at hhas
    have hnone : db.gapScans.get? c = none :=
      Table.get?_eq_none.mpr (Table.not_has_iff.mp hhas)
    refine Or.inr ⟨rfl, by simpa using hst, by rw [getProgress, hnone]; rfl, ?_, _, rfl⟩
    intro d
    simp only [getProgress, Table.get?_insertOrIgnore]
    by_cases hd : d = c
    · subst hd
      simp [hnone]
    · simp [hd, Ne.symm hd]
  | some e =>
    simp only [Tx.returns_ite, Tx.returns_bind, Tx.returns_throwIf, Tx.returns_set, Tx.returns_pure] at h
    rcases h with ⟨hrow, _, _, ⟨hst, rfl⟩, _, _, rfl, rfl, rfl⟩ | ⟨-, rfl, rfl⟩
    · refine Or.inr ⟨rfl, by simpa using hst, hrow, ?_, _, rfl⟩
      intro d
      rw [getProgress_setProgress]
      split
      · rw [hrow]; rfl
      · rfl
    · exact Or.inl ⟨rfl, rfl⟩

/-- `recordRepairProgress` advances the row that still holds the whole repair, or changes
nothing. -/
theorem recordRepairProgress_effect {remaining : Option (Nat × Nat)}
    {retryAt : Nat} {advanced : Bool}
    (h : Tx.Returns (recordRepairProgress repair remaining retryAt) db advanced db') :
    (advanced = false ∧ db' = db) ∨ (advanced = true ∧ ∃ p, getProgress db repair.collectionId = some p ∧
        p.holds repair = true ∧ (p.advance repair.repairId remaining retryAt).Storable ∧
        db' = setProgress db repair.collectionId (p.advance repair.repairId remaining retryAt)) := by
  simp only [recordRepairProgress, Tx.returns_bind, Tx.returns_get] at h
  obtain ⟨_, _, ⟨rfl, rfl⟩, h⟩ := h
  split at h
  · rw [Tx.returns_pure] at h
    exact Or.inl ⟨h.1.symm, h.2.symm⟩
  next p hp =>
  simp only [Tx.returns_ite, Tx.returns_bind, Tx.returns_throwIf, Tx.returns_set, Tx.returns_pure] at h
  rcases h with ⟨hholds, _, _, ⟨hst, rfl⟩, _, _, rfl, rfl, rfl⟩ | ⟨-, rfl, rfl⟩
  · exact Or.inr ⟨rfl, p, hp, hholds, by simpa using hst, rfl⟩
  · exact Or.inl ⟨rfl, rfl⟩

/-- A repair of `[lower, upper]` is down to `remaining`: a prefix is left, and what is above it is
covered. -/
def RepairedTo (coverage : CoverageTable) (c : CollectionId) (lower upper : Nat) : Option (Nat × Nat) → Prop
  | none => ∀ n, lower ≤ n → n ≤ upper → Covered coverage c n
  | some rest => rest.1 = lower ∧ rest.2 ≤ upper ∧
      ∀ n, rest.2 < n → n ≤ upper → Covered coverage c n

/-- A pending repair shrinks: the one way in which repairs change the progress table. -/
inductive RepairStep (db : Db) : Db → Prop
  | advance {repair : SyncGapRepairTarget} {p : SyncGapProgress} {remaining : Option (Nat × Nat)}
      {retryAt : Nat} :
      getProgress db repair.collectionId = some p → p.holds repair = true →
      (p.advance repair.repairId remaining retryAt).Storable →
      RepairedTo db.coverage repair.collectionId repair.fromBlock repair.toBlock remaining →
      RepairStep db (setProgress db repair.collectionId (p.advance repair.repairId remaining retryAt))

theorem reconcileRepairCoverage_atomic (repair : SyncGapRepairTarget) (batchSize now : Nat) :
    Tx.Atomic (reconcileRepairCoverage repair batchSize now) :=
  Tx.atomic_writeTransaction _

theorem reconcileRepairCoverage_effect {now : Nat}
    {answer : Option (SyncGapRepairTarget × (Nat × Nat))} (hbatch : 1 ≤ batchSize)
    (h : Tx.Returns (reconcileRepairCoverage repair batchSize now) db answer db') :
    db' = db ∨ RepairStep db db' := by
  simp only [reconcileRepairCoverage, Tx.returns_writeTransaction, Tx.returns_bind, Tx.returns_get] at h
  obtain ⟨_, _, ⟨rfl, rfl⟩, h⟩ := h
  split at h
  · rw [Tx.returns_pure] at h
    exact Or.inl h.2.symm
  next p hp =>
  rw [Tx.returns_ite] at h
  rcases h with ⟨-, h⟩ | ⟨-, h⟩
  swap
  · rw [Tx.returns_pure] at h
    exact Or.inl h.2.symm
  set lower := max repair.fromBlock (repair.toBlock + 1 - batchSize) with hlower
  have hanswer : GapAnswer db.coverage repair.collectionId lower repair.toBlock batchSize
      (findGap db.coverage repair.collectionId lower repair.toBlock batchSize) :=
    findGap_answer hbatch
  set missing := findGap db.coverage repair.collectionId lower repair.toBlock batchSize
  set upper := missing.elim (lower - 1) (·.2) with hupper
  split at h
  swap
  · rw [Tx.returns_pure] at h
    exact Or.inl h.2.symm
  next hne =>
  simp only [Tx.returns_bind, Tx.returns_pure] at h
  obtain ⟨advanced, db₁, hrec, -, rfl⟩ := h
  rcases recordRepairProgress_effect hrec with ⟨-, rfl⟩ | ⟨-, q, hq, hholds, hst, rfl⟩
  · exact Or.inl rfl
  refine Or.inr (.advance hq hholds hst ?_)
  -- the blocks above the new upper end are covered, whether the window has a gap or not
  have habove : ∀ n, upper < n → n ≤ repair.toBlock → Covered db.coverage repair.collectionId n := by
    intro n hlt hle
    cases hm : missing with
    | none =>
      rw [hm] at hanswer hupper
      simp only [Option.elim_none] at hupper
      exact hanswer n (by omega) hle
    | some gap =>
      rw [hm] at hanswer hupper
      simp only [Option.elim_some] at hupper
      exact hanswer.1.above n (by omega) hle
  have hupperLe : repair.fromBlock ≤ upper → upper ≤ repair.toBlock := by
    intro hfrom
    cases hm : missing with
    | none =>
      rw [hm, Option.elim_none] at hupper
      omega
    | some gap =>
      rw [hm] at hanswer hupper
      rw [Option.elim_some] at hupper
      have := hanswer.1.le_upper
      omega
  split
  · next hfrom => exact ⟨rfl, hupperLe hfrom, habove⟩
  · next hfrom =>
    intro n h₁ h₂
    exact habove n (by omega) h₂

theorem remainingSyncGapRepairRange_repaired {repairedFrom : Nat} (hle : repairedFrom ≤ repair.toBlock + 1)
    (h : ∀ n, repairedFrom ≤ n → n ≤ repair.toBlock → Covered coverage repair.collectionId n) :
    RepairedTo coverage repair.collectionId repair.fromBlock repair.toBlock
      (remainingSyncGapRepairRange repair repairedFrom) := by
  rw [remainingSyncGapRepairRange]
  split
  · next hlt => exact ⟨rfl, by simp only; omega, fun n h₁ h₂ => h n (by simp only at h₁; omega) h₂⟩
  · next hge => exact fun n h₁ h₂ => h n (by omega) h₂

end Artgod.Indexer
