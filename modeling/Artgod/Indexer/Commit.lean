/-
# Committing a synced range

`SqliteSyncRangeCommit.commitSyncRange`: one transaction that checks that the acquisition still owns its range,
persists the result, enqueues the follow-up jobs and advances the work the range was acquired for.
-/
import Artgod.Indexer.Gaps
import Mathlib.Logic.Relation

namespace Artgod.Indexer

open Store

/-! ## 1. The transaction -/

structure SyncGapRepairBatch where
  fromBlock : Nat
  toBlock : Nat
  repairs : List SyncGapRepairTarget

inductive SyncWorkCompletion where
  | unmanaged
  | gapRepair (batch : SyncGapRepairBatch) (retryAt : Nat)
  | reorgResync (range : ReorgResyncRange) (batchSize retryAt : Nat)

structure SyncRangeCommit where
  result : SyncRangeResult
  followUps : List SyncFollowUp
  completion : SyncWorkCompletion

/-- The members of a gap batch: each repair is current and takes one collection of `acquired`. -/
def assertRepairsCurrent (db : Db) (batch : SyncGapRepairBatch) :
    List CollectionId → List SyncGapRepairTarget → Except SyncError Unit
  | _, [] => .ok ()
  | acquired, repair :: rest =>
    if repair.collectionId ∉ acquired ∨ batch.fromBlock < repair.fromBlock ∨
        batch.toBlock ≠ repair.toBlock ∨
        isCurrentSyncGapRepair repair (db.collections.get? repair.collectionId)
          (getProgress db repair.collectionId) = false then
      .error (.chainSyncConflict "Gap acquisition no longer owns its member range")
    else assertRepairsCurrent db batch (acquired.erase repair.collectionId) rest

section

variable (input : SyncRangeCommit)

def assertCurrent (db : Db) : Except SyncError Unit :=
  match input.completion with
  | .unmanaged => .ok ()
  | .reorgResync range _ _ => do
    assertSyncBlocksCoverRange input.result.blocks range.fromBlock range.toBlock
    if range.revision ≠ input.result.checkpoint.revision ∨ currentReorgRange db.recovery range = none then
      .error (.chainSyncConflict "Reorg acquisition no longer owns its range")
    else .ok ()
  | .gapRepair batch _ => do
    assertSyncBlocksCoverRange input.result.blocks batch.fromBlock batch.toBlock
    let acquired := (input.result.collections.map (·.id)).dedup
    if batch.repairs = [] ∨ acquired.length ≠ batch.repairs.length then
      .error (.chainSyncConflict "Gap acquisition has different members")
    else assertRepairsCurrent db batch acquired batch.repairs

/-- `enqueueSyncFollowUp`: the id is qualified by the revision, and an id that is there already is
left alone. -/
def enqueueSyncFollowUp (revision : Nat) (outbox : Table OutboxRow.key) (followUp : SyncFollowUp) :
    Table OutboxRow.key :=
  let jobId := followUp.job.jobId ++ ":chain-revision:" ++ toString revision
  match followUp with
  | .range job =>
    outbox.insertOrIgnore ⟨{ job with jobId := jobId }, none, none⟩
  | .event job block =>
    outbox.insertOrIgnore ⟨{ job with jobId := jobId, onchainBlock := some block }, some block.blockNumber,
        some block.blockHash⟩

/-- One repair of a committed batch. -/
def completeRepair (batch : SyncGapRepairBatch) (retryAt : Nat) (repair : SyncGapRepairTarget) :
    StoreM Unit := do
  let advanced ← recordRepairProgress repair (remainingSyncGapRepairRange repair batch.fromBlock) retryAt
  Tx.throwIf (advanced = false)
    (.chainSyncConflict "Gap repair completion changed inside sync commit")

/-- The end of `commitSyncRange`: advance the work the range was acquired for. -/
def completeWork : SyncWorkCompletion → StoreM Unit
  | .unmanaged => pure ()
  | .gapRepair batch retryAt => batch.repairs.forM (completeRepair batch retryAt)
  | .reorgResync range batchSize retryAt => do
    let completed ← completeResyncRange range batchSize retryAt
    Tx.throwIf (completed = false)
      (.chainSyncConflict "Reorg range completion changed inside sync commit")

def commitSyncRange : StoreM Unit :=
  Tx.writeTransaction do
    let db ← get
    Tx.check (assertCurrent input db)
    Tx.check (assertSyncFollowUpsMatchBlocks input.result.blocks
      (input.result.collections.map (·.id)) input.followUps)
    persistSyncResult input.result
    modify (fun db =>
      { db with
        outbox := input.followUps.foldl (enqueueSyncFollowUp input.result.checkpoint.revision) db.outbox })
    completeWork input.completion

/-! ## 2. Its effect -/

theorem commitSyncRange_atomic (input : SyncRangeCommit) : Tx.Atomic (commitSyncRange input) :=
  Tx.atomic_writeTransaction _

/-- What `completeWork` did to the database, given what `assertCurrent` checked. -/
def CompletionEffect (db db' : Db) : Prop :=
  match input.completion with
  | .unmanaged => db' = db
  | .gapRepair batch _ =>
    (∀ n, (∃ b ∈ input.result.blocks, b.number = n) ↔ batch.fromBlock ≤ n ∧ n ≤ batch.toBlock) ∧
      Relation.ReflTransGen RepairStep db db'
  | .reorgResync range batchSize retryAt =>
    (∀ n, (∃ b ∈ input.result.blocks, b.number = n) ↔ range.fromBlock ≤ n ∧ n ≤ range.toBlock) ∧
      range.revision = input.result.checkpoint.revision ∧
      ∃ current, db.recovery = some (.resync current) ∧ current.range = range ∧
        (∀ next ∈ advanceReorgResync current batchSize retryAt, (ReorgRecoveryState.resync next).Storable) ∧
        db' = { db with
          recovery := (advanceReorgResync current batchSize retryAt).map .resync }

/-- What a commit that returned did. -/
def CommitEffect (db db' : Db) : Prop :=
  ∃ db₁ outbox, PersistEffect input.result db db₁ ∧ CompletionEffect input { db₁ with outbox := outbox } db'

end

variable {db db' : Db} {input : SyncRangeCommit} {batch : SyncGapRepairBatch} {retryAt : Nat}

theorem assertRepairsCurrent_ok : ∀ {acquired : List CollectionId} {repairs : List SyncGapRepairTarget},
      assertRepairsCurrent db batch acquired repairs = .ok () → ∀ r ∈ repairs,
        r.collectionId ∈ acquired ∧ r.fromBlock ≤ batch.fromBlock ∧ r.toBlock = batch.toBlock
  | _, [], _, r, hr => absurd hr (by simp)
  | acquired, repair :: rest, h, r, hr => by
    rw [assertRepairsCurrent] at h
    split at h
    · exact absurd h (by simp)
    next hc =>
    push Not at hc
    obtain ⟨hmem, hfrom, hto, -⟩ := hc
    rcases List.mem_cons.mp hr with rfl | hr
    · exact ⟨hmem, hfrom, hto.symm⟩
    · obtain ⟨h₁, h₂⟩ := assertRepairsCurrent_ok h r hr
      exact ⟨List.mem_of_mem_erase h₁, h₂⟩

theorem RepairStep.rest (h : RepairStep db db') : ∃ scans, db' = { db with gapScans := scans } := by
  cases h with
  | advance => exact ⟨_, rfl⟩

theorem repairSteps_rest (h : Relation.ReflTransGen RepairStep db db') :
    ∃ scans, db' = { db with gapScans := scans } := by
  induction h with
  | refl => exact ⟨_, rfl⟩
  | tail _ hstep ih =>
    obtain ⟨scans, rfl⟩ := ih
    obtain ⟨scans', rfl⟩ := hstep.rest
    exact ⟨scans', rfl⟩

theorem completeRepairs_steps {u : Unit}
    (hcov : ∀ r ∈ batch.repairs, batch.fromBlock ≤ r.toBlock + 1 ∧
      ∀ n, batch.fromBlock ≤ n → n ≤ r.toBlock → Covered db.coverage r.collectionId n)
    (h : Tx.Returns (batch.repairs.forM (completeRepair batch retryAt)) db u db') :
    Relation.ReflTransGen RepairStep db db' := by
  refine Tx.Returns.forM_induct (I := fun t => Relation.ReflTransGen RepairStep db t) h .refl ?_
  intro r hr t t' v hsteps hone
  simp only [completeRepair, Tx.returns_bind, Tx.returns_throwIf] at hone
  obtain ⟨advanced, t₁, hrec, hadv, rfl⟩ := hone
  obtain ⟨scans, rfl⟩ := repairSteps_rest hsteps
  rcases recordRepairProgress_effect hrec with ⟨hno, -⟩ | ⟨-, p, hp, hholds, hst, rfl⟩
  · exact absurd hno hadv
  · obtain ⟨hle, hc⟩ := hcov r hr
    exact hsteps.tail (.advance hp hholds hst (remainingSyncGapRepairRange_repaired hle hc))

theorem assertCurrent_reorg {range : ReorgResyncRange}
    {batchSize : Nat} (hc : input.completion = .reorgResync range batchSize retryAt)
    (h : assertCurrent input db = .ok ()) :
    assertSyncBlocksCoverRange input.result.blocks range.fromBlock range.toBlock = .ok () ∧
      range.revision = input.result.checkpoint.revision := by
  simp only [assertCurrent, hc, bind, Except.bind] at h
  split at h
  · exact absurd h (by simp)
  next hcover =>
  split at h
  · exact absurd h (by simp)
  · next hown =>
    push Not at hown
    exact ⟨hcover, hown.1⟩

theorem assertCurrent_gap (hc : input.completion = .gapRepair batch retryAt)
    (h : assertCurrent input db = .ok ()) :
    assertSyncBlocksCoverRange input.result.blocks batch.fromBlock batch.toBlock = .ok () ∧
      ∀ r ∈ batch.repairs, (∃ c ∈ input.result.collections, c.id = r.collectionId) ∧
        r.fromBlock ≤ batch.fromBlock ∧ r.toBlock = batch.toBlock := by
  simp only [assertCurrent, hc, bind, Except.bind] at h
  split at h
  · exact absurd h (by simp)
  next hcover =>
  split at h
  · exact absurd h (by simp)
  refine ⟨hcover, fun r hr => ?_⟩
  obtain ⟨hmem, hfrom, hto⟩ := assertRepairsCurrent_ok h r hr
  rw [List.mem_dedup, List.mem_map] at hmem
  exact ⟨hmem, hfrom, hto⟩

theorem assertSyncBlocksCoverRange_le {blocks : List SyncBlockHeader} {fromBlock toBlock : Nat}
    (h : assertSyncBlocksCoverRange blocks fromBlock toBlock = .ok ()) :
    fromBlock ≤ toBlock + 1 := by
  simp only [assertSyncBlocksCoverRange] at h
  split at h
  · exact absurd h (by simp)
  · next hc =>
    push Not at hc
    omega

theorem commitSyncRange_effect {u : Unit}
    (h : Tx.Returns (commitSyncRange input) db u db') : CommitEffect input db db' := by
  simp only [commitSyncRange, Tx.returns_writeTransaction, Tx.returns_bind, Tx.returns_get,
    Tx.returns_check, Tx.returns_modify] at h
  obtain ⟨_, _, ⟨rfl, rfl⟩, _, _, ⟨hcur, rfl⟩, _, _, ⟨-, rfl⟩, _, db₁, hpersist, _, _, rfl, hwork⟩ := h
  have heff := persistSyncResult_effect hpersist
  refine ⟨db₁, input.followUps.foldl (enqueueSyncFollowUp input.result.checkpoint.revision)
    db₁.outbox, heff, ?_⟩
  rw [CompletionEffect.eq_def]
  cases hc : input.completion with
  | unmanaged =>
    rw [hc] at hwork
    exact (Tx.returns_pure.mp hwork).2.symm
  | gapRepair batch retryAt =>
    rw [hc] at hwork
    obtain ⟨hcover, hmembers⟩ := assertCurrent_gap hc hcur
    refine ⟨assertSyncBlocksCoverRange_iff hcover, completeRepairs_steps (fun r hr => ?_) hwork⟩
    obtain ⟨⟨c, hcmem, hcid⟩, -, hto⟩ := hmembers r hr
    rw [hto]
    refine ⟨assertSyncBlocksCoverRange_le hcover, fun n hlo hhi => ?_⟩
    -- the commit covered its headers for every collection it acquired
    obtain ⟨b, hb, rfl⟩ := (assertSyncBlocksCoverRange_iff hcover n).mpr ⟨hlo, hhi⟩
    rw [Covered, heff.coverage, mem_persistCollectionSyncBlocks]
    exact Or.inr ⟨c, hcmem, b, hb, by rw [hcid]⟩
  | reorgResync range batchSize retryAt =>
    rw [hc] at hwork
    obtain ⟨hcover, hrev⟩ := assertCurrent_reorg hc hcur
    simp only [completeWork, Tx.returns_bind, Tx.returns_throwIf] at hwork
    obtain ⟨completed, _, hcomplete, hdone, rfl⟩ := hwork
    rcases completeResyncRange_effect hcomplete with ⟨hno, -⟩ | ⟨-, current, hrec, hrange, -, hst, rfl⟩
    · exact absurd hno hdone
    · exact ⟨assertSyncBlocksCoverRange_iff hcover, hrev, current, hrec, hrange, hst, rfl⟩

theorem CompletionEffect.rest (h : CompletionEffect input db db') :
    ∃ scans recovery, db' = { db with gapScans := scans, recovery := recovery } := by
  rw [CompletionEffect.eq_def] at h
  split at h
  · exact ⟨_, _, h⟩
  · obtain ⟨scans, rfl⟩ := repairSteps_rest h.2
    exact ⟨_, _, rfl⟩
  · obtain ⟨-, -, current, -, -, -, rfl⟩ := h
    exact ⟨_, _, rfl⟩

theorem CommitEffect.persisted (h : CommitEffect input db db') :
    ∃ db₁ outbox scans recovery, PersistEffect input.result db db₁ ∧
      db' = { db₁ with outbox := outbox, gapScans := scans, recovery := recovery } := by
  obtain ⟨db₁, outbox, hpersist, hcomplete⟩ := h
  obtain ⟨scans, recovery, rfl⟩ := hcomplete.rest
  exact ⟨db₁, outbox, scans, recovery, hpersist, rfl⟩

theorem CommitEffect.recovery (h : CommitEffect input db db') : db'.recovery = db.recovery ∨
      ∃ range batchSize retryAt current, input.completion = .reorgResync range batchSize retryAt ∧
        (∀ n, (∃ b ∈ input.result.blocks, b.number = n) ↔ range.fromBlock ≤ n ∧ n ≤ range.toBlock) ∧
        range.revision = input.result.checkpoint.revision ∧
        db.recovery = some (.resync current) ∧ current.range = range ∧
        (∀ next ∈ advanceReorgResync current batchSize retryAt, (ReorgRecoveryState.resync next).Storable) ∧
        db'.recovery = (advanceReorgResync current batchSize retryAt).map .resync := by
  obtain ⟨db₁, outbox, hpersist, hcomplete⟩ := h
  have hsame : db₁.recovery = db.recovery := by rw [hpersist.rest]
  rw [CompletionEffect.eq_def] at hcomplete
  split at hcomplete
  · rw [hcomplete]
    exact Or.inl hsame
  · obtain ⟨scans, rfl⟩ := repairSteps_rest hcomplete.2
    exact Or.inl hsame
  next range batchSize retryAt hc =>
  obtain ⟨hcover, hrev, current, hrec, hrange, hst, rfl⟩ := hcomplete
  exact Or.inr ⟨range, batchSize, retryAt, current, hc, hcover, hrev, hsame ▸ hrec, hrange, hst,
    rfl⟩

end Artgod.Indexer
