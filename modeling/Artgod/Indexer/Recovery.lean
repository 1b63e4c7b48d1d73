/-
# Reorg recovery and canonical checks

The recovery journal of a chain: its pure transitions (`domain/reorg-recovery.ts`), the row that retains them
and the pending canonical checks that feed it.  A recovery awaits an ancestor, or resyncs a finite range that is
handed out in batches; each operation has one lemma that says what a call that returned did.
-/
import Artgod.Indexer.Rollback

namespace Artgod.Indexer

open Store

/-! ## 1. Transitions -/

/-- What `retainReorgMismatch` is told about a mismatch. -/
structure ReorgMismatch where
  checkpoint : ChainSyncCheckpoint
  recoveryId : String
  checkedBlock : Nat
  storedHash : Hash
  observedHash : Hash
  now : Nat

/-- `retainReorgMismatch`: the lowest known mismatch covers later ones when it is rolled back. -/
def retainReorgMismatch (current : Option ReorgRecoveryState) (input : ReorgMismatch) :
    AwaitingReorgAncestor :=
  let retained (version : Nat) (resumeFrom : Option Nat) : AwaitingReorgAncestor :=
    { base :=
        { recoveryId := input.recoveryId
          revision := input.checkpoint.revision
          version := version
          checkedBlock := input.checkedBlock
          storedHash := input.storedHash
          observedHash := input.observedHash
          retryAt := input.now }
      resumeFrom := resumeFrom }
  match current with
  | none => retained 0 none
  | some (.resync state) => retained (state.base.version + 1) (some state.fromBlock)
  | some (.awaitingAncestor state) =>
    if state.base.revision = input.checkpoint.revision ∧
        state.base.checkedBlock ≤ input.checkedBlock then state
    else retained (state.base.version + 1) state.resumeFrom

/-- `beginReorgResync`: the canonical window up to the captured head, or nothing. -/
def beginReorgResync (recovery : AwaitingReorgAncestor) (rollbackFrom head batchSize retryAt : Nat) :
    Except SyncError (Option ReorgResync) :=
  if head + 1 < rollbackFrom then
    .error (.chainSyncConflict "Recovery head is behind the verified fork")
  else
    let fromBlock := min rollbackFrom (recovery.resumeFrom.getD rollbackFrom)
    if head < fromBlock then .ok none
    else
      .ok (some
        { base :=
            { recovery.base with
              revision := recovery.base.revision + 1
              version := recovery.base.version + 1
              retryAt := retryAt }
          fromBlock := fromBlock
          toBlock := min head (fromBlock + batchSize - 1)
          targetBlock := head })

/-- `advanceReorgResync`: the next batch, or nothing when the target is reached. -/
def advanceReorgResync (recovery : ReorgResync) (batchSize retryAt : Nat) : Option ReorgResync :=
  let fromBlock := recovery.toBlock + 1
  if recovery.targetBlock < fromBlock then none
  else
    some
      { base := { recovery.base with version := recovery.base.version + 1, retryAt := retryAt }
        fromBlock := fromBlock
        toBlock := min recovery.targetBlock (fromBlock + batchSize - 1)
        targetBlock := recovery.targetBlock }

structure ReorgResyncRange where
  recoveryId : String
  revision : Nat
  fromBlock : Nat
  toBlock : Nat
deriving DecidableEq

def ReorgResync.range (state : ReorgResync) : ReorgResyncRange :=
  ⟨state.base.recoveryId, state.base.revision, state.fromBlock, state.toBlock⟩

/-- `isCurrentReorgRange`: the resync state whose current range this is. -/
def currentReorgRange (recovery : Option ReorgRecoveryState) (range : ReorgResyncRange) :
    Option ReorgResync :=
  match recovery with
  | some (.resync state) => if state.range = range then some state else none
  | _ => none

theorem currentReorgRange_eq_some {recovery : Option ReorgRecoveryState} {range : ReorgResyncRange}
    {state : ReorgResync} (h : currentReorgRange recovery range = some state) :
    recovery = some (.resync state) ∧ state.range = range := by
  rw [currentReorgRange.eq_def] at h
  split at h
  · split at h
    · next hr =>
      rw [Option.some.injEq] at h
      exact h ▸ ⟨rfl, hr⟩
    · exact absurd h (by simp)
  · exact absurd h (by simp)

/-! ## 2. The journal row -/

/-- The `CHECK` constraints of `chain_reorg_recoveries`. -/
def ReorgRecoveryState.Storable : ReorgRecoveryState → Prop
  | .awaitingAncestor s => 0 < s.base.checkedBlock ∧ ∀ r ∈ s.resumeFrom, 1 ≤ r
  | .resync s =>
    0 < s.base.checkedBlock ∧ 1 ≤ s.fromBlock ∧ s.fromBlock ≤ s.toBlock ∧ s.toBlock ≤ s.targetBlock

instance (s : ReorgRecoveryState) : Decidable s.Storable := by
  cases s <;> simp only [ReorgRecoveryState.Storable] <;> infer_instance

/-- `save`. -/
def saveRecovery (state : ReorgRecoveryState) : StoreM Unit := do
  Tx.throwIf (¬ state.Storable) (.sqliteConstraint "CHECK constraint failed")
  modify (fun db => { db with recovery := some state })

/-- `remove`. -/
def removeRecovery : StoreM Unit := modify (fun db => { db with recovery := none })

/-- `assertCheckpoint` of the recovery store. -/
def assertRecoveryCheckpoint (revision : Nat) : StoreM Unit := do
  let db ← get
  Tx.throwIf (db.revision ≠ revision) (.chainSyncConflict "Recovery chain revision changed")

/-- The phases agree. -/
def ReorgRecoveryState.samePhase : ReorgRecoveryState → ReorgRecoveryState → Bool
  | .awaitingAncestor _, .awaitingAncestor _ => true
  | .resync _, .resync _ => true
  | _, _ => false

/-- `assertCurrent`: identity, version and phase of the row that the caller read. -/
def assertCurrentRecovery (expected : ReorgRecoveryState) : StoreM Unit := do
  let db ← get
  match db.recovery with
  | none => throw (.chainSyncConflict "Reorg recovery changed during processing")
  | some current =>
    Tx.throwIf (current.base.recoveryId ≠ expected.base.recoveryId ∨
        current.base.revision ≠ expected.base.revision ∨
        current.base.version ≠ expected.base.version ∨ current.samePhase expected = false)
      (.chainSyncConflict "Reorg recovery changed during processing")

/-! ## 3. Canonical checks -/

structure PendingCanonicalCheck where
  blockNumber : Nat
  blockHash : Hash
  checkpoint : ChainSyncCheckpoint
deriving DecidableEq

variable (check : PendingCanonicalCheck)

/-- The row a check names, by height and hash. -/
def PendingCanonicalCheck.describes (r : BlockRow) : Bool :=
  r.number = check.blockNumber && r.hash = check.blockHash

/-- `SqliteCanonicalChecks.retain`: an explicit conflict arms a check again. -/
def retainCheck : StoreM Bool :=
  Tx.writeTransaction do
    assertSyncCheckpoint check.checkpoint
    let db ← get
    set { db with
      blocks := db.blocks.updateWhere check.describes
        (fun r =>
          { r with
            canonicalCheckRetryAt := if r.canonicalCheckPending then r.canonicalCheckRetryAt else 0
            canonicalCheckPending := true })
        (fun _ => rfl) }
    return (db.blocks.select check.describes).length = 1

/-- `SqliteCanonicalChecks.complete`. -/
def completeCheck : StoreM Bool :=
  Tx.writeTransaction do
    assertSyncCheckpoint check.checkpoint
    let db ← get
    let p := fun r : BlockRow => check.describes r && r.canonicalCheckPending
    set { db with
      blocks := db.blocks.updateWhere p
        (fun r => { r with canonicalCheckPending := false, canonicalCheckRetryAt := 0 })
        (fun _ => rfl) }
    return (db.blocks.select p).length = 1

/-- `SqliteCanonicalChecks.defer`. -/
def deferCheck (retryAt : Nat) : StoreM Unit :=
  Tx.writeTransaction do
    assertSyncCheckpoint check.checkpoint
    modify (fun db =>
      { db with
        blocks := db.blocks.updateWhere (fun r => check.describes r && r.canonicalCheckPending)
          (fun r => { r with canonicalCheckRetryAt := retryAt }) (fun _ => rfl) })

/-! ## 4. Operations on the journal -/

/-- `retainMismatch`: journal the mismatch and consume the check that found it. -/
def retainMismatch (input : ReorgMismatch) : StoreM AwaitingReorgAncestor :=
  Tx.writeTransaction do
    assertRecoveryCheckpoint input.checkpoint.revision
    let db ← get
    Tx.throwIf (getBlockHash db input.checkedBlock ≠ some input.storedHash)
      (.chainSyncConflict "Mismatch no longer describes persisted history")
    let next := retainReorgMismatch db.recovery input
    if db.recovery ≠ some (.awaitingAncestor next) then saveRecovery (.awaitingAncestor next)
    let completed ← completeCheck ⟨input.checkedBlock, input.storedHash, input.checkpoint⟩
    Tx.throwIf (completed = false)
      (.chainSyncConflict "Mismatch check no longer describes pending verification")
    return next

def refreshCheckpoint (expected : ReorgRecoveryState) (checkpoint : ChainSyncCheckpoint)
    (recoveryId : String) (now : Nat) : StoreM Unit :=
  Tx.writeTransaction do
    assertCurrentRecovery expected
    assertRecoveryCheckpoint checkpoint.revision
    saveRecovery (.awaitingAncestor (retainReorgMismatch (some expected)
      { checkpoint := checkpoint
        recoveryId := recoveryId
        checkedBlock := expected.base.checkedBlock
        storedHash := expected.base.storedHash
        observedHash := expected.base.observedHash
        now := now }))

/-- `deferProof`: only the retry time of the awaiting row that the caller read. -/
def deferProof (expected : AwaitingReorgAncestor) (retryAt : Nat) (db : Db) : Db :=
  match db.recovery with
  | some (.awaitingAncestor s) =>
    if s.base.recoveryId = expected.base.recoveryId ∧ s.base.version = expected.base.version then
      { db with
        recovery := some (.awaitingAncestor { s with base := { s.base with retryAt := retryAt } }) }
    else db
  | _ => db

/-- `deferResync`: only the retry time of the range that failed. -/
def deferResync (range : ReorgResyncRange) (retryAt : Nat) (db : Db) : Db :=
  match currentReorgRange db.recovery range with
  | some s =>
    { db with recovery := some (.resync { s with base := { s.base with retryAt := retryAt } }) }
  | none => db

structure ReorgHistorySnapshot where
  checkpoint : ChainSyncCheckpoint
  fromBlock : Nat
  toBlock : Nat
  headers : List SyncBlockHeader
deriving DecidableEq

structure ReorgAncestorProof where
  fork : SyncBlockHeader
  history : ReorgHistorySnapshot
deriving DecidableEq

def BlockRow.header (r : BlockRow) : SyncBlockHeader :=
  ⟨r.number, r.hash, r.parentHash, r.timestamp⟩

/-- `captureReorgHistory`: the stored headers of the window, in order. -/
def captureReorgHistory (db : Db) (fromBlock toBlock : Nat) : ReorgHistorySnapshot where
  checkpoint := captureSyncCheckpoint db
  fromBlock := fromBlock
  toBlock := toBlock
  headers :=
    ((db.blocks.select (fun r => fromBlock ≤ r.number && r.number ≤ toBlock)).map
      BlockRow.header).insertionSort (fun a b => a.number ≤ b.number)

def assertReorgHistoryUnchanged (expected : ReorgHistorySnapshot) : StoreM Unit := do
  assertSyncCheckpoint expected.checkpoint
  let db ← get
  Tx.throwIf
    ((captureReorgHistory db expected.fromBlock expected.toBlock).headers ≠ expected.headers)
    (.chainSyncConflict "Reorg ancestor history changed during preparation")

/-- The input of `commitRollbackAndResync`. -/
structure RollbackCommit where
  expected : AwaitingReorgAncestor
  proof : ReorgAncestorProof
  plan : ReorgRollbackPlan
  snapshot : Erc721RollbackSnapshot
  next : Option ReorgResync

/-- `commitRollbackAndResync`: rollback and resync progress in one transaction. -/
def commitRollbackAndResync (input : RollbackCommit) : StoreM Unit :=
  Tx.writeTransaction do
    assertCurrentRecovery (.awaitingAncestor input.expected)
    Tx.throwIf (input.plan.checkpoint.revision ≠ input.expected.base.revision ∨
        input.proof.history.checkpoint.revision ≠ input.expected.base.revision ∨
        input.proof.history.toBlock ≠ input.expected.base.checkedBlock ∨
        input.proof.fork.number < input.proof.history.fromBlock ∨
        input.proof.history.toBlock ≤ input.proof.fork.number ∨
        input.plan.fromBlock ≠ input.proof.fork.number + 1 ∨
        input.snapshot.block.hash ≠ input.proof.fork.hash)
      (.chainSyncConflict "Rollback plan does not match recovery ancestor proof")
    assertReorgHistoryUnchanged input.proof.history
    Tx.throwIf (∃ next ∈ input.next,
        next.base.recoveryId ≠ input.expected.base.recoveryId ∨
        next.base.version ≠ input.expected.base.version + 1 ∨
        next.base.revision ≠ input.expected.base.revision + 1)
      (.chainSyncConflict "Resync continuation does not match rollback")
    rollbackFromBlock input.plan input.snapshot
    match input.next with
    | some next => saveRecovery (.resync next)
    | none => removeRecovery

/-- `completeResyncRange`: advance the journal if the range is still the current one. -/
def completeResyncRange (range : ReorgResyncRange) (batchSize retryAt : Nat) : StoreM Bool :=
  Tx.writeTransaction do
    let db ← get
    match currentReorgRange db.recovery range with
    | none => return false
    | some current =>
      assertRecoveryCheckpoint current.base.revision
      match advanceReorgResync current batchSize retryAt with
      | some next => saveRecovery (.resync next)
      | none => removeRecovery
      return true

/-! ## 5. What they do -/

variable {db db' : Db} {u : Unit}

theorem returns_saveRecovery {state : ReorgRecoveryState} :
    Tx.Returns (saveRecovery state) db u db' ↔
      state.Storable ∧ db' = { db with recovery := some state } := by
  simp only [saveRecovery, Tx.returns_bind, Tx.returns_throwIf, Tx.returns_modify, not_not]
  constructor
  · rintro ⟨_, _, ⟨hs, rfl⟩, rfl⟩
    exact ⟨hs, rfl⟩
  · rintro ⟨hs, rfl⟩
    exact ⟨(), _, ⟨hs, rfl⟩, rfl⟩

theorem returns_assertRecoveryCheckpoint {revision : Nat} :
    Tx.Returns (assertRecoveryCheckpoint revision) db u db' ↔ db.revision = revision ∧ db = db' := by
  simp only [assertRecoveryCheckpoint, Tx.returns_bind, Tx.returns_get, Tx.returns_throwIf, not_not]
  constructor
  · rintro ⟨_, _, ⟨rfl, rfl⟩, h⟩
    exact h
  · intro h
    exact ⟨_, _, ⟨rfl, rfl⟩, h⟩

/-- The row has the identity, version, revision and phase of the expected one. -/
structure SameVersion (current expected : ReorgRecoveryState) : Prop where
  recoveryId : current.base.recoveryId = expected.base.recoveryId
  revision : current.base.revision = expected.base.revision
  version : current.base.version = expected.base.version
  phase : current.samePhase expected = true

theorem returns_assertCurrentRecovery {expected : ReorgRecoveryState}
    (h : Tx.Returns (assertCurrentRecovery expected) db u db') :
    db = db' ∧ ∃ current, db.recovery = some current ∧ SameVersion current expected := by
  simp only [assertCurrentRecovery, Tx.returns_bind, Tx.returns_get] at h
  obtain ⟨_, _, ⟨rfl, rfl⟩, h⟩ := h
  split at h
  · exact absurd h (by simp)
  next current hcur =>
  obtain ⟨hc, rfl⟩ := Tx.returns_throwIf.mp h
  push Not at hc
  obtain ⟨hid, hrev, hver, hphase⟩ := hc
  exact ⟨rfl, current, hcur, hid, hrev, hver, by simpa using hphase⟩

theorem completeCheck_effect {check : PendingCanonicalCheck} {b : Bool}
    (h : Tx.Returns (completeCheck check) db b db') :
    db.revision = check.checkpoint.revision ∧
      db' = { db with
        blocks := db.blocks.updateWhere (fun r => check.describes r && r.canonicalCheckPending)
          (fun r => { r with canonicalCheckPending := false, canonicalCheckRetryAt := 0 })
          (fun _ => rfl) } ∧
      (b = true → ∃ r, db.blocks.get? check.blockNumber = some r ∧ r.hash = check.blockHash ∧
        r.canonicalCheckPending = true) := by
  simp only [completeCheck, Tx.returns_writeTransaction, Tx.returns_bind,
    returns_assertSyncCheckpoint, Tx.returns_get, Tx.returns_set, Tx.returns_pure] at h
  obtain ⟨_, _, ⟨hrev, rfl⟩, _, _, ⟨rfl, rfl⟩, _, _, rfl, hb, rfl⟩ := h
  refine ⟨hrev, rfl, ?_⟩
  intro htrue
  rw [htrue, decide_eq_true_eq] at hb
  obtain ⟨r, hr⟩ := List.length_eq_one_iff.mp hb
  have hmem : r ∈ db.blocks.select
      (fun r => check.describes r && r.canonicalCheckPending) := by simp [hr]
  obtain ⟨hmem, hp⟩ := Table.mem_select.mp hmem
  simp only [PendingCanonicalCheck.describes, Bool.and_eq_true, decide_eq_true_eq] at hp
  exact ⟨r, Table.get?_eq_some.mpr ⟨hmem, hp.1.1⟩, hp.1.2, hp.2⟩

/-- What `retainMismatch` did when it returned. -/
structure RetainEffect (input : ReorgMismatch) (db db' : Db) : Prop where
  revision_current : db.revision = input.checkpoint.revision
  stored : ∃ r, db.blocks.get? input.checkedBlock = some r ∧ r.hash = input.storedHash ∧
    r.canonicalCheckPending = true
  recovery : db'.recovery = some (.awaitingAncestor (retainReorgMismatch db.recovery input))
  storable : db.recovery ≠ db'.recovery →
    (ReorgRecoveryState.awaitingAncestor (retainReorgMismatch db.recovery input)).Storable
  rest : db' =
    { db with
      recovery := db'.recovery
      blocks := db.blocks.updateWhere
        (fun r => r.number = input.checkedBlock && r.hash = input.storedHash &&
          r.canonicalCheckPending)
        (fun r => { r with canonicalCheckPending := false, canonicalCheckRetryAt := 0 })
        (fun _ => rfl) }

theorem retainMismatch_effect {input : ReorgMismatch} {s : AwaitingReorgAncestor}
    (h : Tx.Returns (retainMismatch input) db s db') : RetainEffect input db db' := by
  simp only [retainMismatch, Tx.returns_writeTransaction, Tx.returns_bind,
    returns_assertRecoveryCheckpoint, Tx.returns_get, Tx.returns_throwIf] at h
  obtain ⟨_, _, ⟨hrev, rfl⟩, _, _, ⟨rfl, rfl⟩, _, _, ⟨-, rfl⟩, h⟩ := h
  split at h
  · next hne =>
    simp only [Tx.returns_bind, returns_saveRecovery, Tx.returns_throwIf, Tx.returns_pure] at h
    obtain ⟨_, _, ⟨hst, rfl⟩, b, db₁, hcheck, _, _, ⟨hb, rfl⟩, -, rfl⟩ := h
    obtain ⟨-, rfl, hpend⟩ := completeCheck_effect hcheck
    exact ⟨hrev, hpend (by simpa using hb), rfl, fun _ => hst, rfl⟩
  · next heq =>
    rw [not_not] at heq
    simp only [Tx.returns_bind, Tx.returns_throwIf, Tx.returns_pure] at h
    obtain ⟨b, db₁, hcheck, _, _, ⟨hb, rfl⟩, -, rfl⟩ := h
    obtain ⟨-, rfl, hpend⟩ := completeCheck_effect hcheck
    exact ⟨hrev, hpend (by simpa using hb), heq, fun hne => absurd rfl hne, rfl⟩

/-- What `commitRollbackAndResync` did when it returned. -/
structure RollbackCommitEffect (input : RollbackCommit) (db db' : Db) : Prop where
  current : ∃ current, db.recovery = some current ∧
    SameVersion current (.awaitingAncestor input.expected)
  plan_revision : input.plan.checkpoint.revision = input.expected.base.revision
  below_checked : input.plan.fromBlock ≤ input.expected.base.checkedBlock
  next_same : ∀ next ∈ input.next, next.base.recoveryId = input.expected.base.recoveryId ∧
    next.base.version = input.expected.base.version + 1 ∧
    next.base.revision = input.expected.base.revision + 1 ∧
    (ReorgRecoveryState.resync next).Storable
  recovery : db'.recovery = input.next.map .resync
  rolled : ∃ db₁, RollbackEffect input.plan input.snapshot db db₁ ∧
    db' = { db₁ with recovery := db'.recovery }

theorem commitRollbackAndResync_effect {input : RollbackCommit}
    (h : Tx.Returns (commitRollbackAndResync input) db u db') :
    RollbackCommitEffect input db db' := by
  simp only [commitRollbackAndResync, Tx.returns_writeTransaction, Tx.returns_bind,
    Tx.returns_throwIf, assertReorgHistoryUnchanged, returns_assertSyncCheckpoint,
    Tx.returns_get] at h
  obtain ⟨_, db₀, hcur, _, _, ⟨hproof, rfl⟩, _, _, ⟨_, _, ⟨-, rfl⟩, _, _, ⟨rfl, rfl⟩, -, rfl⟩, _, _,
    ⟨hnext, rfl⟩, _, db₁, hroll, hsave⟩ := h
  obtain ⟨rfl, current, hget, hsame⟩ := returns_assertCurrentRecovery hcur
  have heff := rollbackFromBlock_effect hroll
  push Not at hproof
  obtain ⟨hplan, -, hto, -, hlt, hfrom, -⟩ := hproof
  have hbelow : input.plan.fromBlock ≤ input.expected.base.checkedBlock := by omega
  cases hn : input.next with
  | none =>
    rw [hn] at hsave
    simp only [removeRecovery, Tx.returns_modify] at hsave
    subst hsave
    exact ⟨⟨current, hget, hsame⟩, hplan, hbelow, by simp [hn], by rw [hn]; rfl, db₁, heff, rfl⟩
  | some next =>
    rw [hn] at hsave
    obtain ⟨hst, rfl⟩ := returns_saveRecovery.mp hsave
    refine ⟨⟨current, hget, hsame⟩, hplan, hbelow, ?_, by rw [hn]; rfl, db₁, heff, rfl⟩
    intro x hx
    rw [hn, Option.mem_some_iff] at hx
    subst hx
    have hno : ¬ (next.base.recoveryId ≠ input.expected.base.recoveryId ∨
        next.base.version ≠ input.expected.base.version + 1 ∨
        next.base.revision ≠ input.expected.base.revision + 1) :=
      fun hbad => hnext ⟨next, by rw [hn]; rfl, hbad⟩
    push Not at hno
    exact ⟨hno.1, hno.2.1, hno.2.2, hst⟩

theorem completeResyncRange_effect {range : ReorgResyncRange} {batchSize retryAt : Nat}
    {b : Bool}
    (h : Tx.Returns (completeResyncRange range batchSize retryAt) db b db') :
    (b = false ∧ db' = db) ∨
      (b = true ∧ ∃ current, db.recovery = some (.resync current) ∧ current.range = range ∧
        db.revision = current.base.revision ∧
        (∀ next ∈ advanceReorgResync current batchSize retryAt,
          (ReorgRecoveryState.resync next).Storable) ∧
        db' = { db with
          recovery := (advanceReorgResync current batchSize retryAt).map .resync }) := by
  simp only [completeResyncRange, Tx.returns_writeTransaction, Tx.returns_bind,
    Tx.returns_get] at h
  obtain ⟨_, _, ⟨rfl, rfl⟩, h⟩ := h
  split at h
  · rw [Tx.returns_pure] at h
    exact Or.inl ⟨h.1.symm, h.2.symm⟩
  · next current hcur =>
    obtain ⟨hrec, hrange⟩ := currentReorgRange_eq_some hcur
    simp only [Tx.returns_bind, returns_assertRecoveryCheckpoint] at h
    obtain ⟨_, _, ⟨hrev, rfl⟩, h⟩ := h
    cases hadv : advanceReorgResync current batchSize retryAt with
    | none =>
      simp only [hadv, Tx.returns_bind, removeRecovery, Tx.returns_modify, Tx.returns_pure] at h
      obtain ⟨_, _, rfl, rfl, rfl⟩ := h
      exact Or.inr ⟨rfl, current, hrec, hrange, hrev, by simp [hadv], by rw [hadv]; rfl⟩
    | some next =>
      simp only [hadv, Tx.returns_bind, returns_saveRecovery, Tx.returns_pure] at h
      obtain ⟨_, _, ⟨hst, rfl⟩, rfl, rfl⟩ := h
      refine Or.inr ⟨rfl, current, hrec, hrange, hrev, ?_, by rw [hadv]; rfl⟩
      intro x hx
      rw [hadv, Option.mem_some_iff] at hx
      exact hx ▸ hst

theorem refreshCheckpoint_effect {expected : ReorgRecoveryState} {checkpoint : ChainSyncCheckpoint}
    {recoveryId : String} {now : Nat}
    (h : Tx.Returns (refreshCheckpoint expected checkpoint recoveryId now) db u db') :
    ∃ current next, db.recovery = some current ∧ SameVersion current expected ∧
      db.revision = checkpoint.revision ∧
      next = retainReorgMismatch (some expected)
        ⟨checkpoint, recoveryId, expected.base.checkedBlock, expected.base.storedHash,
          expected.base.observedHash, now⟩ ∧
      (ReorgRecoveryState.awaitingAncestor next).Storable ∧
      db' = { db with recovery := some (.awaitingAncestor next) } := by
  simp only [refreshCheckpoint, Tx.returns_writeTransaction, Tx.returns_bind,
    returns_assertRecoveryCheckpoint, returns_saveRecovery] at h
  obtain ⟨_, _, hcur, _, _, ⟨hrev, rfl⟩, hst, rfl⟩ := h
  obtain ⟨rfl, current, hget, hsame⟩ := returns_assertCurrentRecovery hcur
  exact ⟨current, _, hget, hsame, hrev, rfl, hst, rfl⟩

end Artgod.Indexer
