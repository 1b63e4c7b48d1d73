/-
# The queue outbox

A sync commit enqueues its follow-up jobs in `queue_outbox` (`infra/queue/sqlite-queue-outbox.ts`), and drainers
publish them later from a snapshot of the due rows (`application/queue-outbox/drainer.ts`).  An id is never
handed out twice and no statement changes what an insert wrote, so what a drainer remembers of a row stays true
(`OutboxInv.held`).  A required row is deleted only after the broker took it or with a block that is rolled
back.  `QueueOutbox.Shows` relates the table to the outbox of a chain in `Db`.
-/
import Artgod.Indexer.Commit

namespace Artgod.Indexer

open Store
open Function (update_self update_of_ne)

/-! ## 1. The table -/

inductive QueueOutboxStatus where
  | pending
  | sent
  | failedRetry
  | failedTerminal
deriving DecidableEq

inductive QueueOutboxRetryPolicy where
  | bounded
  | required
deriving DecidableEq

/-- A row of `queue_outbox`.  `content` has the job and the block columns. -/
structure QueueOutboxRow where
  outboxId : Nat
  chainId : Nat
  content : OutboxRow
  retryPolicy : QueueOutboxRetryPolicy
  status : QueueOutboxStatus
  attempts : Nat
  nextAttemptAt : Nat

/-- The columns that only an insert writes. -/
structure QueueOutboxIdentity where
  outboxId : Nat
  chainId : Nat
  content : OutboxRow
  retryPolicy : QueueOutboxRetryPolicy

def QueueOutboxRow.identity (r : QueueOutboxRow) : QueueOutboxIdentity :=
  ⟨r.outboxId, r.chainId, r.content, r.retryPolicy⟩

/-- The table: `sequence` is the largest id handed out, and `(queue_name, job_id)` is unique. -/
structure QueueOutbox where
  rows : Table QueueOutboxRow.outboxId
  sequence : Nat
  issued : ∀ r ∈ rows, r.outboxId ≤ sequence
  unique : ∀ r ∈ rows, ∀ r' ∈ rows, r.content.key = r'.content.key → r = r'

namespace QueueOutbox

def empty : QueueOutbox where
  rows := .empty
  sequence := 0
  issued := by simp
  unique := by simp

/-- The row that `insertJob` writes. -/
def newRow (q : QueueOutbox) (chainId : Nat) (content : OutboxRow)
    (retryPolicy : QueueOutboxRetryPolicy) (nextAttemptAt : Nat) : QueueOutboxRow :=
  ⟨q.sequence + 1, chainId, content, retryPolicy, .pending, 0, nextAttemptAt⟩

/-- A row of the table has this queue and this job id. -/
def hasJob (q : QueueOutbox) (content : OutboxRow) : Bool :=
  q.rows.rows.any (fun r => r.content.key = content.key)

variable {q : QueueOutbox} {chainId nextAttemptAt : Nat} {retryPolicy : QueueOutboxRetryPolicy}

theorem not_hasJob_iff {content : OutboxRow} :
    q.hasJob content = false ↔ ∀ r ∈ q.rows, r.content.key ≠ content.key := by
  simp [hasJob, Table.mem_def]

theorem newRow_fresh {content : OutboxRow}
    :
    q.rows.has (q.newRow chainId content retryPolicy nextAttemptAt).outboxId = false := by
  rw [Table.not_has_iff]
  intro r hr heq
  have hle := q.issued r hr
  rw [heq] at hle
  exact absurd hle (Nat.not_succ_le_self _)

/-- `insertJob`: `INSERT OR IGNORE`. -/
def insertJob (q : QueueOutbox) (chainId : Nat) (content : OutboxRow)
    (retryPolicy : QueueOutboxRetryPolicy) (nextAttemptAt : Nat) : QueueOutbox :=
  if h : q.hasJob content = false then
    { rows := q.rows.insertOrIgnore (q.newRow chainId content retryPolicy nextAttemptAt)
      sequence := q.sequence + 1
      issued := by
        intro r hr
        rcases Table.mem_insertOrIgnore.mp hr with hr | ⟨rfl, -⟩
        · exact Nat.le_succ_of_le (q.issued r hr)
        · exact Nat.le_refl _
      unique := by
        intro r hr r' hr' hkey
        rcases Table.mem_insertOrIgnore.mp hr with hr | ⟨rfl, -⟩ <;>
          rcases Table.mem_insertOrIgnore.mp hr' with hr' | ⟨rfl, -⟩
        · exact q.unique r hr r' hr' hkey
        · exact absurd hkey (not_hasJob_iff.mp h r hr)
        · exact absurd hkey.symm (not_hasJob_iff.mp h r' hr')
        · rfl }
  else q

theorem mem_insertJob {content : OutboxRow}
    {r : QueueOutboxRow} :
    r ∈ (q.insertJob chainId content retryPolicy nextAttemptAt).rows ↔ r ∈ q.rows ∨
        r = q.newRow chainId content retryPolicy nextAttemptAt ∧ q.hasJob content = false := by
  unfold insertJob
  split
  · next h => simp [Table.mem_insertOrIgnore, newRow_fresh, h]
  · next h => simp [h]

theorem sequence_le_insertJob {content : OutboxRow}
    :
    q.sequence ≤ (q.insertJob chainId content retryPolicy nextAttemptAt).sequence := by
  unfold insertJob
  split
  · exact Nat.le_succ _
  · exact Nat.le_refl _

/-- `DELETE FROM queue_outbox WHERE p`. -/
def deleteWhere (q : QueueOutbox) (p : QueueOutboxRow → Bool) : QueueOutbox where
  rows := q.rows.deleteWhere p
  sequence := q.sequence
  issued := fun r hr => q.issued r (Table.mem_deleteWhere.mp hr).1
  unique := fun r hr r' hr' =>
    q.unique r (Table.mem_deleteWhere.mp hr).1 r' (Table.mem_deleteWhere.mp hr').1

/-- An update of the delivery columns of the row with this id. -/
def updateDelivery (q : QueueOutbox) (outboxId : Nat) (f : QueueOutboxRow → QueueOutboxRow)
    (hf : ∀ r, (f r).identity = r.identity) : QueueOutbox where
  rows := q.rows.updateWhere (fun r => r.outboxId = outboxId) f
    (fun r => congrArg QueueOutboxIdentity.outboxId (hf r))
  sequence := q.sequence
  issued := by
    intro r hr
    obtain ⟨a, ha, rfl⟩ := Table.mem_updateWhere.mp hr
    split
    · have hid : (f a).outboxId = a.outboxId := congrArg QueueOutboxIdentity.outboxId (hf a)
      rw [hid]
      exact q.issued a ha
    · exact q.issued a ha
  unique := by
    intro r hr r' hr' hkey
    obtain ⟨a, ha, rfl⟩ := Table.mem_updateWhere.mp hr
    obtain ⟨b, hb, rfl⟩ := Table.mem_updateWhere.mp hr'
    have hcontent (c : QueueOutboxRow) :
        (if decide (c.outboxId = outboxId) = true then f c else c).content = c.content := by
      split
      · exact congrArg QueueOutboxIdentity.content (hf c)
      · rfl
    rw [hcontent, hcontent] at hkey
    rw [q.unique a ha b hb hkey]

theorem mem_updateDelivery {outboxId : Nat} {f : QueueOutboxRow → QueueOutboxRow}
    (hf : ∀ r, (f r).identity = r.identity) {r : QueueOutboxRow} :
    r ∈ (q.updateDelivery outboxId f hf).rows ↔
      ∃ a ∈ q.rows, r = if a.outboxId = outboxId then f a else a := by
  have h := @Table.mem_updateWhere _ _ _ q.rows (fun r => decide (r.outboxId = outboxId)) f
    (fun r => congrArg QueueOutboxIdentity.outboxId (hf r)) r
  simp only [decide_eq_true_eq] at h
  exact h

end QueueOutbox

/-! ## 2. Its statements -/

/-- The id of a follow-up's job. -/
def syncFollowUpJobId (revision : Nat) (followUp : SyncFollowUp) : String :=
  followUp.job.jobId ++ ":chain-revision:" ++ toString revision

/-- What `enqueueSyncFollowUp` writes of a follow-up. -/
def SyncFollowUp.content (revision : Nat) (followUp : SyncFollowUp) : OutboxRow :=
  match followUp with
  | .range job => ⟨{ job with jobId := syncFollowUpJobId revision followUp }, none, none⟩
  | .event job block =>
    ⟨{ job with jobId := syncFollowUpJobId revision followUp, onchainBlock := some block },
      some block.blockNumber, some block.blockHash⟩

namespace QueueOutbox

section

variable (q : QueueOutbox)

def enqueueJob (chainId : Nat) (job : JobEnvelope) (nextAttemptAt : Nat) : QueueOutbox :=
  q.insertJob chainId ⟨job, none, none⟩ .bounded nextAttemptAt

def enqueueSyncFollowUp (chainId revision : Nat) (q : QueueOutbox) (followUp : SyncFollowUp) :
    QueueOutbox :=
  q.insertJob chainId (followUp.content revision) .required 0

/-- The follow-ups of a commit. -/
def enqueueSyncFollowUps (chainId revision : Nat) (q : QueueOutbox) (followUps : List SyncFollowUp) :
    QueueOutbox :=
  followUps.foldl (enqueueSyncFollowUp chainId revision) q

/-- The rows that were inserted since the largest id was `sequence`. -/
def issuedAfter (sequence : Nat) : List QueueOutboxRow :=
  q.rows.select (fun r => sequence < r.outboxId)

/-- The rows `rollbackFromBlock` deletes: `chain_id = ? AND sync_block_number >= ?`. -/
def isRolledBack (chainId fromBlock : Nat) (r : QueueOutboxRow) : Bool :=
  decide (r.chainId = chainId) && r.content.syncBlockNumber.any (fun n => decide (fromBlock ≤ n))

def markSent (outboxId : Nat) : QueueOutbox :=
  q.updateDelivery outboxId (fun r => { r with status := .sent }) (by intro r; rfl)

def removePublishedSyncFollowUp (outboxId : Nat) : QueueOutbox :=
  q.deleteWhere (fun r => r.outboxId = outboxId ∧ r.retryPolicy = .required)

def markFailed (outboxId attempts nextAttemptAt : Nat) (terminal : Bool) : QueueOutbox :=
  q.updateDelivery outboxId (fun r =>
      { r with
        status := if terminal then .failedTerminal else .failedRetry
        attempts := attempts
        nextAttemptAt := nextAttemptAt })
    (by intro r; rfl)

end

end QueueOutbox

/-- `QueueOutboxDrainRecord`; `jobJson` is the job it encodes. -/
structure QueueOutboxDrainRecord where
  outboxId : Nat
  queueName : String
  jobJson : JobEnvelope
  attempts : Nat
  retryPolicy : QueueOutboxRetryPolicy

def QueueOutboxRow.record (r : QueueOutboxRow) : QueueOutboxDrainRecord :=
  ⟨r.outboxId, r.content.job.queue, r.content.job, r.attempts, r.retryPolicy⟩

/-- The order of `selectDueStmt`. -/
def dueBefore (a b : QueueOutboxRow) : Bool :=
  decide (a.nextAttemptAt < b.nextAttemptAt ∨ a.nextAttemptAt = b.nextAttemptAt ∧ a.outboxId ≤ b.outboxId)

def QueueOutbox.listDue (q : QueueOutbox) (nowMs limit : Nat) : List QueueOutboxDrainRecord :=
  (((q.rows.select (fun r =>
      (r.status = .pending ∨ r.status = .failedRetry) ∧ r.nextAttemptAt ≤ nowMs)).mergeSort
    dueBefore).take limit).map QueueOutboxRow.record

/-! ## 3. Drainers, commits and rollbacks -/

structure QueueOutboxDrainerOptions where
  limit : Option Nat := none
  maxAttempts : Option Nat := none
  retryBaseDelayMs : Option Nat := none
  retryMaxDelayMs : Option Nat := none

namespace QueueOutboxDrainerOptions

variable (o : QueueOutboxDrainerOptions)

/-- `QUEUE_OUTBOX_DRAINER_DEFAULTS.Limit`. -/
def limitOrDefault : Nat := o.limit.getD 100

/-- `QUEUE_OUTBOX_DRAINER_DEFAULTS.MaxAttempts`. -/
def maxAttemptsOrDefault : Nat := o.maxAttempts.getD 5

def resolveRetryDelayMs (attempts : Nat) : Nat :=
  min (o.retryMaxDelayMs.getD 60000) (o.retryBaseDelayMs.getD 1000 * 2 ^ (attempts - 1))

end QueueOutboxDrainerOptions

/-- Where a drainer is with the first record of its snapshot. -/
inductive PublishPhase where
  | unpublished
  | accepted
  | failed

/-- A drainer: the records of its snapshot that are left. -/
structure Drainer where
  due : List QueueOutboxDrainRecord
  phase : PublishPhase

def Drainer.idle : Drainer := ⟨[], .unpublished⟩

/-- The catch block of `drainQueueOutbox`. -/
def recordFailure (options : QueueOutboxDrainerOptions) (now : Nat) (record : QueueOutboxDrainRecord)
    (q : QueueOutbox) : QueueOutbox :=
  let attempts := record.attempts + 1
  let terminal := decide (record.retryPolicy ≠ .required ∧ options.maxAttemptsOrDefault ≤ attempts)
  q.markFailed record.outboxId attempts
    (if terminal then 0 else now + options.resolveRetryDelayMs attempts) terminal

/-- What `drainQueueOutbox` does once the broker took the job. -/
def recordPublication (record : QueueOutboxDrainRecord) (q : QueueOutbox) : QueueOutbox :=
  if record.retryPolicy = .required then q.removePublishedSyncFollowUp record.outboxId
  else q.markSent record.outboxId

/-- What happened, for the record. -/
inductive LogEntry where
  | committed (chainId : Nat) (input : SyncRangeCommit) (inserted : List QueueOutboxRow)
  | rolledBack (chainId : Nat) (plan : ReorgRollbackPlan) (removed : List QueueOutboxRow)
  | published (record : QueueOutboxDrainRecord)

/-- The chains, the table they share, the drainers, and the history, newest first. -/
structure OutboxWorld where
  dbs : Nat → Db
  queue : QueueOutbox
  drainers : Nat → Drainer
  log : List LogEntry

/-- Nothing was enqueued yet. -/
def OutboxWorld.fresh (dbs : Nat → Db) : OutboxWorld := ⟨dbs, .empty, fun _ => .idle, []⟩

/-- One event.  `recordOutcome` is the statement after a publication was accepted or failed; the
statement may throw itself. -/
inductive OutboxEvent where
  | commit (chainId : Nat) (input : SyncRangeCommit)
  | rollback (chainId : Nat) (plan : ReorgRollbackPlan) (snapshot : Erc721RollbackSnapshot)
  | rollbackAndResync (chainId : Nat) (input : RollbackCommit)
  | other (chainId : Nat) (write : Db → Db)
  | enqueueJob (chainId : Nat) (job : JobEnvelope) (nextAttemptAt : Nat)
  | listDue (drainer nowMs : Nat)
  | publish (drainer : Nat) (accepted : Bool)
  | recordOutcome (drainer now : Nat) (throws : Bool)
  | crash (drainer : Nat)

namespace OutboxWorld

/-- A sync commit; one that throws leaves nothing behind. -/
def commit (w : OutboxWorld) (chainId : Nat) (input : SyncRangeCommit) : OutboxWorld :=
  match (commitSyncRange input).exec (w.dbs chainId) with
  | (.error _, _) => w
  | (.ok _, db) =>
    let queue := w.queue.enqueueSyncFollowUps chainId input.result.checkpoint.revision input.followUps
    { w with
      dbs := Function.update w.dbs chainId db
      queue := queue
      log := .committed chainId input (queue.issuedAfter w.queue.sequence) :: w.log }

/-- A transaction with `rollbackFromBlock` in it. -/
def rollback (w : OutboxWorld) (chainId : Nat) (plan : ReorgRollbackPlan) (program : StoreM Unit) :
    OutboxWorld :=
  match program.exec (w.dbs chainId) with
  | (.error _, _) => w
  | (.ok _, db) =>
    let orphan := QueueOutbox.isRolledBack chainId plan.fromBlock
    { w with
      dbs := Function.update w.dbs chainId db
      queue := w.queue.deleteWhere orphan
      log := .rolledBack chainId plan (w.queue.rows.select orphan) :: w.log }

/-- The broker's answer to the first record. -/
def publish (w : OutboxWorld) (drainer : Nat) (accepted : Bool) : OutboxWorld :=
  match w.drainers drainer with
  | ⟨record :: rest, .unpublished⟩ =>
    if accepted then
      { w with
        drainers := Function.update w.drainers drainer ⟨record :: rest, .accepted⟩
        log := .published record :: w.log }
    else { w with drainers := Function.update w.drainers drainer ⟨record :: rest, .failed⟩ }
  | _ => w

/-- The statement after it.  An error of the first kind of statement is a failed publication for the
drainer, and an error of the second kind ends the drain. -/
def recordOutcome (options : QueueOutboxDrainerOptions) (w : OutboxWorld) (drainer now : Nat)
    (throws : Bool) : OutboxWorld :=
  match w.drainers drainer with
  | ⟨record :: rest, .accepted⟩ =>
    if throws then { w with drainers := Function.update w.drainers drainer ⟨record :: rest, .failed⟩ }
    else
      { w with
        drainers := Function.update w.drainers drainer ⟨rest, .unpublished⟩
        queue := recordPublication record w.queue }
  | ⟨record :: rest, .failed⟩ =>
    if throws then { w with drainers := Function.update w.drainers drainer .idle }
    else
      { w with
        drainers := Function.update w.drainers drainer ⟨rest, .unpublished⟩
        queue := recordFailure options now record w.queue }
  | _ => w

/-- One event.  Code that writes other tables leaves the revision, which only a rollback advances. -/
def step (options : Nat → QueueOutboxDrainerOptions) (w : OutboxWorld) : OutboxEvent → OutboxWorld
  | .commit chainId input => w.commit chainId input
  | .rollback chainId plan snapshot => w.rollback chainId plan (rollbackFromBlock plan snapshot)
  | .rollbackAndResync chainId input =>
    w.rollback chainId input.plan (commitRollbackAndResync input)
  | .other chainId write =>
    { w with
      dbs := Function.update w.dbs chainId
        { write (w.dbs chainId) with revision := (w.dbs chainId).revision } }
  | .enqueueJob chainId job nextAttemptAt =>
    { w with queue := w.queue.enqueueJob chainId job nextAttemptAt }
  | .listDue drainer nowMs =>
    if (w.drainers drainer).due = [] then
      { w with
        drainers := Function.update w.drainers drainer
          ⟨w.queue.listDue nowMs (options drainer).limitOrDefault, .unpublished⟩ }
    else w
  | .publish drainer accepted => w.publish drainer accepted
  | .recordOutcome drainer now throws => recordOutcome (options drainer) w drainer now throws
  | .crash drainer => { w with drainers := Function.update w.drainers drainer .idle }

def run (options : Nat → QueueOutboxDrainerOptions) (w : OutboxWorld) (events : List OutboxEvent) :
    OutboxWorld :=
  events.foldl (step options) w

end OutboxWorld

/-! ## 4. What the statements do -/

/-- A row that waits for a drainer. -/
def QueueOutboxRow.Open (r : QueueOutboxRow) : Prop := r.status = .pending ∨ r.status = .failedRetry

/-- What an insert of follow-ups does: new ids are above the old ones, and new rows are pending. -/
structure Enqueued (q q' : QueueOutbox) : Prop where
  sequence : q.sequence ≤ q'.sequence
  kept : ∀ r ∈ q.rows, r ∈ q'.rows
  added : ∀ r ∈ q'.rows, r ∈ q.rows ∨ q.sequence < r.outboxId ∧ r.status = .pending

theorem Enqueued.refl (q : QueueOutbox) : Enqueued q q :=
  ⟨Nat.le_refl _, fun _ h => h, fun _ h => Or.inl h⟩

variable {q : QueueOutbox} {r : QueueOutboxRow}

theorem Enqueued.trans {q₁ q₂ : QueueOutbox} (h₁ : Enqueued q q₁) (h₂ : Enqueued q₁ q₂) :
    Enqueued q q₂ where
  sequence := h₁.sequence.trans h₂.sequence
  kept := fun r hr => h₂.kept r (h₁.kept r hr)
  added := by
    intro r hr
    rcases h₂.added r hr with hr | ⟨hlt, hpending⟩
    · exact h₁.added r hr
    · exact Or.inr ⟨Nat.lt_of_le_of_lt h₁.sequence hlt, hpending⟩

theorem enqueued_insertJob (q : QueueOutbox) (chainId : Nat) (content : OutboxRow)
    (retryPolicy : QueueOutboxRetryPolicy) (nextAttemptAt : Nat) :
    Enqueued q (q.insertJob chainId content retryPolicy nextAttemptAt) where
  sequence := QueueOutbox.sequence_le_insertJob
  kept := fun _ hr => QueueOutbox.mem_insertJob.mpr (Or.inl hr)
  added := by
    intro r hr
    rcases QueueOutbox.mem_insertJob.mp hr with hr | ⟨rfl, -⟩
    · exact Or.inl hr
    · exact Or.inr ⟨Nat.lt_succ_self _, rfl⟩

theorem enqueued_syncFollowUps {chainId revision : Nat} :
    ∀ (followUps : List SyncFollowUp) (q : QueueOutbox),
      Enqueued q (q.enqueueSyncFollowUps chainId revision followUps)
  | [], q => .refl q
  | followUp :: rest, q =>
    (enqueued_insertJob q chainId (followUp.content revision) .required 0).trans
      (enqueued_syncFollowUps rest _)

theorem mem_enqueueSyncFollowUps {chainId revision : Nat} :
    ∀ {followUps : List SyncFollowUp} {q : QueueOutbox},
      r ∈ (q.enqueueSyncFollowUps chainId revision followUps).rows →
      r ∈ q.rows ∨ r.retryPolicy = .required ∧ r.chainId = chainId ∧
        ∃ followUp ∈ followUps, r.content = followUp.content revision
  | [], _, hr => Or.inl hr
  | followUp :: rest, q, hr => by
    have hrest : r ∈ ((q.enqueueSyncFollowUp chainId revision followUp).enqueueSyncFollowUps
        chainId revision rest).rows := hr
    rcases mem_enqueueSyncFollowUps hrest with hr | ⟨hpolicy, hchain, f, hf, hcontent⟩
    · rcases QueueOutbox.mem_insertJob.mp hr with hr | ⟨rfl, -⟩
      · exact Or.inl hr
      · exact Or.inr ⟨rfl, rfl, followUp, List.mem_cons_self, rfl⟩
    · exact Or.inr ⟨hpolicy, hchain, f, List.mem_cons_of_mem _ hf, hcontent⟩

theorem mem_listDue {nowMs limit : Nat} {record : QueueOutboxDrainRecord}
    (h : record ∈ q.listDue nowMs limit) : ∃ r ∈ q.rows, r.record = record := by
  unfold QueueOutbox.listDue at h
  obtain ⟨r, hr, rfl⟩ := List.mem_map.mp h
  have hsel := List.mem_mergeSort.mp (List.mem_of_mem_take hr)
  exact ⟨r, (Table.mem_select.mp hsel).1, rfl⟩

theorem identity_updateDelivery {outboxId : Nat}
    {f : QueueOutboxRow → QueueOutboxRow} (hf : ∀ r, (f r).identity = r.identity)
    (hr : r ∈ (q.updateDelivery outboxId f hf).rows) :
    ∃ a ∈ q.rows, r.identity = a.identity ∧ (r = a ∨ a.outboxId = outboxId ∧ r = f a) := by
  obtain ⟨a, ha, rfl⟩ := (QueueOutbox.mem_updateDelivery hf).mp hr
  refine ⟨a, ha, ?_⟩
  split
  · next hid => exact ⟨hf a, Or.inr ⟨hid, rfl⟩⟩
  · exact ⟨rfl, Or.inl rfl⟩

/-! ## 5. The outbox of a chain -/

/-! ## 6. The invariant -/

/-- The broker took the row's job, in the row's own publication. -/
def PublishedIn (log : List LogEntry) (row : QueueOutboxRow) : Prop :=
  ∃ record, .published record ∈ log ∧ record.outboxId = row.outboxId ∧
    record.queueName = row.content.job.queue ∧ record.jobJson = row.content.job

/-- A rollback of the row's chain, from its block or below, deleted it. -/
def RolledBackIn (log : List LogEntry) (row : QueueOutboxRow) : Prop :=
  ∃ plan removed n, .rolledBack row.chainId plan removed ∈ log ∧
    row.content.syncBlockNumber = some n ∧ plan.fromBlock ≤ n ∧
    ∃ r ∈ removed, r.identity = row.identity

/-- The row waits for a drainer. -/
def WaitsIn (q : QueueOutbox) (row : QueueOutboxRow) : Prop :=
  ∃ r ∈ q.rows, r.identity = row.identity ∧ r.Open

/-- What became of a row that a commit inserted. -/
def OutboxWorld.Accounted (w : OutboxWorld) (row : QueueOutboxRow) : Prop :=
  WaitsIn w.queue row ∨ PublishedIn w.log row ∨ RolledBackIn w.log row

/-- What a drainer remembers of a row is true of it. -/
def QueueOutboxDrainRecord.Of (record : QueueOutboxDrainRecord) (identity : QueueOutboxIdentity) : Prop :=
  record.outboxId = identity.outboxId ∧ record.queueName = identity.content.job.queue ∧
    record.jobJson = identity.content.job ∧ record.retryPolicy = identity.retryPolicy

/-- The revision of the entry's chain after it. -/
def LogEntry.revision : LogEntry → Option (Nat × Nat)
  | .committed chainId input _ => some (chainId, input.result.checkpoint.revision)
  | .rolledBack chainId plan _ => some (chainId, plan.checkpoint.revision + 1)
  | .published _ => none

/-- An entry is a rollback of the chain. -/
def LogEntry.RollsBack (chainId : Nat) : LogEntry → Prop
  | .rolledBack c _ _ => c = chainId
  | _ => False

/-- The order of the history: the revisions of a chain do not fall, and a rollback raises them. -/
def LogEntry.After (newer older : LogEntry) : Prop :=
  ∀ chainId a b, older.revision = some (chainId, a) → newer.revision = some (chainId, b) →
    a ≤ b ∧ (newer.RollsBack chainId → a < b)

structure OutboxInv (w : OutboxWorld) : Prop where
  required : ∀ r ∈ w.queue.rows, r.retryPolicy = .required → r.Open
  held : ∀ d, ∀ record ∈ (w.drainers d).due, record.outboxId ≤ w.queue.sequence ∧
    ∀ r ∈ w.queue.rows, r.outboxId = record.outboxId → record.Of r.identity
  accepted : ∀ d record rest, w.drainers d = ⟨record :: rest, .accepted⟩ → .published record ∈ w.log
  accounted : ∀ chainId input inserted, .committed chainId input inserted ∈ w.log →
    ∀ row ∈ inserted, row.retryPolicy = .required ∧ row.chainId = chainId ∧ (∃ followUp ∈ input.followUps,
        row.content = followUp.content input.result.checkpoint.revision) ∧
      w.Accounted row
  current : ∀ entry ∈ w.log, ∀ chainId revision, entry.revision = some (chainId, revision) →
    revision ≤ (w.dbs chainId).revision
  ordered : w.log.Pairwise LogEntry.After

theorem OutboxInv.fresh (dbs : Nat → Db) : OutboxInv (.fresh dbs) where
  required := fun r hr => absurd hr Table.not_mem_empty
  held := fun d record h => absurd h List.not_mem_nil
  accepted := fun d record rest h => absurd (congrArg Drainer.due h) (by simp [OutboxWorld.fresh, Drainer.idle])
  accounted := fun chainId input inserted h => absurd h List.not_mem_nil
  current := fun entry h => absurd h List.not_mem_nil
  ordered := List.Pairwise.nil

namespace OutboxInv

variable {w : OutboxWorld}

theorem drainer {d : Nat} {next : Drainer} (hi : OutboxInv w)
    (hdue : ∀ record ∈ next.due, record.outboxId ≤ w.queue.sequence ∧
      ∀ r ∈ w.queue.rows, r.outboxId = record.outboxId → record.Of r.identity)
    (haccepted : ∀ record rest, next = ⟨record :: rest, .accepted⟩ → .published record ∈ w.log) :
    OutboxInv { w with drainers := Function.update w.drainers d next } where
  required := hi.required
  held := by
    intro d' record hr
    by_cases hd : d' = d
    · subst hd
      simp only [update_self] at hr
      exact hdue record hr
    · simp only [update_of_ne hd] at hr
      exact hi.held d' record hr
  accepted := by
    intro d' record rest heq
    by_cases hd : d' = d
    · subst hd
      simp only [update_self] at heq
      exact haccepted record rest heq
    · simp only [update_of_ne hd] at heq
      exact hi.accepted d' record rest heq
  accounted := hi.accounted
  current := hi.current
  ordered := hi.ordered

theorem drainer_of_subset {d : Nat} {old next : Drainer} (hi : OutboxInv w)
    (hd : w.drainers d = old) (hsub : next.due ⊆ old.due) (hphase : next.phase ≠ .accepted) :
    OutboxInv { w with drainers := Function.update w.drainers d next } := by
  subst hd
  refine hi.drainer (fun record hrec => hi.held d record (hsub hrec)) (fun record rest heq => ?_)
  rw [heq] at hphase
  exact absurd rfl hphase

theorem enqueued {q : QueueOutbox} (hi : OutboxInv w) (h : Enqueued w.queue q) :
    OutboxInv { w with queue := q } where
  required := by
    intro r hr hpolicy
    rcases h.added r hr with hr | ⟨-, hpending⟩
    · exact hi.required r hr hpolicy
    · exact Or.inl hpending
  held := by
    intro d record hrec
    obtain ⟨hle, hof⟩ := hi.held d record hrec
    refine ⟨hle.trans h.sequence, fun r hr hid => ?_⟩
    rcases h.added r hr with hr | ⟨hlt, -⟩
    · exact hof r hr hid
    · omega
  accepted := hi.accepted
  accounted := by
    intro chainId input inserted hlog row hrow
    obtain ⟨hpolicy, hchain, hcontent, hacc⟩ := hi.accounted chainId input inserted hlog row hrow
    refine ⟨hpolicy, hchain, hcontent, ?_⟩
    rcases hacc with ⟨r, hr, hident, hopen⟩ | hdone
    · exact Or.inl ⟨r, h.kept r hr, hident, hopen⟩
    · exact Or.inr hdone
  current := hi.current
  ordered := hi.ordered

theorem updateDelivery {outboxId : Nat} {f : QueueOutboxRow → QueueOutboxRow}
    {hf : ∀ r, (f r).identity = r.identity} (hi : OutboxInv w)
    (hopen : ∀ r ∈ w.queue.rows, r.outboxId = outboxId → r.retryPolicy = .required → (f r).Open) :
    OutboxInv { w with queue := w.queue.updateDelivery outboxId f hf } where
  required := by
    intro r hr hpolicy
    obtain ⟨a, ha, hident, rfl | ⟨hid, rfl⟩⟩ := identity_updateDelivery hf hr
    · exact hi.required r ha hpolicy
    · have hsame : (f a).retryPolicy = a.retryPolicy :=
        congrArg QueueOutboxIdentity.retryPolicy hident
      exact hopen a ha hid (hsame ▸ hpolicy)
  held := by
    intro d record hrec
    obtain ⟨hle, hof⟩ := hi.held d record hrec
    refine ⟨hle, fun r hr hid => ?_⟩
    obtain ⟨a, ha, hident, -⟩ := identity_updateDelivery hf hr
    have hsame : r.outboxId = a.outboxId := congrArg QueueOutboxIdentity.outboxId hident
    rw [hident]
    exact hof a ha (hsame ▸ hid)
  accepted := hi.accepted
  accounted := by
    intro chainId input inserted hlog row hrow
    obtain ⟨hpolicy, hchain, hcontent, hacc⟩ := hi.accounted chainId input inserted hlog row hrow
    refine ⟨hpolicy, hchain, hcontent, ?_⟩
    rcases hacc with ⟨r, hr, hident, hropen⟩ | hdone
    · refine Or.inl ⟨_, (QueueOutbox.mem_updateDelivery hf).mpr ⟨r, hr, rfl⟩, ?_⟩
      have hrequired : r.retryPolicy = .required :=
        (congrArg QueueOutboxIdentity.retryPolicy hident).trans hpolicy
      split
      · next hid => exact ⟨(hf r).trans hident, hopen r hr hid hrequired⟩
      · exact ⟨hident, hropen⟩
    · exact Or.inr hdone
  current := hi.current
  ordered := hi.ordered

theorem deleteWhere {p : QueueOutboxRow → Bool} (hi : OutboxInv w)
    (hdone : ∀ r ∈ w.queue.rows, p r = true → ∀ row : QueueOutboxRow, r.identity = row.identity →
      PublishedIn w.log row ∨ RolledBackIn w.log row) :
    OutboxInv { w with queue := w.queue.deleteWhere p } where
  required := fun r hr => hi.required r (Table.mem_deleteWhere.mp hr).1
  held := by
    intro d record hrec
    obtain ⟨hle, hof⟩ := hi.held d record hrec
    exact ⟨hle, fun r hr => hof r (Table.mem_deleteWhere.mp hr).1⟩
  accepted := hi.accepted
  accounted := by
    intro chainId input inserted hlog row hrow
    obtain ⟨hpolicy, hchain, hcontent, hacc⟩ := hi.accounted chainId input inserted hlog row hrow
    refine ⟨hpolicy, hchain, hcontent, ?_⟩
    rcases hacc with ⟨r, hr, hident, hopen⟩ | hgone
    · cases hp : p r with
      | true => exact Or.inr (hdone r hr hp row hident)
      | false => exact Or.inl ⟨r, Table.mem_deleteWhere.mpr ⟨hr, hp⟩, hident, hopen⟩
    · exact Or.inr hgone
  current := hi.current
  ordered := hi.ordered

end OutboxInv

theorem OutboxWorld.Accounted.logged {w : OutboxWorld} {row : QueueOutboxRow} {dbs : Nat → Db}
    (entry : LogEntry) (h : w.Accounted row) :
    OutboxWorld.Accounted { w with dbs := dbs, log := entry :: w.log } row := by
  rcases h with hopen | ⟨record, hlog, hrest⟩ | ⟨plan, removed, n, hlog, hrest⟩
  · exact Or.inl hopen
  · exact Or.inr (Or.inl ⟨record, List.mem_cons_of_mem _ hlog, hrest⟩)
  · exact Or.inr (Or.inr ⟨plan, removed, n, List.mem_cons_of_mem _ hlog, hrest⟩)

namespace OutboxInv

variable {w : OutboxWorld}

theorem logged {dbs : Nat → Db} {entry : LogEntry} (hi : OutboxInv w)
    (hmono : ∀ c, (w.dbs c).revision ≤ (dbs c).revision)
    (hrevision : ∀ c b, entry.revision = some (c, b) → (w.dbs c).revision ≤ b ∧
      b ≤ (dbs c).revision ∧ (entry.RollsBack c → (w.dbs c).revision < b))
    (hcommitted : ∀ c input inserted, entry = .committed c input inserted → ∀ row ∈ inserted,
      row.retryPolicy = .required ∧ row.chainId = c ∧ (∃ followUp ∈ input.followUps,
          row.content = followUp.content input.result.checkpoint.revision) ∧
        w.Accounted row) :
    OutboxInv { w with dbs := dbs, log := entry :: w.log } where
  required := hi.required
  held := hi.held
  accepted := fun d record rest h => List.mem_cons_of_mem _ (hi.accepted d record rest h)
  accounted := by
    intro c input inserted hlog row hrow
    rcases List.mem_cons.mp hlog with heq | hlog
    · obtain ⟨hpolicy, hchain, hcontent, hacc⟩ := hcommitted c input inserted heq.symm row hrow
      exact ⟨hpolicy, hchain, hcontent, hacc.logged entry⟩
    · obtain ⟨hpolicy, hchain, hcontent, hacc⟩ := hi.accounted c input inserted hlog row hrow
      exact ⟨hpolicy, hchain, hcontent, hacc.logged entry⟩
  current := by
    intro e he c b hb
    rcases List.mem_cons.mp he with rfl | he
    · exact (hrevision c b hb).2.1
    · exact (hi.current e he c b hb).trans (hmono c)
  ordered := by
    refine List.Pairwise.cons (fun older holder c a b ha hb => ?_) hi.ordered
    obtain ⟨hle, -, hlt⟩ := hrevision c b hb
    have hold := hi.current older holder c a ha
    exact ⟨hold.trans hle, fun hroll => Nat.lt_of_le_of_lt hold (hlt hroll)⟩

theorem dbs {dbs : Nat → Db} (hi : OutboxInv w)
    (hsame : ∀ c, (dbs c).revision = (w.dbs c).revision) : OutboxInv { w with dbs := dbs } where
  required := hi.required
  held := hi.held
  accepted := hi.accepted
  accounted := hi.accounted
  current := fun e he c b hb => (hsame c).symm ▸ hi.current e he c b hb
  ordered := hi.ordered

end OutboxInv

/-! ## 7. What each event preserves -/

theorem commitSyncRange_revision {input : SyncRangeCommit} {db db' : Db} {u : Unit}
    (h : Tx.Returns (commitSyncRange input) db u db') :
    db.revision = input.result.checkpoint.revision ∧ db'.revision = db.revision := by
  obtain ⟨db₁, outbox, scans, recovery, hpersist, rfl⟩ := (commitSyncRange_effect h).persisted
  refine ⟨hpersist.revision_current, ?_⟩
  show db₁.revision = db.revision
  rw [hpersist.rest]

/-- A program that rolls the chain back when it returns. -/
def RollsBackTo (plan : ReorgRollbackPlan) (program : StoreM Unit) : Prop :=
  ∀ db u db', Tx.Returns program db u db' →
    db.revision = plan.checkpoint.revision ∧ db'.revision = db.revision + 1

theorem rollbackFromBlock_rollsBackTo (plan : ReorgRollbackPlan) (snapshot : Erc721RollbackSnapshot) :
    RollsBackTo plan (rollbackFromBlock plan snapshot) := by
  intro db u db' h
  have heff := rollbackFromBlock_effect h
  exact ⟨heff.revision_current, heff.revision⟩

theorem commitRollbackAndResync_rollsBackTo (input : RollbackCommit) :
    RollsBackTo input.plan (commitRollbackAndResync input) := by
  intro db u db' h
  obtain ⟨db₁, hroll, hrest⟩ := (commitRollbackAndResync_effect h).rolled
  refine ⟨hroll.revision_current, ?_⟩
  rw [hrest]
  exact hroll.revision

namespace OutboxInv

variable {w : OutboxWorld}

theorem commit (hi : OutboxInv w) (chainId : Nat) (input : SyncRangeCommit) :
    OutboxInv (w.commit chainId input) := by
  unfold OutboxWorld.commit
  split
  · exact hi
  next u db hrun =>
  obtain ⟨hcurrent, hrevision⟩ := commitSyncRange_revision hrun
  have henq := @enqueued_syncFollowUps chainId input.result.checkpoint.revision input.followUps w.queue
  have hsame (c : Nat) : (Function.update w.dbs chainId db c).revision = (w.dbs c).revision := by
    by_cases hc : c = chainId
    · subst hc
      rw [update_self, hrevision]
    · rw [update_of_ne hc]
  refine (hi.enqueued henq).logged (fun c => (hsame c).ge) ?_ ?_
  · intro c b hb
    simp only [LogEntry.revision, Option.some.injEq, Prod.mk.injEq] at hb
    obtain ⟨rfl, rfl⟩ := hb
    exact ⟨hcurrent.le, (hcurrent.symm.trans (hsame chainId).symm).le, fun h => absurd h id⟩
  · intro c i inserted heq row hrow
    cases heq
    obtain ⟨hmem, hnew⟩ := Table.mem_select.mp hrow
    have hlt : w.queue.sequence < row.outboxId := of_decide_eq_true hnew
    -- the old rows have old ids
    rcases mem_enqueueSyncFollowUps hmem with hold | ⟨hpolicy, hchain, hcontent⟩
    · exact absurd (w.queue.issued row hold) (Nat.not_le.mpr hlt)
    refine ⟨hpolicy, hchain, hcontent, Or.inl ⟨row, hmem, rfl, ?_⟩⟩
    rcases henq.added row hmem with hold | ⟨-, hpending⟩
    · exact absurd (w.queue.issued row hold) (Nat.not_le.mpr hlt)
    · exact Or.inl hpending

theorem rollback {plan : ReorgRollbackPlan} {program : StoreM Unit} (hi : OutboxInv w) (chainId : Nat)
    (hroll : RollsBackTo plan program) : OutboxInv (w.rollback chainId plan program) := by
  unfold OutboxWorld.rollback
  split
  · exact hi
  next u db hrun =>
  obtain ⟨hcurrent, hrevision⟩ := hroll _ _ _ hrun
  have hmono (c : Nat) : (w.dbs c).revision ≤ (Function.update w.dbs chainId db c).revision := by
    by_cases hc : c = chainId
    · subst hc
      rw [update_self, hrevision]
      exact Nat.le_succ _
    · rw [update_of_ne hc]
  let orphans := w.queue.rows.select (QueueOutbox.isRolledBack chainId plan.fromBlock)
  have hlogged : OutboxInv { w with
      dbs := Function.update w.dbs chainId db
      log := .rolledBack chainId plan orphans :: w.log } := by
    refine hi.logged hmono ?_ (fun c input inserted heq => by cases heq)
    intro c b hb
    simp only [LogEntry.revision, Option.some.injEq, Prod.mk.injEq] at hb
    obtain ⟨rfl, rfl⟩ := hb
    rw [update_self, hrevision, hcurrent]
    exact ⟨Nat.le_succ _, Nat.le_refl _, fun _ => Nat.lt_succ_self _⟩
  refine hlogged.deleteWhere (fun r hr hp row hident => Or.inr ?_)
  simp only [QueueOutbox.isRolledBack, Bool.and_eq_true, decide_eq_true_eq, Option.any_eq_true] at hp
  obtain ⟨hchain, n, hn, hle⟩ := hp
  have hcontent : r.content = row.content := congrArg QueueOutboxIdentity.content hident
  have hsame : r.chainId = row.chainId := congrArg QueueOutboxIdentity.chainId hident
  refine ⟨plan, orphans, n, ?_, hcontent ▸ hn, hle, r, Table.mem_select.mpr ⟨hr, ?_⟩, hident⟩
  · rw [← hsame, hchain]
    exact List.mem_cons_self
  · simp [QueueOutbox.isRolledBack, hchain, hn, hle]

variable {d : Nat}

theorem held_policy {record : QueueOutboxDrainRecord} {r : QueueOutboxRow} (hi : OutboxInv w)
    (hrec : record ∈ (w.drainers d).due) (hr : r ∈ w.queue.rows) (hid : r.outboxId = record.outboxId) :
    record.retryPolicy = r.retryPolicy :=
  ((hi.held d record hrec).2 r hr hid).2.2.2

theorem recordPublication {record : QueueOutboxDrainRecord} (hi : OutboxInv w)
    (hrec : record ∈ (w.drainers d).due) (hpublished : .published record ∈ w.log) :
    OutboxInv { w with queue := Indexer.recordPublication record w.queue } := by
  unfold Indexer.recordPublication
  split
  · refine hi.deleteWhere (fun r hr hp row hident => Or.inl ?_)
    obtain ⟨hid, -⟩ := of_decide_eq_true hp
    have hof := (hi.held d record hrec).2 r hr hid
    rw [hident] at hof
    obtain ⟨hrow, hqueue, hjob, -⟩ := hof
    exact ⟨record, hpublished, hrow, hqueue, hjob⟩
  · next hbounded =>
    refine hi.updateDelivery (fun r hr hid hrequired => ?_)
    exact absurd ((hi.held_policy hrec hr hid).trans hrequired) hbounded

theorem recordFailure {record : QueueOutboxDrainRecord} (hi : OutboxInv w)
    (options : QueueOutboxDrainerOptions) (now : Nat) (hrec : record ∈ (w.drainers d).due) :
    OutboxInv { w with queue := Indexer.recordFailure options now record w.queue } := by
  unfold Indexer.recordFailure QueueOutbox.markFailed
  refine hi.updateDelivery (fun r hr hid hrequired => Or.inr ?_)
  have hpolicy := (hi.held_policy hrec hr hid).trans hrequired
  simp [hpolicy]

theorem publish (hi : OutboxInv w) (d : Nat) (accepted : Bool) : OutboxInv (w.publish d accepted) := by
  unfold OutboxWorld.publish
  split
  · next record rest hd =>
    split
    · have hheld := hi.held d
      rw [hd] at hheld
      have hlogged : OutboxInv { w with log := .published record :: w.log } :=
        hi.logged (fun c => Nat.le_refl _) (fun c b hb => by cases hb)
          (fun c input inserted heq => by cases heq)
      refine hlogged.drainer hheld (fun r tail heq => ?_)
      cases heq
      exact List.mem_cons_self
    · exact hi.drainer_of_subset hd (List.Subset.refl _) (by simp)
  · exact hi

theorem recordOutcome (options : QueueOutboxDrainerOptions) (hi : OutboxInv w) (d now : Nat)
    (throws : Bool) : OutboxInv (OutboxWorld.recordOutcome options w d now throws) := by
  unfold OutboxWorld.recordOutcome
  split
  · next record rest hd =>
    have hrec : record ∈ (w.drainers d).due := by rw [hd]; exact List.mem_cons_self
    split
    · exact hi.drainer_of_subset hd (List.Subset.refl _) (by simp)
    · have hnext := hi.recordPublication hrec (hi.accepted d record rest hd)
      exact hnext.drainer_of_subset hd (List.subset_cons_self _ _) (by simp)
  · next record rest hd =>
    have hrec : record ∈ (w.drainers d).due := by rw [hd]; exact List.mem_cons_self
    split
    · exact hi.drainer_of_subset hd (List.nil_subset _) (by simp [Drainer.idle])
    · have hnext := hi.recordFailure options now hrec
      exact hnext.drainer_of_subset hd (List.subset_cons_self _ _) (by simp)
  · exact hi

theorem step (options : Nat → QueueOutboxDrainerOptions) (hi : OutboxInv w) :
    ∀ event, OutboxInv (w.step options event)
  | .commit chainId input => hi.commit chainId input
  | .rollback chainId plan snapshot =>
    hi.rollback chainId (rollbackFromBlock_rollsBackTo plan snapshot)
  | .rollbackAndResync chainId input =>
    hi.rollback chainId (commitRollbackAndResync_rollsBackTo input)
  | .other chainId write => by
    refine hi.dbs (fun c => ?_)
    by_cases hc : c = chainId
    · subst hc
      rw [update_self]
    · rw [update_of_ne hc]
  | .enqueueJob chainId job nextAttemptAt =>
    hi.enqueued (enqueued_insertJob w.queue chainId ⟨job, none, none⟩ .bounded nextAttemptAt)
  | .listDue d nowMs => by
    simp only [OutboxWorld.step]
    split
    · refine hi.drainer (fun record hrec => ?_)
        (fun r tail heq => absurd (congrArg Drainer.phase heq) (by simp))
      obtain ⟨r, hr, rfl⟩ := mem_listDue hrec
      refine ⟨w.queue.issued r hr, fun r' hr' hid => ?_⟩
      rw [Table.eq_of_key_eq hr' hr hid]
      exact ⟨rfl, rfl, rfl, rfl⟩
    · exact hi
  | .publish d accepted => hi.publish d accepted
  | .recordOutcome d now throws => hi.recordOutcome (options d) d now throws
  | .crash d => hi.drainer_of_subset rfl (List.nil_subset _) (by simp [Drainer.idle])

theorem run (options : Nat → QueueOutboxDrainerOptions) :
    ∀ (events : List OutboxEvent) {w : OutboxWorld}, OutboxInv w → OutboxInv (w.run options events)
  | [], _, hi => hi
  | event :: rest, _, hi => run options rest (hi.step options event)

end OutboxInv

/-! ## 8. No follow-up is lost -/

theorem toString_injective {a b : Nat} (h : toString a = toString b) : a = b := by
  have hread (n : Nat) : Nat.ofDigitChars 10 (toString n).toList 0 = n := by simp
  rw [← hread a, h, hread b]

theorem syncFollowUpJobId_revision {a b : Nat} {f g : SyncFollowUp} (hbase : f.job.jobId = g.job.jobId)
    (h : syncFollowUpJobId a f = syncFollowUpJobId b g) : a = b := by
  unfold syncFollowUpJobId at h
  rw [hbase, String.append_right_inj] at h
  exact toString_injective h

theorem rollback_keeps_range {w : OutboxWorld} {chainId : Nat} {plan : ReorgRollbackPlan}
    {program : StoreM Unit} (hr : r ∈ w.queue.rows)
    (hrange : r.content.syncBlockNumber = none) : r ∈ (w.rollback chainId plan program).queue.rows := by
  unfold OutboxWorld.rollback
  split
  · exact hr
  · refine Table.mem_deleteWhere.mpr ⟨hr, ?_⟩
    simp [QueueOutbox.isRolledBack, hrange]

/-- No required follow-up is lost: what holds of a state and its history. -/
structure FollowUpsKept (options : Nat → QueueOutboxDrainerOptions) (w : OutboxWorld) : Prop where
  /-- A row of a commit is one of its follow-ups; it is required; it waits, was published, or was
  deleted by a rollback. -/
  accounted : ∀ chainId input inserted, .committed chainId input inserted ∈ w.log →
    ∀ row ∈ inserted, row.retryPolicy = .required ∧ row.chainId = chainId ∧ (∃ followUp ∈ input.followUps,
        row.content = followUp.content input.result.checkpoint.revision) ∧
      (WaitsIn w.queue row ∨ PublishedIn w.log row ∨ RolledBackIn w.log row)
  /-- No required row is sent or terminal. -/
  required_open : ∀ r ∈ w.queue.rows, r.retryPolicy = .required →
    r.status = .pending ∨ r.status = .failedRetry
  /-- A range follow-up has no block, and waits or was published whatever was rolled back. -/
  range_accounted : ∀ chainId input inserted, .committed chainId input inserted ∈ w.log →
    ∀ row ∈ inserted, ∀ job,
      row.content = (SyncFollowUp.range job).content input.result.checkpoint.revision →
      WaitsIn w.queue row ∨ PublishedIn w.log row
  /-- The next rollback, too, leaves the rows without a block as they are. -/
  range_survives : ∀ r ∈ w.queue.rows, r.content.syncBlockNumber = none → ∀ chainId,
    (∀ plan snapshot, r ∈ (w.step options (.rollback chainId plan snapshot)).queue.rows) ∧
      ∀ input, r ∈ (w.step options (.rollbackAndResync chainId input)).queue.rows
  /-- Two commits of a chain with a rollback between them: equal base ids, different job ids. -/
  distinct_jobIds : ∀ chainId input₁ inserted₁ plan removed input₂ inserted₂,
    [.committed chainId input₂ inserted₂, .rolledBack chainId plan removed,
      .committed chainId input₁ inserted₁].Sublist w.log →
    ∀ f₁ ∈ input₁.followUps, ∀ f₂ ∈ input₂.followUps, f₁.job.jobId = f₂.job.jobId →
      syncFollowUpJobId input₁.result.checkpoint.revision f₁ ≠
        syncFollowUpJobId input₂.result.checkpoint.revision f₂

/-- **Required follow-ups are never lost**, in any run of commits, drains, failures, crashes and
rollbacks over an outbox that was empty. -/
theorem required_followUps_kept (options : Nat → QueueOutboxDrainerOptions) (dbs : Nat → Db)
    (events : List OutboxEvent) : FollowUpsKept options (.run options (.fresh dbs) events) := by
  have hi := OutboxInv.run options events (OutboxInv.fresh dbs)
  refine ⟨hi.accounted, hi.required, ?_, ?_, ?_⟩
  · intro chainId input inserted hlog row hrow job hcontent
    obtain ⟨-, -, -, hacc⟩ := hi.accounted chainId input inserted hlog row hrow
    rcases hacc with hwaits | hpublished | ⟨_, _, n, -, hn, -⟩
    · exact Or.inl hwaits
    · exact Or.inr hpublished
    · rw [hcontent] at hn
      cases hn
  · intro r hr hrange chainId
    exact ⟨fun plan snapshot => rollback_keeps_range hr hrange, fun input => rollback_keeps_range hr hrange⟩
  · intro chainId input₁ inserted₁ plan removed input₂ inserted₂ hsub f₁ _ f₂ _ hbase hid
    have heq := syncFollowUpJobId_revision hbase hid
    have hordered := hi.ordered.sublist hsub
    simp only [List.pairwise_cons, List.mem_cons, List.not_mem_nil, or_false] at hordered
    obtain ⟨hsecond, hrollback, -⟩ := hordered
    have hle := (hsecond _ (Or.inl rfl) chainId _ _ rfl rfl).1
    have hlt := (hrollback _ rfl chainId _ _ rfl rfl).2 rfl
    omega

end Artgod.Indexer
