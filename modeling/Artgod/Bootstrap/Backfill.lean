/-
# The backfill step and its handoff

The executor of the backfill step (`application/bootstrap-backfill-executor.ts`) as a sequence of store
statements and of calls it waits for: `Position` is where an executor stands, `Position.advance` its next
action.  Between two actions it may crash or be superseded, and coverage may come and go.  The mark and the
handoff are two statements, and none on the result looks at the status; `MeetsHandoff` excludes the runs in
which that loses the handoff.
-/
import Artgod.Bootstrap.Steps
import Artgod.Indexer.Gaps
import Mathlib.Data.List.Induction

namespace Artgod.Bootstrap

open Store Indexer

/-! ## 1. Ranges, plans and results -/

structure BlockRange where
  fromBlock : Nat
  toBlock : Nat
deriving DecidableEq

inductive BootstrapBackfillPlan where
  | noPostAnchorBlocks (fromBlock headBlock : Nat)
  | queueBackfill (range : BlockRange) (totalBlocks : Nat)

def resolveBootstrapBackfillPlan (fromBlock headBlock : Nat) : BootstrapBackfillPlan :=
  if headBlock < fromBlock then .noPostAnchorBlocks fromBlock headBlock
  else .queueBackfill ⟨fromBlock, headBlock⟩ (headBlock - fromBlock + 1)

/-- `BOOTSTRAP_BACKFILL_STEP_RESULT_REASON.NoPostAnchorBlocks`. -/
def noPostAnchorBlocksReason : String := "no post-anchor blocks"

def bootstrapBackfillRecoveryRetryMs : Nat := 60000

def buildBootstrapBackfillDelegatedStepResult (range : BlockRange)
    (recovery : Option BootstrapBackfillRecovery) : StepResult :=
  { fromBlock := some range.fromBlock, toBlock := some range.toBlock, recovery := recovery }

def buildBootstrapBackfillTerminalStepResult (reason : Option String) (range : Option BlockRange)
    (liveBlock : Nat) : StepResult :=
  { liveBlock := some liveBlock
    reason := reason
    fromBlock := range.map (·.fromBlock)
    toBlock := range.map (·.toBlock) }

variable (result : Option StepResult)

def parseBootstrapBackfillDelegatedRange : Option BlockRange :=
  match result.bind (·.fromBlock), result.bind (·.toBlock) with
  | some fromBlock, some toBlock => some ⟨fromBlock, toBlock⟩
  | _, _ => none

/-- What `parseBootstrapBackfillRecovery` asks of a retained recovery. -/
def isRecoveryOf (range : BlockRange) (recovery : BootstrapBackfillRecovery) : Bool :=
  range.fromBlock ≤ recovery.fromBlock && recovery.toBlock ≤ range.toBlock &&
    recovery.fromBlock ≤ recovery.toBlock && recovery.recoveryId ≠ ""

def parseBootstrapBackfillRecovery (range : BlockRange) : Option BootstrapBackfillRecovery :=
  (result.bind (·.recovery)).filter (isRecoveryOf range)

/-- `parseBootstrapBackfillLiveBlock`: the collection-live step throws if there is none. -/
def parseBootstrapBackfillLiveBlock : Option Nat :=
  result.bind (·.liveBlock)

/-! ## 2. An execution -/

/-- What an execution is given.  The batch size is the setting that the gap scheduler requires to be
positive. -/
structure BackfillInput where
  collectionId : CollectionId
  anchorBlock : Nat
  backfillBatchSize : Nat
  backfillBatchSize_pos : 1 ≤ backfillBatchSize

/-- What `randomUUID` returns. -/
structure Uuid where
  text : String
  nonempty : text ≠ ""

/-- The point that an execution has reached: its next action, with what it knows. -/
inductive Position where
  | executeStep (checkRange : Option BlockRange)
  | getBlockNumber
  | scheduleBackfillRange (range : BlockRange)
  | markStepRunning (range : BlockRange)
  | updateScheduledProgress (range : BlockRange)
  | saveDelegatedRange (range : BlockRange)
  | saveSkippedHandoff
  | countSyncedBlocks (range : BlockRange)
  | updateCheckedProgress (range : BlockRange) (synced : Nat)
  | markStepSucceeded (range : BlockRange)
  | saveHandoff (range : BlockRange)
  | readRetained (range : BlockRange)
  | findGap (range : BlockRange) (retained : Option BootstrapBackfillRecovery)
  | saveRecovery (range : BlockRange) (recovery : BootstrapBackfillRecovery) (nowMs : Nat)
  | publishRecovery (range : BlockRange) (recovery : BootstrapBackfillRecovery) (nowMs : Nat)
  | awaitRecovery (range : BlockRange) (recovery : BootstrapBackfillRecovery) (nowMs : Nat)
  | saveAcknowledged (range : BlockRange) (recovery : BootstrapBackfillRecovery) (nowMs : Nat)
  | scheduleBackfillCheck (range : BlockRange)
  | returned

/-- The answers of the calls an executor waits for, and of the clock. -/
inductive Answer where
  | none
  | head (headBlock : Nat)
  | time (nowMs : Nat) (uuid : Uuid)
  | acknowledged
  | failed
  | release (write : WorkerWrite)

/-- A recovery that an executor of `delegated` published. -/
structure RecoveryPublication where
  recoveryId : String
  range : BlockRange
  delegated : BlockRange

structure BackfillState where
  row : BootstrapStepRecord
  coverage : CoverageTable
  /-- the executor that claimed the step last -/
  current : Option Position
  /-- the executors that another claim has superseded -/
  superseded : List Position
  /-- ranges of the check jobs that were published -/
  checks : List BlockRange
  /-- recoveries that were published, newest first -/
  publications : List RecoveryPublication
  /-- recovery ids of acknowledged publications -/
  acknowledged : List String
  /-- recovery ids whose range an executor has found to be covered -/
  settled : List String

section

variable (s : BackfillState)

def BackfillState.write (statement : StepStatement) : BackfillState :=
  { s with row := statement.row s.row }

/-- The orchestrator's write after the executor has returned or thrown. -/
def orchestratorWrites : WorkerWrite → Bool
  | .releaseStepLease _ _ => true
  | .releaseStepLeaseAsRunning _ _ => true
  | .markStepFailedRetry _ _ _ => true
  | .markStepFailedTerminal _ _ => true
  | _ => false

/-- `recoverMissingRange` from its first search on: the recovery to publish, if any, and the retained
recovery if its range is covered. -/
def chooseRecovery (input : BackfillInput) (coverage : CoverageTable) (range : BlockRange)
    (retained : Option BootstrapBackfillRecovery) (nowMs : Nat) (uuid : Uuid) :
    Option BootstrapBackfillRecovery :=
  let pendingGap := retained.bind (fun r =>
    Indexer.findGap coverage input.collectionId r.fromBlock r.toBlock input.backfillBatchSize)
  if pendingGap.isSome ∧ retained.any (fun r => nowMs < r.retryAt) then none
  else
    match pendingGap <|> Indexer.findGap coverage input.collectionId range.fromBlock range.toBlock
        input.backfillBatchSize with
    | none => none
    | some gap =>
      if pendingGap.isSome ∧ retained.any (fun r => r.retryAt = 0) then retained
      else some ⟨gap.1, gap.2, uuid.text, 0⟩

/-- The retained recovery whose range has no gap any more. -/
def settledRecovery (input : BackfillInput) (coverage : CoverageTable)
    (retained : Option BootstrapBackfillRecovery) : List String :=
  match retained with
  | none => []
  | some r =>
    if (Indexer.findGap coverage input.collectionId r.fromBlock r.toBlock
      input.backfillBatchSize).isNone then [r.recoveryId] else []

/-- The next action of an execution.  An answer that does not fit leaves it where it is; `none` is
the end of the executor. -/
def Position.advance (input : BackfillInput) (s : BackfillState) :
    Position → Answer → BackfillState × Option Position
  | .executeStep checkRange, _ =>
    match checkRange <|> parseBootstrapBackfillDelegatedRange s.row.result with
    | some range =>
      if range.toBlock < range.fromBlock then (s, some .returned)
      else (s, some (.countSyncedBlocks range))
    | none => (s, some .getBlockNumber)
  | .getBlockNumber, .head headBlock =>
    match resolveBootstrapBackfillPlan (input.anchorBlock + 1) headBlock with
    | .noPostAnchorBlocks _ _ =>
      (s.write (markSkippedStmt noPostAnchorBlocksReason), some .saveSkippedHandoff)
    | .queueBackfill range _ => (s, some (.scheduleBackfillRange range))
  | .getBlockNumber, .failed => (s, some .returned)
  | .scheduleBackfillRange range, .acknowledged => (s, some (.markStepRunning range))
  | .scheduleBackfillRange _, .failed => (s, some .returned)
  | .markStepRunning range, _ => (s.write markRunningStmt, some (.updateScheduledProgress range))
  | .updateScheduledProgress range, _ =>
    (s.write (updateProgressStmt 0 (some (range.toBlock - range.fromBlock + 1))),
      some (.saveDelegatedRange range))
  | .saveDelegatedRange range, _ =>
    (s.write (updateResultStmt (buildBootstrapBackfillDelegatedStepResult range none)),
      some (.scheduleBackfillCheck range))
  | .saveSkippedHandoff, _ =>
    (s.write (updateResultStmt (buildBootstrapBackfillTerminalStepResult
      (some noPostAnchorBlocksReason) none input.anchorBlock)), some .returned)
  | .countSyncedBlocks range, _ =>
    (s, some (.updateCheckedProgress range
      (countCoverage s.coverage input.collectionId range.fromBlock range.toBlock)))
  | .updateCheckedProgress range synced, _ =>
    (s.write (updateProgressStmt synced (some (range.toBlock + 1 - range.fromBlock))),
      some (if synced < range.toBlock + 1 - range.fromBlock then .readRetained range
        else .markStepSucceeded range))
  | .markStepSucceeded range, _ =>
    (s.write (markSucceededStmt (range.toBlock + 1 - range.fromBlock)
      (some (range.toBlock + 1 - range.fromBlock))), some (.saveHandoff range))
  | .saveHandoff range, _ =>
    (s.write (updateResultStmt (buildBootstrapBackfillTerminalStepResult none (some range)
      range.toBlock)), some .returned)
  | .readRetained range, _ =>
    (s, some (.findGap range (parseBootstrapBackfillRecovery s.row.result range)))
  | .findGap range retained, .time nowMs uuid =>
    ({ s with settled := settledRecovery input s.coverage retained ++ s.settled },
      some (match chooseRecovery input s.coverage range retained nowMs uuid with
        | some recovery => .saveRecovery range recovery nowMs
        | none => .scheduleBackfillCheck range))
  | .saveRecovery range recovery nowMs, _ =>
    (s.write (updateResultStmt (buildBootstrapBackfillDelegatedStepResult range (some recovery))),
      some (.publishRecovery range recovery nowMs))
  | .publishRecovery range recovery nowMs, _ =>
    ({ s with
        publications := ⟨recovery.recoveryId, ⟨recovery.fromBlock, recovery.toBlock⟩, range⟩ ::
          s.publications },
      some (.awaitRecovery range recovery nowMs))
  | .awaitRecovery range recovery nowMs, .acknowledged =>
    ({ s with acknowledged := recovery.recoveryId :: s.acknowledged },
      some (.saveAcknowledged range recovery nowMs))
  | .awaitRecovery _ _ _, .failed => (s, some .returned)
  | .saveAcknowledged range recovery nowMs, _ =>
    (s.write (updateResultStmt (buildBootstrapBackfillDelegatedStepResult range
      (some { recovery with retryAt := nowMs + bootstrapBackfillRecoveryRetryMs }))),
      some (.scheduleBackfillCheck range))
  | .scheduleBackfillCheck range, .acknowledged =>
    ({ s with checks := range :: s.checks }, some .returned)
  | .scheduleBackfillCheck range, .failed =>
    -- the broker may have taken the job all the same
    ({ s with checks := range :: s.checks }, some .returned)
  | .returned, .release write =>
    if orchestratorWrites write then (s.write (write.statement .backfill), none)
    else (s, none)
  | position, _ => (s, some position)

/-! ## 3. Runs -/

/-- The events of a run.  A claim starts an execution, for a check job or without one; a job may be
delivered any number of times. -/
inductive BackfillEvent where
  | claim (lease : ClaimInput) (checkRange : Option BlockRange)
  | advance (answer : Answer)
  | crash
  | advanceSuperseded (index : Nat) (answer : Answer)
  | crashSuperseded (index : Nat)
  | coverBlock (row : CoverageRow)
  | deleteCoverage (rows : List CoverageRow)
  | reconcile
  | renewLease (leaseOwner : String) (leaseUntil nowMs : Nat)
  | retryTerminalRunStep

/-- The claim of the step for a job. -/
def BackfillState.claim (s : BackfillState) (lease : ClaimInput) (checkRange : Option BlockRange) :
    BackfillState :=
  { s with
    row := lease.claimed s.row
    current := some (.executeStep checkRange)
    superseded := s.current.toList ++ s.superseded }

/-- A superseded executor goes on. -/
def BackfillState.advanceSuperseded (input : BackfillInput) (s : BackfillState) (index : Nat)
    (answer : Answer) : BackfillState :=
  match s.superseded[index]? with
  | none => s
  | some position =>
    { (position.advance input s answer).1 with
      superseded :=
        match (position.advance input s answer).2 with
        | none => s.superseded.eraseIdx index
        | some next => s.superseded.set index next }

def BackfillEvent.step (input : BackfillInput) (s : BackfillState) : BackfillEvent → BackfillState
  | .claim lease checkRange =>
    if isClaimable lease.nowMs s.row = true ∧ ∀ range ∈ checkRange, range ∈ s.checks then
      s.claim lease checkRange
    else s
  | .advance answer =>
    match s.current with
    | none => s
    | some position =>
      { (position.advance input s answer).1 with current := (position.advance input s answer).2 }
  | .crash => { s with current := none }
  | .advanceSuperseded index answer => s.advanceSuperseded input index answer
  | .crashSuperseded index => { s with superseded := s.superseded.eraseIdx index }
  | .coverBlock row => { s with coverage := s.coverage.insertOrIgnore row }
  | .deleteCoverage rows => { s with coverage := s.coverage.deleteWhere (fun row => row ∈ rows) }
  | .reconcile => s.write markReadyStmt
  | .renewLease leaseOwner leaseUntil nowMs =>
    s.write (renewLeaseStmt .backfill leaseOwner leaseUntil nowMs)
  | .retryTerminalRunStep => s.write OperatorWrite.retryTerminalRunStep.statement

def BackfillState.start (coverage : CoverageTable) : BackfillState :=
  ⟨insertedRow (blockingStep .backfill .pending [.ownership]), coverage, none, [], [], [], [], []⟩

def runBackfill (input : BackfillInput) (coverage : CoverageTable) (events : List BackfillEvent) :
    BackfillState :=
  events.foldl (BackfillEvent.step input) (.start coverage)

theorem runBackfill_concat (input : BackfillInput) (coverage : CoverageTable)
    (events : List BackfillEvent) (event : BackfillEvent) :
    runBackfill input coverage (events ++ [event]) =
      event.step input (runBackfill input coverage events) := by
  unfold runBackfill
  rw [List.foldl_append]
  rfl

/-- The step is finished: succeeded or skipped. -/
def BackfillState.Finished : Prop :=
  s.row.status = .succeeded ∨ s.row.status = .skipped

/-- The executor has marked the step, and its handoff write is next. -/
def AtHandoff : Option Position → Prop
  | some .saveSkippedHandoff => True
  | some (.saveHandoff _) => True
  | _ => False

/-- Every block of the range is covered. -/
def CoveredRange (input : BackfillInput) (s : BackfillState) (range : BlockRange) : Prop :=
  ∀ n, range.fromBlock ≤ n → n ≤ range.toBlock → Covered s.coverage input.collectionId n

/-- The range that the executor has counted as covered and is about to mark the step for. -/
def countedRange : Option Position → Option BlockRange
  | some (.updateCheckedProgress range synced) =>
    if synced < range.toBlock + 1 - range.fromBlock then none else some range
  | some (.markStepSucceeded range) => some range
  | _ => none

/-- **The condition on an event**: no executor crashes between its mark and its handoff, none goes on
once another claim has superseded it, and no coverage of a range is deleted between the count that
found it complete and the mark. -/
def MeetsHandoff (input : BackfillInput) (s : BackfillState) : BackfillEvent → Prop
  | .crash => ¬ AtHandoff s.current
  | .advanceSuperseded _ _ => False
  | .deleteCoverage rows => ∀ range ∈ countedRange s.current, ∀ n, range.fromBlock ≤ n →
      n ≤ range.toBlock → (⟨input.collectionId, n⟩ : CoverageRow) ∉ rows
  | _ => True

/-! ## 4. The invariant -/

/-- The range that the step has delegated. -/
def BackfillState.delegated : Option BlockRange :=
  parseBootstrapBackfillDelegatedRange s.row.result

/-- The result retains the recovery of a publication, for another publication with its id. -/
def Retained (p : RecoveryPublication) : Prop :=
  ∃ recovery, s.row.result.bind (·.recovery) = some recovery ∧ recovery.recoveryId = p.recoveryId ∧
    recovery.retryAt = 0 ∧ isRecoveryOf p.delegated recovery = true

/-- The publication needs no other one with its id. -/
def Closed (p : RecoveryPublication) : Prop :=
  p.recoveryId ∈ s.acknowledged ∨ p.recoveryId ∈ s.settled

/-- The check jobs and the recoveries are for the range that the step has delegated, and the last
recovery is retained until it is closed. -/
structure Steady (s : BackfillState) : Prop where
  checks : ∀ range ∈ s.checks, s.delegated = some range
  published : ∀ p ∈ s.publications, s.delegated = some p.delegated
  last : ∀ p ∈ s.publications.head?, Closed s p ∨ Retained s p

/-- A running step with the executor at work on its delegated range. -/
structure Checking (s : BackfillState) (range : BlockRange) : Prop where
  steady : Steady s
  running : s.row.status = .running
  delegated : s.delegated = some range

/-- A running step that has delegated nothing so far. -/
structure Scheduling (s : BackfillState) : Prop where
  running : s.row.status = .running
  delegated : s.delegated = none
  checks : s.checks = []
  publications : s.publications = []

/-- The recovery that the executor will publish: of its range, unacknowledged, and the last one again
unless that is closed. -/
structure Chosen (s : BackfillState) (range : BlockRange) (recovery : BootstrapBackfillRecovery) :
    Prop where
  isRecovery : isRecoveryOf range recovery = true
  retryAt : recovery.retryAt = 0
  again : ∀ p ∈ s.publications.head?, Closed s p ∨ recovery.recoveryId = p.recoveryId

/-- A state without an executor at work: finished and handed over, or steady. -/
def Idle : Prop :=
  (s.Finished ∧ parseBootstrapBackfillLiveBlock s.row.result ≠ none) ∨ (¬ s.Finished ∧ Steady s)

end

/-- What holds at each position of the executor. -/
def PositionInv (input : BackfillInput) (s : BackfillState) : Option Position → Prop
  | none => Idle s
  | some .returned => Idle s
  | some (.executeStep checkRange) =>
    Steady s ∧ s.row.status = .running ∧ ∀ range ∈ checkRange, s.delegated = some range
  | some .getBlockNumber => Scheduling s
  | some (.scheduleBackfillRange _) => Scheduling s
  | some (.markStepRunning _) => Scheduling s
  | some (.updateScheduledProgress _) => Scheduling s
  | some (.saveDelegatedRange _) => Scheduling s
  | some .saveSkippedHandoff => s.Finished
  | some (.countSyncedBlocks range) => Checking s range
  | some (.updateCheckedProgress range synced) =>
    Checking s range ∧ (¬ synced < range.toBlock + 1 - range.fromBlock → CoveredRange input s range)
  | some (.markStepSucceeded range) => Checking s range ∧ CoveredRange input s range
  | some (.saveHandoff _) => s.Finished
  | some (.readRetained range) => Checking s range
  | some (.findGap range retained) =>
    Checking s range ∧ retained = parseBootstrapBackfillRecovery s.row.result range
  | some (.saveRecovery range recovery _) => Checking s range ∧ Chosen s range recovery
  | some (.publishRecovery range recovery _) =>
    Checking s range ∧ Chosen s range recovery ∧ s.row.result.bind (·.recovery) = some recovery
  | some (.awaitRecovery range recovery _) =>
    Checking s range ∧ ∀ p ∈ s.publications.head?, p.recoveryId = recovery.recoveryId
  | some (.saveAcknowledged range _ _) =>
    Checking s range ∧ ∀ p ∈ s.publications.head?, p.recoveryId ∈ s.acknowledged
  | some (.scheduleBackfillCheck range) => Checking s range

variable {s s' : BackfillState} {input : BackfillInput} {range : BlockRange}
  {recovery : BootstrapBackfillRecovery} {coverage : CoverageTable} {position : Position}
  {event : BackfillEvent}

theorem not_finished_of_running (h : s.row.status = .running) : ¬ s.Finished := by
  unfold BackfillState.Finished
  rw [h]
  simp

theorem Steady.congr (h : Steady s) (hresult : s'.row.result = s.row.result)
    (hchecks : s'.checks = s.checks) (hpublications : s'.publications = s.publications)
    (hack : s'.acknowledged = s.acknowledged) (hsettled : ∀ id ∈ s.settled, id ∈ s'.settled) :
    Steady s' := by
  have hdelegated : s'.delegated = s.delegated := by
    unfold BackfillState.delegated
    rw [hresult]
  refine ⟨?_, ?_, ?_⟩
  · intro range hrange
    rw [hdelegated]
    exact h.checks range (hchecks ▸ hrange)
  · intro p hp
    rw [hdelegated]
    exact h.published p (hpublications ▸ hp)
  intro p hp
  rcases h.last p (hpublications ▸ hp) with (hmem | hmem) | ⟨recovery, hrec, hrest⟩
  · exact .inl (.inl (by rw [hack]; exact hmem))
  · exact .inl (.inr (hsettled _ hmem))
  · exact .inr ⟨recovery, by rw [hresult]; exact hrec, hrest⟩

theorem Checking.congr (h : Checking s range)
    (hresult : s'.row.result = s.row.result) (hstatus : s'.row.status = s.row.status)
    (hchecks : s'.checks = s.checks) (hpublications : s'.publications = s.publications)
    (hack : s'.acknowledged = s.acknowledged) (hsettled : ∀ id ∈ s.settled, id ∈ s'.settled) :
    Checking s' range := by
  refine ⟨h.steady.congr hresult hchecks hpublications hack hsettled, ?_, ?_⟩
  · rw [hstatus]
    exact h.running
  · unfold BackfillState.delegated
    rw [hresult]
    exact h.delegated

theorem Scheduling.congr (h : Scheduling s)
    (hresult : s'.row.result = s.row.result) (hstatus : s'.row.status = s.row.status)
    (hchecks : s'.checks = s.checks) (hpublications : s'.publications = s.publications) :
    Scheduling s' := by
  refine ⟨?_, ?_, ?_, ?_⟩
  · rw [hstatus]
    exact h.running
  · unfold BackfillState.delegated
    rw [hresult]
    exact h.delegated
  · rw [hchecks]
    exact h.checks
  · rw [hpublications]
    exact h.publications

theorem Scheduling.steady (h : Scheduling s) : Steady s := by
  refine ⟨?_, ?_, ?_⟩
  · rw [h.checks]
    intro range hrange
    cases hrange
  · rw [h.publications]
    intro p hp
    cases hp
  · rw [h.publications]
    intro p hp
    cases hp

theorem Checking.idle (h : Checking s range) : Idle s :=
  .inr ⟨not_finished_of_running h.running, h.steady⟩

theorem Scheduling.idle (h : Scheduling s) : Idle s :=
  .inr ⟨not_finished_of_running h.running, h.steady⟩

theorem PositionInv.idle {position : Option Position}
    (h : PositionInv input s position) (hhandoff : ¬ AtHandoff position) : Idle s := by
  cases position with
  | none => exact h
  | some position =>
    cases position with
    | executeStep checkRange => exact .inr ⟨not_finished_of_running h.2.1, h.1⟩
    | returned => exact h
    | getBlockNumber => exact Scheduling.idle h
    | scheduleBackfillRange range => exact Scheduling.idle h
    | markStepRunning range => exact Scheduling.idle h
    | updateScheduledProgress range => exact Scheduling.idle h
    | saveDelegatedRange range => exact Scheduling.idle h
    | saveSkippedHandoff => exact absurd trivial hhandoff
    | saveHandoff range => exact absurd trivial hhandoff
    | countSyncedBlocks range => exact Checking.idle h
    | updateCheckedProgress range synced => exact h.1.idle
    | markStepSucceeded range => exact h.1.idle
    | readRetained range => exact Checking.idle h
    | findGap range retained => exact h.1.idle
    | saveRecovery range recovery nowMs => exact h.1.idle
    | publishRecovery range recovery nowMs => exact h.1.idle
    | awaitRecovery range recovery nowMs => exact h.1.idle
    | saveAcknowledged range recovery nowMs => exact h.1.idle
    | scheduleBackfillCheck range => exact Checking.idle h

theorem delegated_of_result {recovery : Option BootstrapBackfillRecovery}
    (h : s.row.result = some (buildBootstrapBackfillDelegatedStepResult range recovery)) :
    s.delegated = some range := by
  unfold BackfillState.delegated
  rw [h]
  rfl

/-! ## 5. Recoveries -/

theorem isRecoveryOf_iff : isRecoveryOf range recovery = true ↔
      range.fromBlock ≤ recovery.fromBlock ∧ recovery.toBlock ≤ range.toBlock ∧
        recovery.fromBlock ≤ recovery.toBlock ∧ recovery.recoveryId ≠ "" := by
  unfold isRecoveryOf
  simp [and_assoc]

theorem findGap_within {lower upper : Nat}
    {gap : Nat × Nat}
    (h : Indexer.findGap coverage input.collectionId lower upper input.backfillBatchSize = some gap) :
    lower ≤ gap.1 ∧ gap.1 ≤ gap.2 ∧ gap.2 ≤ upper := by
  have hanswer : GapAnswer coverage input.collectionId lower upper input.backfillBatchSize
      (Indexer.findGap coverage input.collectionId lower upper input.backfillBatchSize) :=
    findGap_answer input.backfillBatchSize_pos
  rw [h] at hanswer
  exact ⟨hanswer.1.lower_le, hanswer.1.ordered, hanswer.1.le_upper⟩

/-- **What an executor publishes is a non-empty part of its range.** -/
theorem chooseRecovery_isRecovery {retained : Option BootstrapBackfillRecovery} {nowMs : Nat} {uuid : Uuid}
    (hretained : ∀ r ∈ retained, isRecoveryOf range r = true)
    (h : chooseRecovery input coverage range retained nowMs uuid = some recovery) :
    isRecoveryOf range recovery = true ∧ recovery.retryAt = 0 := by
  unfold chooseRecovery at h
  simp only at h
  split at h
  · cases h
  split at h
  · cases h
  next gap hgap =>
  split at h
  · next hagain =>
    rw [h, Option.any_some, decide_eq_true_eq] at hagain
    exact ⟨hretained recovery h, hagain.2⟩
  rw [Option.some.injEq] at h
  subst h
  refine ⟨?_, rfl⟩
  rw [isRecoveryOf_iff]
  -- the gap is one of the retained recovery's range, or one of the whole range
  cases hpending : retained.bind (fun r => Indexer.findGap coverage input.collectionId
      r.fromBlock r.toBlock input.backfillBatchSize) with
  | none =>
    rw [hpending] at hgap
    obtain ⟨hlo, hne, hhi⟩ := findGap_within hgap
    exact ⟨hlo, hhi, hne, uuid.nonempty⟩
  | some pending =>
    rw [hpending] at hgap
    have heq : pending = gap := by simpa using hgap
    subst heq
    rw [Option.bind_eq_some_iff] at hpending
    obtain ⟨r, hr, hfind⟩ := hpending
    obtain ⟨hlo, hne, hhi⟩ := findGap_within hfind
    obtain ⟨hrlo, hrhi, -, -⟩ := isRecoveryOf_iff.mp (hretained r hr)
    exact ⟨by simp only; omega, by simp only; omega, hne, uuid.nonempty⟩

/-- **An unacknowledged recovery is chosen again, unless nothing of its range is missing.** -/
theorem chooseRecovery_again {nowMs : Nat} {uuid : Uuid} (h : recovery.retryAt = 0) :
    recovery.recoveryId ∈ settledRecovery input coverage (some recovery) ∨
      chooseRecovery input coverage range (some recovery) nowMs uuid = some recovery := by
  cases hgap : Indexer.findGap coverage input.collectionId recovery.fromBlock recovery.toBlock
      input.backfillBatchSize with
  | none =>
    left
    simp [settledRecovery, hgap]
  | some gap =>
    right
    simp [chooseRecovery, hgap, h]

/-! ## 6. What an action keeps -/

theorem statusWrite_running {set : BootstrapStepRecord → BootstrapStepRecord}
    {hkey : ∀ row, (set row).stepKey = row.stepKey}
    {hdeps : ∀ row, (set row).dependsOn = row.dependsOn} {row : BootstrapStepRecord}
    (h : row.status = .running) : (statusWrite set hkey hdeps).row row = set row := by
  unfold StepStatement.row statusWrite
  simp [h, isProtectedStatus]

theorem updateResult_row {result : StepResult} {row : BootstrapStepRecord} :
    (updateResultStmt result).row row = { row with result := some result } := by
  unfold StepStatement.row updateResultStmt
  simp

theorem Checking.saveResult (h : Checking s range) (hlast : ∀ p ∈ s.publications.head?, Closed s p ∨
      (recovery.recoveryId = p.recoveryId ∧ recovery.retryAt = 0 ∧ isRecoveryOf range recovery = true)) :
    Checking (s.write (updateResultStmt
      (buildBootstrapBackfillDelegatedStepResult range (some recovery)))) range := by
  have hresult : (s.write (updateResultStmt (buildBootstrapBackfillDelegatedStepResult range
      (some recovery)))).row.result =
      some (buildBootstrapBackfillDelegatedStepResult range (some recovery)) := by
    simp only [BackfillState.write, updateResult_row]
  have hdelegated := delegated_of_result hresult
  refine ⟨⟨?_, ?_, ?_⟩, ?_, hdelegated⟩
  · intro check hcheck
    rw [hdelegated, ← h.delegated]
    exact h.steady.checks check hcheck
  · intro p hp
    rw [hdelegated, ← h.delegated]
    exact h.steady.published p hp
  · intro p hp
    rcases hlast p hp with hclosed | ⟨hid, hzero, hrec⟩
    · exact .inl hclosed
    have hof : range = p.delegated := by
      have := h.steady.published p (List.mem_of_mem_head? hp)
      rw [h.delegated, Option.some.injEq] at this
      exact this
    refine .inr ⟨recovery, ?_, hid, hzero, hof ▸ hrec⟩
    rw [hresult]
    rfl
  · simp only [BackfillState.write, updateResult_row]
    exact h.running

theorem Checking.findGap (h : Checking s range) {retained : Option BootstrapBackfillRecovery}
    (hretained : retained = parseBootstrapBackfillRecovery s.row.result range) (nowMs : Nat)
    (uuid : Uuid) :
    PositionInv input ((Position.findGap range retained).advance input s (.time nowMs uuid)).1
      ((Position.findGap range retained).advance input s (.time nowMs uuid)).2 := by
  have hof : ∀ r ∈ retained, isRecoveryOf range r = true := by
    intro r hr
    rw [hretained] at hr
    unfold parseBootstrapBackfillRecovery at hr
    exact (Option.filter_eq_some_iff.mp hr).2
  have hsettled : ∀ id ∈ s.settled, id ∈ settledRecovery input s.coverage retained ++ s.settled :=
    fun id hid => List.mem_append_right _ hid
  have hchecking : Checking ((Position.findGap range retained).advance input s
      (.time nowMs uuid)).1 range := h.congr rfl rfl rfl rfl rfl hsettled
  cases hchoose : chooseRecovery input s.coverage range retained nowMs uuid with
  | none =>
    simp only [Position.advance, hchoose] at hchecking ⊢
    exact hchecking
  | some recovery =>
    simp only [Position.advance, hchoose] at hchecking ⊢
    obtain ⟨hisRecovery, hzero⟩ := chooseRecovery_isRecovery hof hchoose
    refine ⟨hchecking, hisRecovery, hzero, ?_⟩
    intro p hp
    rcases h.steady.last p hp with (hack | hset) | ⟨last, hlast, hid, hlastZero, hlastOf⟩
    · exact .inl (.inl hack)
    · exact .inl (.inr (hsettled _ hset))
    -- the retained recovery is the one of the last publication
    have hdelegated : range = p.delegated := by
      have := h.steady.published p (List.mem_of_mem_head? hp)
      rw [h.delegated, Option.some.injEq] at this
      exact this
    have hparse : retained = some last := by
      rw [hretained, parseBootstrapBackfillRecovery, hlast, Option.filter_eq_some_iff]
      exact ⟨rfl, by rw [hdelegated]; exact hlastOf⟩
    rcases chooseRecovery_again hlastZero with hmem | hagain
    · refine .inl (.inr ?_)
      rw [← hid]
      refine List.mem_append_left _ ?_
      rw [hparse]
      exact hmem
    · rw [hparse] at hchoose
      rw [hagain, Option.some.injEq] at hchoose
      exact .inr (hchoose ▸ hid)

theorem not_finished_of_not_protected {status : BootstrapStepStatus}
    (h : isProtectedStatus status = false) : status ≠ .succeeded ∧ status ≠ .skipped := by
  cases status <;> first | exact absurd h (by decide) | exact ⟨by decide, by decide⟩

theorem orchestratorWrites_row {runStatus : BootstrapRunStatus} {write : WorkerWrite}
    (h : orchestratorWrites write = true) (row : BootstrapStepRecord) :
    ((write.statement runStatus).row row).result = row.result ∧
      (((write.statement runStatus).row row).status = .succeeded ↔ row.status = .succeeded) ∧
      (((write.statement runStatus).row row).status = .skipped ↔ row.status = .skipped) := by
  unfold StepStatement.row
  split
  · next hguard =>
    cases write with
    | releaseStepLease leaseOwner nextAttemptAt =>
      have hs : row.status = .running := by
        have := hguard
        simp only [WorkerWrite.statement, releaseReadyStmt, Bool.and_eq_true,
          decide_eq_true_eq] at this
        exact this.1
      simp [WorkerWrite.statement, releaseReadyStmt, hs]
    | releaseStepLeaseAsRunning leaseOwner nextAttemptAt =>
      simp [WorkerWrite.statement, releaseRunningStmt]
    | markStepFailedRetry attempts nextAttemptAt error =>
      have hs : isProtectedStatus row.status = false := by
        simpa [WorkerWrite.statement, markFailedRetryStmt, statusWrite] using hguard
      obtain ⟨hsucceeded, hskipped⟩ := not_finished_of_not_protected hs
      simp [WorkerWrite.statement, markFailedRetryStmt, statusWrite, hsucceeded, hskipped]
    | markStepFailedTerminal attempts error =>
      have hs : isProtectedStatus row.status = false := by
        simpa [WorkerWrite.statement, markFailedTerminalStmt, statusWrite] using hguard
      obtain ⟨hsucceeded, hskipped⟩ := not_finished_of_not_protected hs
      simp [WorkerWrite.statement, markFailedTerminalStmt, statusWrite, hsucceeded, hskipped]
    | _ => cases h
  · exact ⟨rfl, Iff.rfl, Iff.rfl⟩

theorem Idle.congr (h : Idle s) (hresult : s'.row.result = s.row.result)
    (hfinished : s'.Finished ↔ s.Finished) (hchecks : s'.checks = s.checks)
    (hpublications : s'.publications = s.publications) (hack : s'.acknowledged = s.acknowledged)
    (hsettled : ∀ id ∈ s.settled, id ∈ s'.settled) : Idle s' := by
  rcases h with ⟨hfin, hlive⟩ | ⟨hfin, hsteady⟩
  · exact .inl ⟨hfinished.mpr hfin, by rw [hresult]; exact hlive⟩
  · exact .inr ⟨fun hf => hfin (hfinished.mp hf), hsteady.congr hresult hchecks hpublications hack hsettled⟩

theorem advance_inv (h : PositionInv input s (some position)) (answer : Answer) :
    PositionInv input (position.advance input s answer).1 (position.advance input s answer).2 := by
  have hsame : ∀ id ∈ s.settled, id ∈ s.settled := fun id hid => hid
  cases position with
  | executeStep checkRange =>
    obtain ⟨hsteady, hrunning, hcheck⟩ := h
    have hidle : Idle s := .inr ⟨not_finished_of_running hrunning, hsteady⟩
    simp only [Position.advance]
    split
    · next range hrange =>
      have hdelegated : s.delegated = some range := by
        cases checkRange with
        | none => exact hrange
        | some check =>
          rw [hcheck check rfl]
          simpa using hrange
      split
      · exact hidle
      · exact ⟨hsteady, hrunning, hdelegated⟩
    · next hnone =>
      have hdelegated : s.delegated = none := by
        cases checkRange with
        | none => exact hnone
        | some check => cases hnone
      refine ⟨hrunning, hdelegated, ?_, ?_⟩
      · refine List.eq_nil_iff_forall_not_mem.mpr (fun range hrange => ?_)
        have := hsteady.checks range hrange
        rw [hdelegated] at this
        cases this
      · refine List.eq_nil_iff_forall_not_mem.mpr (fun p hp => ?_)
        have := hsteady.published p hp
        rw [hdelegated] at this
        cases this
  | getBlockNumber =>
    have h : Scheduling s := h
    cases answer with
    | head headBlock =>
      simp only [Position.advance]
      split
      · right
        simp only [BackfillState.write, markSkippedStmt, statusWrite_running h.running]
      · exact h
    | failed => exact h.idle
    | _ => exact h
  | scheduleBackfillRange range =>
    have h : Scheduling s := h
    cases answer with
    | failed => exact h.idle
    | _ => exact h
  | markStepRunning range =>
    have h : Scheduling s := h
    refine h.congr ?_ ?_ rfl rfl
    · simp only [Position.advance, BackfillState.write, markRunningStmt, statusWrite_running h.running]
    · simp only [Position.advance, BackfillState.write, markRunningStmt,
        statusWrite_running h.running, h.running]
  | updateScheduledProgress range =>
    have h : Scheduling s := h
    refine h.congr ?_ ?_ rfl rfl
    · simp only [Position.advance, BackfillState.write, updateProgressStmt, statusWrite_running h.running]
    · simp only [Position.advance, BackfillState.write, updateProgressStmt, statusWrite_running h.running]
  | saveDelegatedRange range =>
    have h : Scheduling s := h
    have hresult : ((Position.saveDelegatedRange range).advance input s answer).1.row.result =
        some (buildBootstrapBackfillDelegatedStepResult range none) := by
      simp only [Position.advance, BackfillState.write, updateResult_row]
    refine ⟨⟨?_, ?_, ?_⟩, ?_, delegated_of_result hresult⟩
    · intro check hcheck
      have hnil : check ∈ s.checks := hcheck
      rw [h.checks] at hnil
      cases hnil
    · intro p hp
      have hnil : p ∈ s.publications := hp
      rw [h.publications] at hnil
      cases hnil
    · intro p hp
      have hnil : p ∈ s.publications.head? := hp
      rw [h.publications] at hnil
      cases hnil
    · simp only [Position.advance, BackfillState.write, updateResult_row]
      exact h.running
  | saveSkippedHandoff =>
    refine .inl ⟨?_, ?_⟩
    · simp only [Position.advance, BackfillState.write, updateResult_row]
      exact h
    · simp [Position.advance, BackfillState.write, updateResult_row,
        parseBootstrapBackfillLiveBlock, buildBootstrapBackfillTerminalStepResult]
  | countSyncedBlocks range =>
    have h : Checking s range := h
    refine ⟨h, ?_⟩
    intro hfull
    -- a count of the whole window means that each of its blocks is covered
    have hle : countCoverage s.coverage input.collectionId range.fromBlock range.toBlock ≤
        range.toBlock + 1 - range.fromBlock := countCoverage_le
    have heq : countCoverage s.coverage input.collectionId range.fromBlock range.toBlock =
        range.toBlock + 1 - range.fromBlock := Nat.le_antisymm hle (Nat.not_lt.mp hfull)
    exact countCoverage_eq_iff.mp heq
  | updateCheckedProgress range synced =>
    obtain ⟨hchecking, hcovered⟩ := h
    have hnew : Checking (s.write (updateProgressStmt synced
        (some (range.toBlock + 1 - range.fromBlock)))) range := by
      refine hchecking.congr ?_ ?_ rfl rfl rfl hsame
      · simp only [BackfillState.write, updateProgressStmt, statusWrite_running hchecking.running]
      · simp only [BackfillState.write, updateProgressStmt, statusWrite_running hchecking.running]
    simp only [Position.advance]
    split
    · exact hnew
    · next hfull => exact ⟨hnew, hcovered hfull⟩
  | markStepSucceeded range =>
    left
    simp only [Position.advance, BackfillState.write, markSucceededStmt, statusWrite_running h.1.running]
  | saveHandoff range =>
    refine .inl ⟨?_, ?_⟩
    · simp only [Position.advance, BackfillState.write, updateResult_row]
      exact h
    · simp [Position.advance, BackfillState.write, updateResult_row,
        parseBootstrapBackfillLiveBlock, buildBootstrapBackfillTerminalStepResult]
  | readRetained range => exact ⟨h, rfl⟩
  | findGap range retained =>
    cases answer with
    | time nowMs uuid => exact h.1.findGap h.2 nowMs uuid
    | _ => exact h
  | saveRecovery range recovery nowMs =>
    obtain ⟨hchecking, hchosen⟩ := h
    refine ⟨hchecking.saveResult ?_, ⟨hchosen.isRecovery, hchosen.retryAt, hchosen.again⟩, ?_⟩
    · intro p hp
      rcases hchosen.again p hp with hclosed | hid
      · exact .inl hclosed
      · exact .inr ⟨hid, hchosen.retryAt, hchosen.isRecovery⟩
    · simp only [Position.advance, BackfillState.write, updateResult_row]
      rfl
  | publishRecovery range recovery nowMs =>
    obtain ⟨hchecking, hchosen, hsaved⟩ := h
    refine ⟨⟨⟨hchecking.steady.checks, ?_, ?_⟩, hchecking.running, hchecking.delegated⟩, ?_⟩
    · intro p hp
      rcases List.mem_cons.mp hp with rfl | hp
      · exact hchecking.delegated
      · exact hchecking.steady.published p hp
    · intro p hp
      obtain rfl : p = _ := (Option.some.inj hp).symm
      exact .inr ⟨recovery, hsaved, rfl, hchosen.retryAt, hchosen.isRecovery⟩
    · intro p hp
      obtain rfl : p = _ := (Option.some.inj hp).symm
      rfl
  | awaitRecovery range recovery nowMs =>
    obtain ⟨hchecking, hhead⟩ := h
    cases answer with
    | acknowledged =>
      refine ⟨⟨⟨hchecking.steady.checks, hchecking.steady.published, ?_⟩, hchecking.running,
        hchecking.delegated⟩, ?_⟩
      · intro p hp
        refine .inl (.inl ?_)
        rw [hhead p hp]
        exact List.mem_cons_self
      · intro p hp
        rw [hhead p hp]
        exact List.mem_cons_self
    | failed => exact hchecking.idle
    | _ => exact ⟨hchecking, hhead⟩
  | saveAcknowledged range recovery nowMs =>
    obtain ⟨hchecking, hhead⟩ := h
    exact hchecking.saveResult (fun p hp => .inl (.inl (hhead p hp)))
  | scheduleBackfillCheck range =>
    have h : Checking s range := h
    have hpublished : Idle { s with checks := range :: s.checks } := by
      refine .inr ⟨not_finished_of_running h.running, ?_, h.steady.published, h.steady.last⟩
      intro check hcheck
      rcases List.mem_cons.mp hcheck with rfl | hcheck
      · exact h.delegated
      · exact h.steady.checks check hcheck
    cases answer with
    | acknowledged => exact hpublished
    | failed => exact hpublished
    | _ => exact h
  | returned =>
    have h : Idle s := h
    cases answer with
    | release write =>
      simp only [Position.advance]
      split
      · next hwrite =>
        obtain ⟨hresult, hsucceeded, hskipped⟩ := orchestratorWrites_row hwrite s.row
        exact h.congr hresult (or_congr hsucceeded hskipped) rfl rfl rfl hsame
      · exact h
    | _ => exact h

/-! ## 7. What an event keeps -/

/-- What holds at a position depends on the result, on whether the step runs or is finished, on the
jobs, and on the coverage of the range that was counted. -/
theorem PositionInv.congr {position : Option Position} (h : PositionInv input s position)
    (hresult : s'.row.result = s.row.result)
    (hrunning : s.row.status = .running → s'.row.status = .running)
    (hfinished : s'.Finished ↔ s.Finished) (hchecks : s'.checks = s.checks)
    (hpublications : s'.publications = s.publications) (hack : s'.acknowledged = s.acknowledged)
    (hsettled : s'.settled = s.settled)
    (hcovered : ∀ range ∈ countedRange position, CoveredRange input s range →
      CoveredRange input s' range) : PositionInv input s' position := by
  have hset : ∀ id ∈ s.settled, id ∈ s'.settled := by
    intro id hid
    rw [hsettled]
    exact hid
  have hidle : Idle s → Idle s' := fun hi =>
    hi.congr hresult hfinished hchecks hpublications hack hset
  have hsteady : Steady s → Steady s' := fun hs =>
    hs.congr hresult hchecks hpublications hack hset
  have hdelegated : s'.delegated = s.delegated := by
    unfold BackfillState.delegated
    rw [hresult]
  have hchecking : ∀ range, Checking s range → Checking s' range := by
    intro range hc
    exact ⟨hsteady hc.steady, hrunning hc.running, by rw [hdelegated]; exact hc.delegated⟩
  have hscheduling : Scheduling s → Scheduling s' := by
    intro hs
    exact ⟨hrunning hs.running, by rw [hdelegated]; exact hs.delegated,
      by rw [hchecks]; exact hs.checks, by rw [hpublications]; exact hs.publications⟩
  have hchosen : ∀ range recovery, Chosen s range recovery → Chosen s' range recovery := by
    intro range recovery hc
    refine ⟨hc.isRecovery, hc.retryAt, ?_⟩
    unfold Closed
    rw [hpublications, hack, hsettled]
    exact hc.again
  cases position with
  | none => exact hidle h
  | some position =>
    cases position with
    | executeStep checkRange =>
      refine ⟨hsteady h.1, hrunning h.2.1, ?_⟩
      rw [hdelegated]
      exact h.2.2
    | returned => exact hidle h
    | getBlockNumber => exact hscheduling h
    | scheduleBackfillRange range => exact hscheduling h
    | markStepRunning range => exact hscheduling h
    | updateScheduledProgress range => exact hscheduling h
    | saveDelegatedRange range => exact hscheduling h
    | saveSkippedHandoff => exact hfinished.mpr h
    | saveHandoff range => exact hfinished.mpr h
    | countSyncedBlocks range => exact hchecking range h
    | updateCheckedProgress range synced =>
      refine ⟨hchecking range h.1, fun hfull => ?_⟩
      exact hcovered range (by simp [countedRange, hfull]) (h.2 hfull)
    | markStepSucceeded range => exact ⟨hchecking range h.1, hcovered range rfl h.2⟩
    | readRetained range => exact hchecking range h
    | findGap range retained =>
      refine ⟨hchecking range h.1, ?_⟩
      rw [hresult]
      exact h.2
    | saveRecovery range recovery nowMs => exact ⟨hchecking range h.1, hchosen range recovery h.2⟩
    | publishRecovery range recovery nowMs =>
      refine ⟨hchecking range h.1, hchosen range recovery h.2.1, ?_⟩
      rw [hresult]
      exact h.2.2
    | awaitRecovery range recovery nowMs =>
      refine ⟨hchecking range h.1, ?_⟩
      rw [hpublications]
      exact h.2
    | saveAcknowledged range recovery nowMs =>
      refine ⟨hchecking range h.1, ?_⟩
      rw [hpublications, hack]
      exact h.2
    | scheduleBackfillCheck range => exact hchecking range h

/-- The invariant of a run. -/
def BackfillInv (input : BackfillInput) (s : BackfillState) : Prop := PositionInv input s s.current

/-- A statement that leaves the result alone, and the status too unless it makes ready a step that
neither runs nor is finished. -/
theorem BackfillInv.statement (h : BackfillInv input s)
    {statement : StepStatement} (hresult : (statement.row s.row).result = s.row.result)
    (hstatus : (statement.row s.row).status = s.row.status ∨ ((statement.row s.row).status = .ready ∧
        (s.row.status = .pending ∨ s.row.status = .failedTerminal))) :
    BackfillInv input (s.write statement) := by
  refine PositionInv.congr h hresult ?_ ?_ rfl rfl rfl rfl (fun _ _ hc => hc)
  · intro hrunning
    rcases hstatus with hsame | ⟨-, hs | hs⟩
    · exact hsame.trans hrunning
    · rw [hs] at hrunning
      cases hrunning
    · rw [hs] at hrunning
      cases hrunning
  · unfold BackfillState.Finished BackfillState.write
    rcases hstatus with hsame | ⟨hready, hs⟩
    · rw [hsame]
    · rw [hready]
      rcases hs with hs | hs <;> rw [hs] <;> simp

theorem BackfillInv.claim (h : BackfillInv input s) {lease : ClaimInput} {checkRange : Option BlockRange}
    (hdue : isClaimable lease.nowMs s.row = true)
    (hchecks : ∀ range ∈ checkRange, range ∈ s.checks) :
    BackfillInv input (s.claim lease checkRange) := by
  have hunfinished : ¬ s.Finished := by
    unfold BackfillState.Finished
    rcases isClaimable_status hdue with hs | hs | hs <;> rw [hs] <;> simp
  have hhandoff : ¬ AtHandoff s.current := by
    intro hat
    unfold BackfillInv at h
    cases hc : s.current with
    | none =>
      rw [hc] at hat
      exact hat
    | some position =>
      rw [hc] at hat h
      cases position with
      | saveSkippedHandoff => exact hunfinished h
      | saveHandoff range => exact hunfinished h
      | _ => exact hat
  have hsteady : Steady s := by
    rcases PositionInv.idle h hhandoff with ⟨hfin, -⟩ | ⟨-, hsteady⟩
    · exact absurd hfin hunfinished
    · exact hsteady
  have hnew : Steady (s.claim lease checkRange) :=
    hsteady.congr rfl rfl rfl rfl (fun id hid => hid)
  exact ⟨hnew, rfl, fun range hrange => hsteady.checks range (hchecks range hrange)⟩

theorem BackfillInv.step (h : BackfillInv input s) (hmeets : MeetsHandoff input s event) :
    BackfillInv input (event.step input s) := by
  cases event with
  | claim lease checkRange =>
    simp only [BackfillEvent.step]
    split
    · next hguard => exact h.claim hguard.1 hguard.2
    · exact h
  | advance answer =>
    simp only [BackfillEvent.step]
    split
    · exact h
    next position hcurrent =>
    unfold BackfillInv at h
    rw [hcurrent] at h
    exact (advance_inv h answer).congr rfl (fun hr => hr) Iff.rfl rfl rfl rfl rfl (fun _ _ hc => hc)
  | crash =>
    have hidle : Idle s := PositionInv.idle h hmeets
    exact hidle.congr rfl Iff.rfl rfl rfl rfl (fun id hid => hid)
  | advanceSuperseded index answer => exact absurd hmeets id
  | crashSuperseded index =>
    exact PositionInv.congr h rfl (fun hr => hr) Iff.rfl rfl rfl rfl rfl (fun _ _ hc => hc)
  | coverBlock row =>
    refine PositionInv.congr h rfl (fun hr => hr) Iff.rfl rfl rfl rfl rfl ?_
    intro range _ hcovered n hlo hhi
    exact Table.mem_insertOrIgnore_of_mem (hcovered n hlo hhi)
  | deleteCoverage rows =>
    refine PositionInv.congr h rfl (fun hr => hr) Iff.rfl rfl rfl rfl rfl ?_
    intro range hrange hcovered n hlo hhi
    unfold Covered
    simp only [BackfillEvent.step]
    rw [Table.mem_deleteWhere]
    exact ⟨hcovered n hlo hhi, by simp [hmeets range hrange n hlo hhi]⟩
  | reconcile =>
    refine h.statement ?_ ?_
    · unfold StepStatement.row markReadyStmt
      split <;> rfl
    unfold StepStatement.row
    split
    · next hguard => exact .inr ⟨rfl, .inl (by simpa [markReadyStmt] using hguard)⟩
    · exact .inl rfl
  | renewLease leaseOwner leaseUntil nowMs =>
    refine h.statement ?_ (.inl ?_)
    · unfold StepStatement.row renewLeaseStmt
      split <;> rfl
    · unfold StepStatement.row renewLeaseStmt
      split <;> rfl
  | retryTerminalRunStep =>
    refine h.statement ?_ ?_
    · unfold StepStatement.row
      split <;> rfl
    unfold StepStatement.row
    split
    · next hguard =>
      exact .inr ⟨rfl, .inr (by simpa [OperatorWrite.statement] using hguard)⟩
    · exact .inl rfl

/-! ## 8. The handoff -/

/-- Every event of the run meets the condition in the state before it. -/
def MeetsThroughout (input : BackfillInput) : BackfillState → List BackfillEvent → Prop
  | _, [] => True
  | s, event :: rest =>
    MeetsHandoff input s event ∧ MeetsThroughout input (event.step input s) rest

theorem MeetsThroughout.inv : ∀ {events : List BackfillEvent}
    {s : BackfillState}, BackfillInv input s → MeetsThroughout input s events →
      BackfillInv input (events.foldl (BackfillEvent.step input) s)
  | [], _, h, _ => h
  | event :: rest, s, h, hmeets => by
    rw [List.foldl_cons]
    exact MeetsThroughout.inv (h.step hmeets.1) hmeets.2

theorem MeetsThroughout.append : ∀ {earlier later : List BackfillEvent}
    {s : BackfillState}, MeetsThroughout input s (earlier ++ later) →
      MeetsThroughout input s earlier ∧
        MeetsThroughout input (earlier.foldl (BackfillEvent.step input) s) later
  | [], _, _, h => ⟨trivial, h⟩
  | event :: earlier, later, s, h => by
    have hrest : MeetsThroughout input (event.step input s) earlier ∧ _ :=
      MeetsThroughout.append h.2
    exact ⟨⟨h.1, hrest.1⟩, hrest.2⟩

theorem BackfillInv.start (input : BackfillInput) (coverage : CoverageTable) :
    BackfillInv input (.start coverage) := by
  refine .inr ⟨?_, ?_, ?_, ?_⟩
  · rintro (h | h) <;> cases h
  · intro range hrange
    cases hrange
  · intro p hp
    cases hp
  · intro p hp
    cases hp

theorem BackfillInv.handedOver (h : BackfillInv input s) (hfinished : s.Finished) :
    parseBootstrapBackfillLiveBlock s.row.result ≠ none ∨ AtHandoff s.current := by
  by_cases hat : AtHandoff s.current
  · exact .inr hat
  · rcases PositionInv.idle h hat with ⟨-, hlive⟩ | ⟨hunfinished, -⟩
    · exact .inl hlive
    · exact absurd hfinished hunfinished

theorem advance_succeeded
    {answer : Answer} (h : (position.advance input s answer).1.row.status = .succeeded) :
    s.row.status = .succeeded ∨ ∃ range, position = .markStepSucceeded range := by
  have hwrite : ∀ {set : BootstrapStepRecord → BootstrapStepRecord} {hkey hdeps},
      ((statusWrite set hkey hdeps).row s.row).status = .succeeded →
        s.row.status = .succeeded ∨ (set s.row).status = .succeeded := by
    intro set hkey hdeps hw
    unfold StepStatement.row at hw
    split at hw
    · exact .inr hw
    · exact .inl hw
  cases position with
  | executeStep checkRange =>
    simp only [Position.advance] at h
    split at h
    · split at h <;> exact .inl h
    · exact .inl h
  | getBlockNumber =>
    cases answer with
    | head headBlock =>
      simp only [Position.advance] at h
      split at h
      · rcases hwrite h with hs | hs
        · exact .inl hs
        · cases hs
      · exact .inl h
    | _ => exact .inl h
  | markStepRunning range =>
    rcases hwrite h with hs | hs
    · exact .inl hs
    · cases hs
  | updateScheduledProgress range =>
    rcases hwrite h with hs | hs <;> exact .inl hs
  | updateCheckedProgress range synced =>
    rcases hwrite h with hs | hs <;> exact .inl hs
  | markStepSucceeded range => exact .inr ⟨range, rfl⟩
  | saveDelegatedRange range => exact .inl h
  | saveSkippedHandoff => exact .inl h
  | saveHandoff range => exact .inl h
  | saveRecovery range recovery nowMs => exact .inl h
  | saveAcknowledged range recovery nowMs => exact .inl h
  | returned =>
    cases answer with
    | release write =>
      simp only [Position.advance] at h
      split at h
      · next hwrites => exact .inl ((orchestratorWrites_row hwrites s.row).2.1.mp h)
      · exact .inl h
    | _ => exact .inl h
  | _ => cases answer <;> exact .inl h

theorem advance_publications {answer : Answer} :
    (position.advance input s answer).1.publications = s.publications ∨
      ∃ range recovery nowMs, position = .publishRecovery range recovery nowMs ∧
        (position.advance input s answer).1.publications =
          ⟨recovery.recoveryId, ⟨recovery.fromBlock, recovery.toBlock⟩, range⟩ :: s.publications := by
  cases position with
  | publishRecovery range recovery nowMs => exact .inr ⟨range, recovery, nowMs, rfl, rfl⟩
  | executeStep checkRange =>
    left
    simp only [Position.advance]
    split
    · split <;> rfl
    · rfl
  | getBlockNumber =>
    left
    cases answer with
    | head headBlock =>
      simp only [Position.advance]
      split <;> rfl
    | _ => rfl
  | returned =>
    left
    cases answer with
    | release write =>
      simp only [Position.advance]
      split <;> rfl
    | _ => rfl
  | _ => cases answer <;> exact .inl rfl

/-- An event that is no action of an executor leaves the publications alone, and makes no step
succeed. -/
theorem step_status_of_not_advance (hmeets : MeetsHandoff input s event) :
    (∃ answer position, event = .advance answer ∧ s.current = some position) ∨
      ((event.step input s).publications = s.publications ∧
        ((event.step input s).row.status = .succeeded → s.row.status = .succeeded)) := by
  cases event with
  | claim lease checkRange =>
    right
    simp only [BackfillEvent.step]
    split
    · refine ⟨rfl, fun hs => ?_⟩
      cases hs
    · exact ⟨rfl, fun hs => hs⟩
  | advance answer =>
    cases hc : s.current with
    | none =>
      right
      simp only [BackfillEvent.step, hc]
      exact ⟨trivial, fun hs => hs⟩
    | some position => exact .inl ⟨answer, position, rfl, rfl⟩
  | advanceSuperseded index answer => exact absurd hmeets id
  | reconcile =>
    refine .inr ⟨rfl, ?_⟩
    simp only [BackfillEvent.step, BackfillState.write, StepStatement.row]
    split
    · intro hs
      cases hs
    · exact fun hs => hs
  | renewLease leaseOwner leaseUntil nowMs =>
    refine .inr ⟨rfl, ?_⟩
    simp only [BackfillEvent.step, BackfillState.write, StepStatement.row]
    split <;> exact fun hs => hs
  | retryTerminalRunStep =>
    refine .inr ⟨rfl, ?_⟩
    simp only [BackfillEvent.step, BackfillState.write, StepStatement.row]
    split
    · intro hs
      cases hs
    · exact fun hs => hs
  | _ => exact .inr ⟨rfl, fun hs => hs⟩

/-- What an event may do to the step and to the recoveries. -/
structure HandsOver (input : BackfillInput) (s s' : BackfillState) : Prop where
  /-- the step succeeds only while every block of its delegated range is covered -/
  covered : s.row.status ≠ .succeeded → s'.row.status = .succeeded →
    ∃ range, s.delegated = some range ∧ CoveredRange input s range ∧ CoveredRange input s' range
  /-- a recovery is published for a non-empty part of the delegated range, and with the id of the
  last one unless that is closed -/
  recovery : ∀ p, s'.publications = p :: s.publications →
    s.delegated = some p.delegated ∧ p.delegated.fromBlock ≤ p.range.fromBlock ∧
      p.range.fromBlock ≤ p.range.toBlock ∧ p.range.toBlock ≤ p.delegated.toBlock ∧
      ∀ last ∈ s.publications.head?, Closed s last ∨ p.recoveryId = last.recoveryId

theorem BackfillInv.handsOver (h : BackfillInv input s) (hmeets : MeetsHandoff input s event) :
    HandsOver input s (event.step input s) := by
  rcases step_status_of_not_advance hmeets with ⟨answer, position, rfl, hc⟩ | ⟨hpub, hstatus⟩
  · unfold BackfillInv at h
    rw [hc] at h
    constructor
    · intro hbefore hafter
      simp only [BackfillEvent.step, hc] at hafter
      rcases advance_succeeded hafter with hs | ⟨range, rfl⟩
      · exact absurd hs hbefore
      · refine ⟨range, h.1.delegated, h.2, ?_⟩
        simp only [BackfillEvent.step, hc]
        exact h.2
    · intro p hp
      simp only [BackfillEvent.step, hc] at hp
      rcases (advance_publications : (position.advance input s answer).1.publications = _ ∨ _) with
        hsame | ⟨range, recovery, nowMs, rfl, hnew⟩
      · rw [hsame] at hp
        exact absurd hp.symm (List.cons_ne_self p s.publications)
      rw [hnew, List.cons.injEq] at hp
      obtain ⟨rfl, -⟩ := hp
      obtain ⟨hlo, hhi, hne, -⟩ := isRecoveryOf_iff.mp h.2.1.isRecovery
      exact ⟨h.1.delegated, hlo, hne, hhi, h.2.1.again⟩
  · constructor
    · intro hbefore hafter
      exact absurd (hstatus hafter) hbefore
    · intro p hp
      rw [hpub] at hp
      exact absurd hp.symm (List.cons_ne_self p s.publications)

/-- **The handoff of the backfill.**  In every run whose events all meet the condition:

* in every state, a finished step has a result with a `liveBlock`, which the collection-live step
  takes, or its executor is just about to write it;
* every event that makes the step succeed does so while the whole delegated range is covered, and
  every recovery is a non-empty part of the delegated range and reuses the id of the one before it
  until a publication with this id was acknowledged, or nothing of its range was missing. -/
theorem backfill_handoff (input : BackfillInput) (coverage : CoverageTable)
    (events : List BackfillEvent) (hmeets : MeetsThroughout input (.start coverage) events) :
    (∀ earlier later, events = earlier ++ later → (runBackfill input coverage earlier).Finished →
      parseBootstrapBackfillLiveBlock (runBackfill input coverage earlier).row.result ≠ none ∨
        AtHandoff (runBackfill input coverage earlier).current) ∧
    (∀ earlier event later, events = earlier ++ event :: later →
      HandsOver input (runBackfill input coverage earlier)
        (runBackfill input coverage (earlier ++ [event]))) := by
  have hinv : ∀ earlier later, events = earlier ++ later →
      BackfillInv input (runBackfill input coverage earlier) := by
    intro earlier later hsplit
    rw [hsplit] at hmeets
    exact MeetsThroughout.inv (BackfillInv.start input coverage) hmeets.append.1
  constructor
  · intro earlier later hsplit hfinished
    exact (hinv earlier later hsplit).handedOver hfinished
  intro earlier event later hsplit
  have hbefore := hinv earlier (event :: later) hsplit
  rw [hsplit] at hmeets
  rw [runBackfill_concat]
  exact hbefore.handsOver hmeets.append.2.1

/-- One post-anchor block, which the sync workers cover. -/
def oneBlockInput : BackfillInput := ⟨1, 5, 10, by decide⟩

def oneBlockLease (nowMs : Nat) : ClaimInput :=
  ⟨[.backfill], "bootstrap-worker:main", nowMs + 30, nowMs, 1⟩

/-- The range is scheduled, its block is covered, and the check finds it complete and marks the step. -/
def oneBlockRun : List BackfillEvent :=
  [ .reconcile, .claim (oneBlockLease 0) none, .advance .none, .advance (.head 6),
    .advance .acknowledged, .advance .none, .advance .none, .advance .none, .advance .acknowledged,
    .advance (.release (.releaseStepLeaseAsRunning "bootstrap-worker:main" 5)),
    .coverBlock ⟨1, 6⟩, .claim (oneBlockLease 5) (some ⟨6, 6⟩), .advance .none, .advance .none,
    .advance .none, .advance .none ]

theorem backfill_handoff_oneBlock :
    MeetsThroughout oneBlockInput (.start .empty) (oneBlockRun ++ [.advance .none]) ∧
    (runBackfill oneBlockInput .empty (oneBlockRun ++ [.advance .none])).row.status = .succeeded ∧
    parseBootstrapBackfillLiveBlock
      (runBackfill oneBlockInput .empty (oneBlockRun ++ [.advance .none])).row.result = some 6 ∧
    HandsOver oneBlockInput (runBackfill oneBlockInput .empty oneBlockRun)
      (runBackfill oneBlockInput .empty (oneBlockRun ++ [.advance .none])) := by
  have hmeets : MeetsThroughout oneBlockInput (.start .empty) (oneBlockRun ++ [.advance .none]) := by
    simp [oneBlockRun, MeetsThroughout, MeetsHandoff]
  refine ⟨hmeets, by decide +kernel, by decide +kernel, ?_⟩
  exact (backfill_handoff oneBlockInput .empty _ hmeets).2 oneBlockRun (.advance .none) [] rfl

/-- **The handoff is lost** when the executor crashes after it has marked the step: the step has
succeeded for good, no executor is left, and the result has no `liveBlock`. -/
theorem handoff_lost :
    (runBackfill oneBlockInput .empty (oneBlockRun ++ [.crash])).row.status = .succeeded ∧
    (runBackfill oneBlockInput .empty (oneBlockRun ++ [.crash])).current = none ∧
    (runBackfill oneBlockInput .empty (oneBlockRun ++ [.crash])).superseded = [] ∧
    parseBootstrapBackfillLiveBlock
      (runBackfill oneBlockInput .empty (oneBlockRun ++ [.crash])).row.result = none := by
  decide +kernel

end Artgod.Bootstrap
