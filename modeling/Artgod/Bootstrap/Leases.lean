/-
# Leases of the bootstrap steps

A worker claims due steps of its lane and processes them one after the other, with a timer that renews the
lease (`application/bootstrap-step-orchestrator.ts`); another worker takes over a step whose lease has expired
while the first may still be at it.  Some ends of a processing are guarded by the status of the step only:
`harmless_iff` says when they leave the step of the new owner alone.
-/
import Artgod.Bootstrap.Steps
import Mathlib.Data.List.Induction
import Mathlib.Algebra.Group.Nat.Defs

namespace Artgod.Bootstrap

open Store

/-! ## 1. The end of a processing -/

structure RetryPolicy where
  maxAttempts : Nat
  baseDelayMs : Nat
  maxDelayMs : Nat

def getRetryDelayMs (attempt : Nat) (policy : RetryPolicy) : Nat :=
  min (policy.baseDelayMs * 2 ^ (attempt - 1)) policy.maxDelayMs

/-- How a processor ends: with a result, whose deadline may fail to be a finite number, or with an
error, which may be an RPC budget deferral. -/
inductive ProcessorOutcome where
  | ready (nextAttemptAt : Option Nat)
  | running (nextAttemptAt : Option Nat)
  | terminal
  | rpcBudgetDeferral (retryAfterMs : Nat)
  | exception (error : String)

/-- `BOOTSTRAP_STEP_ORCHESTRATION_ERROR`. -/
inductive OrchestrationError where
  | processorException
  | invalidReadyOutcome
  | invalidTerminalOutcome
  | invalidRunningOutcome

def OrchestrationError.code : OrchestrationError → String
  | .processorException => "processor_exception"
  | .invalidReadyOutcome => "invalid_ready_outcome"
  | .invalidTerminalOutcome => "invalid_terminal_outcome"
  | .invalidRunningOutcome => "invalid_running_outcome"

def formatOrchestrationError (code : OrchestrationError) (message : String) : String :=
  code.code ++ ": " ++ message

def markInvalidOutcome (step : BootstrapStepRecord) (code : OrchestrationError) (message : String) :
    WorkerWrite :=
  .markStepFailedTerminal (step.attempts + 1) (formatOrchestrationError code message)

def markRetryOrTerminalFailure (policy : RetryPolicy) (nowMs : Nat) (step : BootstrapStepRecord)
    (code : OrchestrationError) (message : String) : WorkerWrite :=
  if policy.maxAttempts ≤ step.attempts + 1 then
    .markStepFailedTerminal (step.attempts + 1) (formatOrchestrationError code message)
  else
    .markStepFailedRetry (step.attempts + 1) (nowMs + getRetryDelayMs (step.attempts + 1) policy)
      (formatOrchestrationError code message)

/-- The write for a result, on a step that is neither terminal nor paused. -/
def releaseForResult (leaseOwner : String) (step : BootstrapStepRecord) :
    ProcessorOutcome → Option WorkerWrite
  | .terminal =>
    some (markInvalidOutcome step .invalidTerminalOutcome
      "Processor returned terminal without terminal step state")
  | .running none =>
    some (markInvalidOutcome step .invalidRunningOutcome
      "Processor delegated running work without a deadline")
  | .running (some nextAttemptAt) => some (.releaseStepLeaseAsRunning leaseOwner nextAttemptAt)
  | .ready none =>
    some (markInvalidOutcome step .invalidReadyOutcome
      "Processor released incomplete work without a deadline")
  | .ready (some nextAttemptAt) => some (.releaseStepLease leaseOwner nextAttemptAt)
  | _ => none

variable (runStatus : BootstrapRunStatus)

/-- What `processClaimedStep` writes after the processor ended.  `step` is the record that was
claimed, `current` the one that is read again. -/
def settleClaimedStep (policy : RetryPolicy) (nowMs : Nat)
    (leaseOwner : String) (step : BootstrapStepRecord) (current : Option BootstrapStepRecord)
    (outcome : ProcessorOutcome) : Option WorkerWrite :=
  if runStatus = .failed then none
  else
    match outcome with
    | .exception error =>
      some (markRetryOrTerminalFailure policy nowMs step .processorException error)
    | .rpcBudgetDeferral retryAfterMs =>
      some (.releaseStepLease leaseOwner (nowMs + max 1 retryAfterMs))
    | outcome =>
      if current.any (fun row => isBootstrapStepTerminalStatus row.status || row.status = .paused) then
        none
      else releaseForResult leaseOwner step outcome

/-! ## 2. Runs -/

structure LeaseState where
  nowMs : Nat
  runStatus : BootstrapRunStatus
  steps : StepTable
  /-- the claimed steps that a worker has not finished, by lease owner -/
  queue : String → List BootstrapStepRecord
  /-- the worker that a step was last given to -/
  lastClaimant : BootstrapStepKey → Option String

/-- The events of a run.  A worker is named by its lease owner, which is unique to it. -/
inductive LeaseEvent where
  | updateRunStatus (status : BootstrapRunStatus)
  | markStepReady (stepKey : BootstrapStepKey)
  | claim (leaseOwner : String) (stepKeys : List BootstrapStepKey) (leaseMs limit : Nat)
  | renew (leaseOwner : String) (leaseMs : Nat)
  | processorWrite (leaseOwner : String) (write : WorkerWrite)
  | finish (leaseOwner : String) (policy : RetryPolicy) (outcome : ProcessorOutcome)
  | abandon (leaseOwner : String)
  | delegatedWrite (stepKey : BootstrapStepKey) (write : WorkerWrite)
  | operator (stepKey : BootstrapStepKey) (write : OperatorWrite)

/-- The writes that the executors make themselves.  A completion under the lease names the worker's
own lease and time. -/
def executorWrites (leaseOwner : String) (nowMs : Nat) : WorkerWrite → Bool
  | .markRunning => true
  | .markStepSucceeded _ _ => true
  | .markStepSkipped _ => true
  | .markStepFailedTerminal _ _ => true
  | .updateStepProgress _ _ => true
  | .updateStepResult _ => true
  | .completeEnumeration owner now _ _ => owner = leaseOwner && now = nowMs
  | .completeDeployment owner now _ => owner = leaseOwner && now = nowMs
  | _ => false

/-- The writes of workers that a step was delegated to. -/
def delegateeWrites : WorkerWrite → Bool
  | .markDelegatedRunning _ => true
  | .markStepSucceeded _ _ => true
  | .markStepSkipped _ => true
  | .markStepFailedRetry _ _ _ => true
  | .markStepFailedTerminal _ _ => true
  | .updateStepProgress _ _ => true
  | _ => false

def LeaseState.write (s : LeaseState) (stepKey : BootstrapStepKey) (write : WorkerWrite) :
    LeaseState :=
  { s with steps := (write.statement s.runStatus).run stepKey s.steps }

def LeaseState.writeAll (s : LeaseState) (stepKey : BootstrapStepKey) : Option WorkerWrite → LeaseState
  | none => s
  | some write => s.write stepKey write

/-- The input of a claim at the current time. -/
def LeaseState.claimInput (s : LeaseState) (leaseOwner : String) (stepKeys : List BootstrapStepKey)
    (leaseMs limit : Nat) : ClaimInput where
  stepKeys := stepKeys
  leaseOwner := leaseOwner
  leaseUntil := s.nowMs + max 1 leaseMs
  nowMs := s.nowMs
  limit := max 1 limit

/-- A claim by a worker that has nothing left to process. -/
def LeaseState.claim (s : LeaseState) (input : ClaimInput) : LeaseState :=
  { s with
    steps := (claimReadySteps s.runStatus input s.steps).2
    queue := fun owner =>
      if owner = input.leaseOwner then (claimReadySteps s.runStatus input s.steps).1
      else s.queue owner
    lastClaimant := fun key =>
      if key ∈ (claimReadySteps s.runStatus input s.steps).1.map (·.stepKey) then
        some input.leaseOwner
      else s.lastClaimant key }

/-- The worker is done with the step at the head of its queue. -/
def LeaseState.pop (s : LeaseState) (leaseOwner : String) : LeaseState :=
  { s with queue := fun owner => if owner = leaseOwner then (s.queue owner).tail else s.queue owner }

/-- What a worker writes to the step at the head of its queue. -/
def LeaseEvent.workerWrite (s : LeaseState) (step : BootstrapStepRecord) : LeaseEvent → Option WorkerWrite
  | .renew leaseOwner leaseMs =>
    some (.renewStepLease leaseOwner (s.nowMs + max 1 leaseMs) s.nowMs)
  | .processorWrite leaseOwner write =>
    if executorWrites leaseOwner s.nowMs write then some write else none
  | .finish leaseOwner policy outcome =>
    settleClaimedStep s.runStatus policy s.nowMs leaseOwner step (s.steps.get? step.stepKey) outcome
  | _ => none

def LeaseEvent.step (s : LeaseState) : LeaseEvent → LeaseState
  | .updateRunStatus status => { s with runStatus := status }
  | .markStepReady stepKey => s.write stepKey .markReady
  | .claim leaseOwner stepKeys leaseMs limit =>
    if (s.queue leaseOwner).isEmpty then s.claim (s.claimInput leaseOwner stepKeys leaseMs limit)
    else s
  | .renew leaseOwner leaseMs =>
    match s.queue leaseOwner with
    | [] => s
    | step :: _ =>
      s.writeAll step.stepKey ((LeaseEvent.renew leaseOwner leaseMs).workerWrite s step)
  | .processorWrite leaseOwner write =>
    match s.queue leaseOwner with
    | [] => s
    | step :: _ =>
      s.writeAll step.stepKey ((LeaseEvent.processorWrite leaseOwner write).workerWrite s step)
  | .finish leaseOwner policy outcome =>
    match s.queue leaseOwner with
    | [] => s
    | step :: _ =>
      (s.writeAll step.stepKey
        ((LeaseEvent.finish leaseOwner policy outcome).workerWrite s step)).pop leaseOwner
  | .abandon leaseOwner =>
    { s with queue := fun owner => if owner = leaseOwner then [] else s.queue owner }
  | .delegatedWrite stepKey write => if delegateeWrites write then s.write stepKey write else s
  | .operator stepKey write =>
    { s with steps := applyOperatorWrite s.runStatus write stepKey s.steps }

/-- The clock moves on before an event. -/
def LeaseState.wait (s : LeaseState) (ms : Nat) : LeaseState := { s with nowMs := s.nowMs + ms }

def LeaseState.start (graph : BootstrapStepGraph) : LeaseState :=
  ⟨0, .requested, insertRunSteps graph, fun _ => [], fun _ => none⟩

/-- A run: each event with the time that passes before it. -/
def runLeases (graph : BootstrapStepGraph) (events : List (Nat × LeaseEvent)) : LeaseState :=
  events.foldl (fun s event => event.2.step (s.wait event.1)) (.start graph)

theorem runLeases_concat (graph : BootstrapStepGraph) (events : List (Nat × LeaseEvent))
    (event : Nat × LeaseEvent) :
    runLeases graph (events ++ [event]) = event.2.step ((runLeases graph events).wait event.1) := by
  unfold runLeases
  rw [List.foldl_append]
  rfl

/-! ## 3. The lease of a step -/

/-- No statement but the claim names a new owner. -/
def StepStatement.KeepsOwner (statement : StepStatement) : Prop :=
  ∀ row owner, (statement.row row).leaseOwner = some owner → row.leaseOwner = some owner

/-- A step that waits for a retry has no lease. -/
def RetryUnleased (row : BootstrapStepRecord) : Prop :=
  row.status = .failedRetry → row.leaseOwner = none ∧ row.leaseUntil = none

def StepStatement.KeepsRetryUnleased (statement : StepStatement) : Prop :=
  ∀ row, RetryUnleased row → RetryUnleased (statement.row row)

theorem WorkerWrite.keepsOwner (runStatus : BootstrapRunStatus) (write : WorkerWrite) :
    (write.statement runStatus).KeepsOwner := by
  intro row owner h
  unfold StepStatement.row at h
  split at h
  · cases write with
    | markRunning => exact h
    | renewStepLease leaseOwner leaseUntil nowMs => exact h
    | updateStepProgress completed total => exact h
    | updateStepResult result => exact h
    | _ => cases h
  · exact h

theorem OperatorWrite.keepsOwner (write : OperatorWrite) : write.statement.KeepsOwner := by
  intro row owner h
  unfold StepStatement.row at h
  split at h
  · cases write <;> cases h
  · exact h

theorem WorkerWrite.keepsRetryUnleased (runStatus : BootstrapRunStatus) (write : WorkerWrite) :
    (write.statement runStatus).KeepsRetryUnleased := by
  intro row hrow
  unfold StepStatement.row
  split
  · next hguard =>
    intro hstatus
    cases write with
    | markStepFailedRetry attempts nextAttemptAt error => exact ⟨rfl, rfl⟩
    | updateStepProgress completed total => exact hrow hstatus
    | updateStepResult result => exact hrow hstatus
    | releaseStepLeaseAsRunning leaseOwner nextAttemptAt =>
      -- the statement is about a running step
      have hrunning : row.status = .running := by
        have := hguard
        simp only [statement, releaseRunningStmt, Bool.and_eq_true, decide_eq_true_eq] at this
        exact this.1
      have hretry : row.status = .failedRetry := hstatus
      rw [hrunning] at hretry
      cases hretry
    | renewStepLease leaseOwner leaseUntil nowMs =>
      have hrunning : row.status = .running := (ownsLease_eq_true.mp hguard).1
      have hretry : row.status = .failedRetry := hstatus
      rw [hrunning] at hretry
      cases hretry
    | _ => cases hstatus
  · exact hrow

theorem OperatorWrite.keepsRetryUnleased (write : OperatorWrite) : write.statement.KeepsRetryUnleased := by
  intro row hrow
  unfold StepStatement.row
  split
  · intro hstatus
    cases write <;> cases hstatus
  · exact hrow

/-- What holds of the leases in every state of a run. -/
structure LeaseInv (s : LeaseState) : Prop where
  owner : ∀ key row owner, s.steps.get? key = some row → row.leaseOwner = some owner →
    s.lastClaimant key = some owner
  retry : ∀ key row, s.steps.get? key = some row → RetryUnleased row

variable {s : LeaseState} {row : BootstrapStepRecord}
  {set : BootstrapStepRecord → BootstrapStepRecord} {leaseOwner : String}

variable {hkey : ∀ row, (set row).stepKey = row.stepKey}
  {hdeps : ∀ row, (set row).dependsOn = row.dependsOn} {s' : LeaseState} {owner : String}

/-- A statement that names no new owner keeps the invariant, and so does everything that leaves the
steps and the claimants alone. -/
theorem LeaseInv.statement (h : LeaseInv s) {statement : StepStatement}
    {stepKey : BootstrapStepKey} (howner : statement.KeepsOwner)
    (hretry : statement.KeepsRetryUnleased)
    (hsteps : s'.steps = statement.run stepKey s.steps) (hlast : s'.lastClaimant = s.lastClaimant) :
    LeaseInv s' := by
  have hrows : ∀ key row, s'.steps.get? key = some row → ∃ old, s.steps.get? key = some old ∧
      (row = old ∨ row = statement.row old) := by
    intro key row hrow
    rw [hsteps] at hrow
    by_cases hk : key = stepKey
    · subst hk
      rw [StepStatement.get?_run_self, Option.map_eq_some_iff] at hrow
      obtain ⟨old, hold, rfl⟩ := hrow
      exact ⟨old, hold, .inr rfl⟩
    · rw [StepStatement.get?_run_ne hk] at hrow
      exact ⟨row, hrow, .inl rfl⟩
  constructor
  · intro key row owner hrow hlease
    rw [hlast]
    obtain ⟨old, hold, rfl | rfl⟩ := hrows key row hrow
    · exact h.owner key row owner hold hlease
    · exact h.owner key old owner hold (howner old owner hlease)
  · intro key row hrow
    obtain ⟨old, hold, rfl | rfl⟩ := hrows key row hrow
    · exact h.retry key row hold
    · exact hretry old (h.retry key old hold)

theorem LeaseInv.frame (h : LeaseInv s) (hsteps : s'.steps = s.steps)
    (hlast : s'.lastClaimant = s.lastClaimant) : LeaseInv s' := by
  constructor
  · intro key row owner hrow hlease
    rw [hsteps] at hrow
    rw [hlast]
    exact h.owner key row owner hrow hlease
  · intro key row hrow
    rw [hsteps] at hrow
    exact h.retry key row hrow

theorem LeaseInv.write (h : LeaseInv s) (stepKey : BootstrapStepKey)
    (write : WorkerWrite) : LeaseInv (s.write stepKey write) :=
  h.statement (write.keepsOwner s.runStatus) (write.keepsRetryUnleased s.runStatus) rfl rfl

theorem LeaseInv.writeAll (h : LeaseInv s) (stepKey : BootstrapStepKey)
    (write : Option WorkerWrite) : LeaseInv (s.writeAll stepKey write) := by
  cases write with
  | none => exact h
  | some write => exact h.write stepKey write

theorem LeaseInv.claim (h : LeaseInv s) (input : ClaimInput) : LeaseInv (s.claim input) := by
  have hrows : ∀ key row, (s.claim input).steps.get? key = some row → ∃ old, s.steps.get? key = some old ∧
        row = if key ∈ (claimReadySteps s.runStatus input s.steps).1.map (·.stepKey) then
          input.claimed old else old := by
    intro key row hrow
    simp only [LeaseState.claim, claimReadySteps_get?, Option.map_eq_some_iff] at hrow
    obtain ⟨old, hold, heq⟩ := hrow
    exact ⟨old, hold, heq.symm⟩
  constructor
  · intro key row owner hrow hlease
    obtain ⟨old, hold, rfl⟩ := hrows key row hrow
    simp only [LeaseState.claim]
    split at hlease
    · next hmem =>
      rw [if_pos hmem]
      exact hlease
    · next hmem =>
      rw [if_neg hmem]
      exact h.owner key old owner hold hlease
  · intro key row hrow
    obtain ⟨old, hold, rfl⟩ := hrows key row hrow
    split
    · intro hstatus
      cases hstatus
    · exact h.retry key old hold

theorem LeaseInv.step (h : LeaseInv s) (event : LeaseEvent) : LeaseInv (event.step s) := by
  cases event with
  | updateRunStatus status => exact h.frame rfl rfl
  | markStepReady stepKey => exact h.write stepKey .markReady
  | claim leaseOwner stepKeys leaseMs limit =>
    simp only [LeaseEvent.step]
    split
    · exact h.claim _
    · exact h
  | renew leaseOwner leaseMs =>
    simp only [LeaseEvent.step]
    split
    · exact h
    · exact h.writeAll _ _
  | processorWrite leaseOwner write =>
    simp only [LeaseEvent.step]
    split
    · exact h
    · exact h.writeAll _ _
  | finish leaseOwner policy outcome =>
    simp only [LeaseEvent.step]
    split
    · exact h
    · exact (h.writeAll _ _).frame rfl rfl
  | abandon leaseOwner => exact h.frame rfl rfl
  | delegatedWrite stepKey write =>
    simp only [LeaseEvent.step]
    split
    · exact h.write stepKey write
    · exact h
  | operator stepKey write =>
    simp only [LeaseEvent.step, applyOperatorWrite]
    split
    · exact h.statement write.keepsOwner write.keepsRetryUnleased rfl rfl
    · exact h.frame rfl rfl

theorem LeaseInv.start (graph : BootstrapStepGraph) : LeaseInv (.start graph) := by
  have hrows : ∀ key row, (LeaseState.start graph).steps.get? key = some row →
      row.leaseOwner = none ∧ row.leaseUntil = none := by
    intro key row hrow
    obtain ⟨hmem, -⟩ := Table.get?_eq_some.mp hrow
    obtain ⟨step, -, rfl⟩ := List.mem_map.mp hmem
    exact ⟨rfl, rfl⟩
  constructor
  · intro key row owner hrow hlease
    rw [(hrows key row hrow).1] at hlease
    cases hlease
  · intro key row hrow _
    exact hrows key row hrow

theorem runLeases_inv (graph : BootstrapStepGraph) (events : List (Nat × LeaseEvent)) :
    LeaseInv (runLeases graph events) := by
  induction events using List.reverseRecOn with
  | nil => exact LeaseInv.start graph
  | append_singleton events event ih =>
    rw [runLeases_concat]
    have hwait : LeaseInv ((runLeases graph events).wait event.1) := ih.frame rfl rfl
    exact hwait.step event.2

/-- The worker holds an unexpired lease of the step. -/
def LeaseState.Holds (s : LeaseState) (key : BootstrapStepKey) (owner : String) : Prop :=
  ∃ row, s.steps.get? key = some row ∧ row.leaseOwner = some owner ∧
    ∃ leaseUntil, row.leaseUntil = some leaseUntil ∧ s.nowMs < leaseUntil

theorem holds_unique {key : BootstrapStepKey} {owner' : String}
    (h : s.Holds key owner) (h' : s.Holds key owner') : owner = owner' := by
  obtain ⟨row, hrow, hlease, -⟩ := h
  obtain ⟨row', hrow', hlease', -⟩ := h'
  rw [hrow, Option.some.injEq] at hrow'
  subst hrow'
  rw [hlease, Option.some.injEq] at hlease'
  exact hlease'

theorem claim_not_held {input : ClaimInput} (hnow : input.nowMs = s.nowMs)
    (h : row ∈ (claimReadySteps s.runStatus input s.steps).1)
    : ¬ s.Holds row.stepKey owner := by
  rintro ⟨held, hheld, -, leaseUntil, huntil, hlt⟩
  obtain ⟨-, -, old, hold, hdue, -⟩ := claimReadySteps_claimed h
  rw [hheld, Option.some.injEq] at hold
  subst hold
  rw [hnow] at hdue
  rcases isClaimable_eq_true.mp hdue with ⟨-, -, hall⟩ | ⟨-, until', hmem, hle⟩
  · have := hall leaseUntil huntil
    omega
  · rw [huntil, Option.mem_some_iff] at hmem
    subst hmem
    omega

/-! ## 4. Writes of a worker that was taken over -/

/-- The status, the lease and the attempts of a step. -/
structure StepLease where
  status : BootstrapStepStatus
  leaseOwner : Option String
  leaseUntil : Option Nat
  attempts : Nat
deriving DecidableEq

def BootstrapStepRecord.lease (row : BootstrapStepRecord) : StepLease :=
  ⟨row.status, row.leaseOwner, row.leaseUntil, row.attempts⟩

def leaseOf (steps : StepTable) (key : BootstrapStepKey) : Option StepLease :=
  (steps.get? key).map BootstrapStepRecord.lease

/-- **When the end of a processing leaves the step of another owner alone**: `step` is the record
that the worker was given, `row` the step as it is now. -/
def HarmlessEnd (step row : BootstrapStepRecord) : LeaseEvent → Prop
  | .processorWrite _ .markRunning => isProtectedStatus row.status = true ∨ row.status = .running
  | .processorWrite _ (.markStepSucceeded _ _) => isProtectedStatus row.status = true
  | .processorWrite _ (.markStepSkipped _) => isProtectedStatus row.status = true
  | .processorWrite _ (.markStepFailedTerminal _ _) => isProtectedStatus row.status = true
  | .finish _ policy outcome =>
    runStatus = .failed ∨ isProtectedStatus row.status = true ∨
      match outcome with
      | .ready nextAttemptAt => nextAttemptAt ≠ none
      | .running nextAttemptAt => nextAttemptAt ≠ none
      | .terminal => False
      | .rpcBudgetDeferral _ => True
      | .exception _ => step.attempts + 1 < policy.maxAttempts ∧ row.status = .failedRetry ∧
          row.attempts = step.attempts + 1
  | _ => True

/-- The row after an optional write. -/
def writtenRow (write : Option WorkerWrite) (row : BootstrapStepRecord) : BootstrapStepRecord :=
  match write with
  | none => row
  | some write => (write.statement runStatus).row row

theorem statusWrite_row_of_protected
    (h : isProtectedStatus row.status = true) : (statusWrite set hkey hdeps).row row = row := by
  unfold StepStatement.row statusWrite
  simp [h]

theorem statusWrite_row_of_not_protected (h : isProtectedStatus row.status = false) :
    (statusWrite set hkey hdeps).row row = set row := by
  unfold StepStatement.row statusWrite
  simp [h]

theorem statusWrite_lease_iff (hset : isProtectedStatus (set row).status = true) :
    ((statusWrite set hkey hdeps).row row).lease = row.lease ↔ isProtectedStatus row.status = true := by
  constructor
  · intro h
    by_contra hp
    rw [Bool.not_eq_true] at hp
    rw [statusWrite_row_of_not_protected hp] at h
    have hstatus : (set row).status = row.status := congrArg StepLease.status h
    rw [hstatus, hp] at hset
    cases hset
  · intro hp
    rw [statusWrite_row_of_protected hp]

theorem markRunning_lease_iff : (markRunningStmt.row row).lease = row.lease ↔
      isProtectedStatus row.status = true ∨ row.status = .running := by
  unfold markRunningStmt
  cases hp : isProtectedStatus row.status with
  | true => simp [statusWrite_row_of_protected hp]
  | false =>
    rw [statusWrite_row_of_not_protected hp]
    constructor
    · intro h
      exact .inr (congrArg StepLease.status h).symm
    · rintro (h | h)
      · cases h
      · simp [BootstrapStepRecord.lease, h]

theorem markFailedRetry_lease_iff (hretry : RetryUnleased row)
    {attempts nextAttemptAt : Nat} {error : String} :
    ((markFailedRetryStmt attempts nextAttemptAt error).row row).lease = row.lease ↔
      isProtectedStatus row.status = true ∨ (row.status = .failedRetry ∧ row.attempts = attempts) := by
  unfold markFailedRetryStmt
  cases hp : isProtectedStatus row.status with
  | true => simp [statusWrite_row_of_protected hp]
  | false =>
    rw [statusWrite_row_of_not_protected hp]
    constructor
    · intro h
      exact .inr ⟨(congrArg StepLease.status h).symm, (congrArg StepLease.attempts h).symm⟩
    rintro (h | ⟨hstatus, hattempts⟩)
    · cases h
    · obtain ⟨howner, huntil⟩ := hretry hstatus
      simp [BootstrapStepRecord.lease, hstatus, hattempts, howner, huntil]

theorem settle_lease_iff {runStatus : BootstrapRunStatus} {policy : RetryPolicy} {nowMs : Nat}
    {step : BootstrapStepRecord} (howner : row.leaseOwner ≠ some leaseOwner)
    (hretry : RetryUnleased row) {outcome : ProcessorOutcome} :
    (writtenRow runStatus (settleClaimedStep runStatus policy nowMs leaseOwner step (some row)
      outcome) row).lease = row.lease ↔
      HarmlessEnd runStatus step row (.finish leaseOwner policy outcome) := by
  have hreread : (isBootstrapStepTerminalStatus row.status || decide (row.status = .paused)) =
      isProtectedStatus row.status := by
    cases row.status <;> rfl
  unfold settleClaimedStep
  simp only [HarmlessEnd]
  split
  · next hfailed => simp [writtenRow, hfailed]
  next hfailed =>
  cases outcome with
  | exception error =>
    simp only [writtenRow, markRetryOrTerminalFailure]
    split
    · next hmax =>
      simp only [WorkerWrite.statement]
      rw [markFailedTerminalStmt, statusWrite_lease_iff (by rfl)]
      constructor
      · exact fun hp => .inr (.inl hp)
      rintro (hf | hp | ⟨hlt, -⟩)
      · exact absurd hf hfailed
      · exact hp
      · omega
    · next hmax =>
      simp only [WorkerWrite.statement]
      rw [markFailedRetry_lease_iff hretry]
      constructor
      · rintro (hp | hr)
        · exact .inr (.inl hp)
        · exact .inr (.inr ⟨by omega, hr⟩)
      rintro (hf | hp | ⟨-, hr⟩)
      · exact absurd hf hfailed
      · exact .inl hp
      · exact .inr hr
  | rpcBudgetDeferral retryAfterMs =>
    have hfenced : (WorkerWrite.releaseStepLease leaseOwner
        (nowMs + max 1 retryAfterMs)).Fenced leaseOwner := rfl
    simp [writtenRow, hfenced.row_eq howner]
  | terminal =>
    simp only [Option.any_some, hreread]
    split
    · next hp => simp [writtenRow, hp]
    next hp =>
    simp only [writtenRow, releaseForResult, markInvalidOutcome, WorkerWrite.statement]
    rw [markFailedTerminalStmt, statusWrite_lease_iff (by rfl)]
    simp [hp, hfailed]
  | running nextAttemptAt =>
    simp only [Option.any_some, hreread]
    split
    · next hp => simp [writtenRow, hp]
    next hp =>
    cases nextAttemptAt with
    | none =>
      simp only [writtenRow, releaseForResult, markInvalidOutcome, WorkerWrite.statement]
      rw [markFailedTerminalStmt, statusWrite_lease_iff (by rfl)]
      simp [hp, hfailed]
    | some nextAttemptAt =>
      have hfenced : (WorkerWrite.releaseStepLeaseAsRunning leaseOwner nextAttemptAt).Fenced
          leaseOwner := rfl
      simp [writtenRow, releaseForResult, hfenced.row_eq howner]
  | ready nextAttemptAt =>
    simp only [Option.any_some, hreread]
    split
    · next hp => simp [writtenRow, hp]
    next hp =>
    cases nextAttemptAt with
    | none =>
      simp only [writtenRow, releaseForResult, markInvalidOutcome, WorkerWrite.statement]
      rw [markFailedTerminalStmt, statusWrite_lease_iff (by rfl)]
      simp [hp, hfailed]
    | some nextAttemptAt =>
      have hfenced : (WorkerWrite.releaseStepLease leaseOwner nextAttemptAt).Fenced
          leaseOwner := rfl
      simp [writtenRow, releaseForResult, hfenced.row_eq howner]

theorem executorWrite_lease_iff {step : BootstrapStepRecord} (howner : row.leaseOwner ≠ some leaseOwner)
    {write : WorkerWrite} :
    (writtenRow s.runStatus ((LeaseEvent.processorWrite leaseOwner write).workerWrite s step)
      row).lease = row.lease ↔
      HarmlessEnd s.runStatus step row (.processorWrite leaseOwner write) := by
  simp only [LeaseEvent.workerWrite]
  cases write with
  | markRunning => exact markRunning_lease_iff
  | markStepSucceeded completed total => exact statusWrite_lease_iff rfl
  | markStepSkipped reason => exact statusWrite_lease_iff rfl
  | markStepFailedTerminal attempts error => exact statusWrite_lease_iff rfl
  | updateStepProgress completed total =>
    simp only [HarmlessEnd, iff_true]
    cases hp : isProtectedStatus row.status with
    | true =>
      exact congrArg BootstrapStepRecord.lease (statusWrite_row_of_protected hp)
    | false =>
      have hrow : (updateProgressStmt completed total).row row =
          { row with progressCompleted := completed, progressTotal := total } :=
        statusWrite_row_of_not_protected hp
      have hlease := congrArg BootstrapStepRecord.lease hrow
      exact hlease
  | updateStepResult result =>
    simp only [HarmlessEnd, iff_true]
    rfl
  | completeEnumeration owner nowMs tokenCount result =>
    simp only [HarmlessEnd, iff_true]
    split
    · next hexec =>
      simp only [executorWrites, Bool.and_eq_true, decide_eq_true_eq] at hexec
      have hfenced : (WorkerWrite.completeEnumeration owner nowMs tokenCount result).Fenced
          leaseOwner := hexec.1
      exact congrArg BootstrapStepRecord.lease (hfenced.row_eq howner)
    · rfl
  | completeDeployment owner nowMs deploymentBlock =>
    simp only [HarmlessEnd, iff_true]
    split
    · next hexec =>
      simp only [executorWrites, Bool.and_eq_true, decide_eq_true_eq] at hexec
      have hfenced : (WorkerWrite.completeDeployment owner nowMs deploymentBlock).Fenced
          leaseOwner := hexec.1
      exact congrArg BootstrapStepRecord.lease (hfenced.row_eq howner)
    · rfl
  | _ =>
    simp only [HarmlessEnd, iff_true]
    rfl

/-- The worker that an event is the work of. -/
def LeaseEvent.worker : LeaseEvent → Option String
  | .renew leaseOwner _ => some leaseOwner
  | .processorWrite leaseOwner _ => some leaseOwner
  | .finish leaseOwner _ _ => some leaseOwner
  | _ => none

theorem step_get?_of_worker {event : LeaseEvent}
    (hworker : event.worker = some leaseOwner) {step : BootstrapStepRecord}
    {rest : List BootstrapStepRecord} (hqueue : s.queue leaseOwner = step :: rest) :
    (event.step s).steps.get? step.stepKey =
      (s.steps.get? step.stepKey).map (writtenRow s.runStatus (event.workerWrite s step)) := by
  have hwrite : ∀ write : Option WorkerWrite, (s.writeAll step.stepKey write).steps.get?
      step.stepKey = (s.steps.get? step.stepKey).map (writtenRow s.runStatus write) := by
    intro write
    cases write with
    | none => exact Option.map_id'.symm
    | some write =>
      simp only [LeaseState.writeAll, LeaseState.write]
      exact StepStatement.get?_run_self
  cases event with
  | renew owner leaseMs =>
    cases hworker
    simp only [LeaseEvent.step, hqueue]
    exact hwrite _
  | processorWrite owner write =>
    cases hworker
    simp only [LeaseEvent.step, hqueue]
    exact hwrite _
  | finish owner policy outcome =>
    cases hworker
    simp only [LeaseEvent.step, hqueue]
    exact hwrite _
  | _ => cases hworker

/-- The worker processes a step that was last given to another one. -/
def LeaseState.TakenOver (s : LeaseState) (leaseOwner : String) (step : BootstrapStepRecord) : Prop :=
  (s.queue leaseOwner).head? = some step ∧ s.lastClaimant step.stepKey ≠ some leaseOwner

/-- Whatever the event does for a worker that was taken over, the step stays as it is. -/
def Undisturbed (s : LeaseState) (event : LeaseEvent) : Prop :=
  ∀ leaseOwner step, event.worker = some leaseOwner → s.TakenOver leaseOwner step →
    leaseOf (event.step s).steps step.stepKey = leaseOf s.steps step.stepKey

/-- A worker that was taken over ends harmlessly. -/
def EndsHarmlessly (s : LeaseState) (event : LeaseEvent) : Prop :=
  ∀ leaseOwner step, event.worker = some leaseOwner → s.TakenOver leaseOwner step →
    ∀ row, s.steps.get? step.stepKey = some row → HarmlessEnd s.runStatus step row event

theorem harmless_iff (h : LeaseInv s) (event : LeaseEvent) :
    Undisturbed s event ↔ EndsHarmlessly s event := by
  have hstep : ∀ leaseOwner step, event.worker = some leaseOwner → s.TakenOver leaseOwner step →
      ∀ row, s.steps.get? step.stepKey = some row →
        (leaseOf (event.step s).steps step.stepKey = leaseOf s.steps step.stepKey ↔
          HarmlessEnd s.runStatus step row event) := by
    intro leaseOwner step hworker ⟨hhead, hlast⟩ row hrow
    obtain ⟨rest, hqueue⟩ : ∃ rest, s.queue leaseOwner = step :: rest :=
      List.head?_eq_some_iff.mp hhead
    have howner : row.leaseOwner ≠ some leaseOwner :=
      fun hlease => hlast (h.owner _ row leaseOwner hrow hlease)
    unfold leaseOf
    rw [step_get?_of_worker hworker hqueue, hrow, Option.map_some, Option.map_some, Option.map_some,
      Option.some.injEq]
    cases event with
    | renew owner leaseMs =>
      cases hworker
      have hfenced : (WorkerWrite.renewStepLease leaseOwner (s.nowMs + max 1 leaseMs)
          s.nowMs).Fenced leaseOwner := rfl
      simp [LeaseEvent.workerWrite, writtenRow, HarmlessEnd, hfenced.row_eq howner]
    | processorWrite owner write =>
      cases hworker
      exact executorWrite_lease_iff howner
    | finish owner policy outcome =>
      cases hworker
      simp only [LeaseEvent.workerWrite, hrow]
      exact settle_lease_iff howner (h.retry _ row hrow)
    | _ => cases hworker
  constructor
  · intro hund leaseOwner step hworker hover row hrow
    exact (hstep leaseOwner step hworker hover row hrow).mp (hund leaseOwner step hworker hover)
  intro hharm leaseOwner step hworker hover
  cases hrow : s.steps.get? step.stepKey with
  | some row =>
    exact (hstep leaseOwner step hworker hover row hrow).mpr
      (hharm leaseOwner step hworker hover row hrow)
  | none =>
    obtain ⟨rest, hqueue⟩ : ∃ rest, s.queue leaseOwner = step :: rest :=
      List.head?_eq_some_iff.mp hover.1
    unfold leaseOf
    rw [step_get?_of_worker hworker hqueue, hrow]
    rfl

/-! ## 5. Fencing -/

/-- **The leases of a run.**  In every state of every run at most one worker holds an unexpired lease
of a step, it is the one that the step was last given to, and a claim gives away no step with an
unexpired lease.  And a run leaves the steps of the workers that took over alone exactly if every
worker that was taken over ends harmlessly. -/
theorem bootstrap_leases_fenced (graph : BootstrapStepGraph) (events : List (Nat × LeaseEvent)) :
    (∀ key owner owner', (runLeases graph events).Holds key owner →
      (runLeases graph events).Holds key owner' → owner = owner') ∧
    (∀ key owner, (runLeases graph events).Holds key owner →
      (runLeases graph events).lastClaimant key = some owner) ∧
    (∀ leaseOwner stepKeys leaseMs limit, ∀ row ∈ (claimReadySteps (runLeases graph events).runStatus
      ((runLeases graph events).claimInput leaseOwner stepKeys leaseMs limit)
      (runLeases graph events).steps).1, ∀ owner, ¬ (runLeases graph events).Holds row.stepKey owner) ∧
    ((∀ earlier event later, events = earlier ++ event :: later →
      Undisturbed ((runLeases graph earlier).wait event.1) event.2) ↔
     (∀ earlier event later, events = earlier ++ event :: later →
      EndsHarmlessly ((runLeases graph earlier).wait event.1) event.2)) := by
  refine ⟨?_, ?_, ?_, ?_⟩
  · intro key owner owner' h h'
    exact holds_unique h h'
  · rintro key owner ⟨row, hrow, hlease, -⟩
    exact (runLeases_inv graph events).owner key row owner hrow hlease
  · intro leaseOwner stepKeys leaseMs limit row hrow owner
    exact claim_not_held rfl hrow
  have hpoint : ∀ earlier (event : Nat × LeaseEvent),
      Undisturbed ((runLeases graph earlier).wait event.1) event.2 ↔
        EndsHarmlessly ((runLeases graph earlier).wait event.1) event.2 := by
    intro earlier event
    have hwait : LeaseInv ((runLeases graph earlier).wait event.1) :=
      (runLeases_inv graph earlier).frame rfl rfl
    exact harmless_iff hwait event.2
  constructor
  · intro h earlier event later hsplit
    exact (hpoint earlier event).mp (h earlier event later hsplit)
  · intro h earlier event later hsplit
    exact (hpoint earlier event).mpr (h earlier event later hsplit)

/-- The anchor step of a new run is claimed by one worker and, once its lease has expired, by
another. -/
def takeover : List (Nat × LeaseEvent) :=
  [(0, .claim "first" [.anchor] 30 1), (30, .claim "second" [.anchor] 30 1)]

theorem takeover_disturbed : ¬ Undisturbed (runLeases (plannedGraph ⟨false, false, false⟩) takeover)
      (.finish "first" ⟨5, 100, 1000⟩ (.exception "timeout")) ∧
    leaseOf (runLeases (plannedGraph ⟨false, false, false⟩) takeover).steps .anchor =
      some ⟨.running, some "second", some 60, 0⟩ ∧
    leaseOf (runLeases (plannedGraph ⟨false, false, false⟩) (takeover ++
      [(0, .finish "first" ⟨5, 100, 1000⟩ (.exception "timeout"))])).steps .anchor =
      some ⟨.failedRetry, none, none, 1⟩ := by
  have hbefore : leaseOf (runLeases (plannedGraph ⟨false, false, false⟩) takeover).steps .anchor =
      some ⟨.running, some "second", some 60, 0⟩ := by decide +kernel
  have hafter : leaseOf ((LeaseEvent.finish "first" ⟨5, 100, 1000⟩ (.exception "timeout")).step
      (runLeases (plannedGraph ⟨false, false, false⟩) takeover)).steps .anchor =
      some ⟨.failedRetry, none, none, 1⟩ := by decide +kernel
  refine ⟨?_, hbefore, by decide +kernel⟩
  intro h
  obtain ⟨step, hhead, hkey⟩ : ∃ step, ((runLeases (plannedGraph ⟨false, false, false⟩)
      takeover).queue "first").head? = some step ∧ step.stepKey = .anchor := by
    refine ⟨_, rfl, ?_⟩
    decide +kernel
  have hsame := h "first" step rfl ⟨hhead, by rw [hkey]; decide +kernel⟩
  rw [hkey, hbefore, hafter] at hsame
  exact absurd hsame (by decide)

end Artgod.Bootstrap
