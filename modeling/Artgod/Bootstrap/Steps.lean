/-
# The statements on a bootstrap step

`infra/bootstrap/sqlite-steps.ts` changes `bootstrap_run_steps` by UPDATE statements, each with a guard of its
own on the status, and some on the lease.  The statements of workers form `WorkerWrite`, those of an operator
`OperatorWrite`, and what they have in common is proved over these two types.  `result_json` is modelled by the
fields that its readers look up.
-/
import Artgod.Bootstrap.Pipeline
import Artgod.Store.Table

namespace Artgod.Bootstrap

open Store

/-! ## 1. Rows -/

/-- The pending recovery of a backfill, as `result_json` retains it. -/
structure BootstrapBackfillRecovery where
  fromBlock : Nat
  toBlock : Nat
  recoveryId : String
  retryAt : Nat

/-- `result_json`: the object a worker stored, by its fields. -/
structure StepResult where
  completed : Option Nat := none
  total : Option Nat := none
  reason : Option String := none
  fromBlock : Option Nat := none
  toBlock : Option Nat := none
  liveBlock : Option Nat := none
  recovery : Option BootstrapBackfillRecovery := none
  firstTokenId : Option String := none
  anchorBlock : Option Nat := none
  anchorHash : Option String := none
  deploymentBlock : Option Nat := none

/-- `json_patch(old, new)` for the fields of the two objects. -/
def StepResult.patch (old new : StepResult) : StepResult where
  completed := new.completed <|> old.completed
  total := new.total <|> old.total
  reason := new.reason <|> old.reason
  fromBlock := new.fromBlock <|> old.fromBlock
  toBlock := new.toBlock <|> old.toBlock
  liveBlock := new.liveBlock <|> old.liveBlock
  recovery := new.recovery <|> old.recovery
  firstTokenId := new.firstTokenId <|> old.firstTokenId
  anchorBlock := new.anchorBlock <|> old.anchorBlock
  anchorHash := new.anchorHash <|> old.anchorHash
  deploymentBlock := new.deploymentBlock <|> old.deploymentBlock

/-- A row of `bootstrap_run_steps`, and the record that `mapStep` makes of it. -/
structure BootstrapStepRecord where
  stepKey : BootstrapStepKey
  status : BootstrapStepStatus
  blocking : Bool
  dependsOn : List BootstrapStepKey
  nextAttemptAt : Nat
  leaseOwner : Option String
  leaseUntil : Option Nat
  progressCompleted : Nat
  progressTotal : Option Nat
  result : Option StepResult
  attempts : Nat
  lastError : Option String

/-- The steps of one run. -/
abbrev StepTable := Table BootstrapStepRecord.stepKey

/-- `protectedStatusParams`: the statuses that a worker's status writes exclude. -/
def isProtectedStatus (status : BootstrapStepStatus) : Bool :=
  status = .succeeded || status = .skipped || status = .failedTerminal || status = .paused

/-- What the reconciler reads of a row. -/
def BootstrapStepRecord.reconciler (row : BootstrapStepRecord) : BootstrapReconcilerStep :=
  ⟨row.stepKey, row.status, row.dependsOn⟩

/-- The row that the backend inserts for a planned step. -/
def insertedRow (step : BootstrapRunStepPlan) : BootstrapStepRecord where
  stepKey := step.stepKey
  status := step.status
  blocking := step.blocking
  dependsOn := step.dependsOn
  nextAttemptAt := 0
  leaseOwner := none
  leaseUntil := none
  progressCompleted := 0
  progressTotal := none
  result := none
  attempts := 0
  lastError := none

/-- The rows of a new run. -/
def insertRunSteps (graph : BootstrapStepGraph) : StepTable where
  rows := graph.steps.map insertedRow
  keyed := by
    rw [List.map_map]
    exact graph.keyed

/-! ## 2. Statements -/

/-- `UPDATE bootstrap_run_steps SET .. WHERE run_id = .. AND step_key = .. AND guard`: an assignment
leaves the key and the graph of the step alone. -/
structure StepStatement where
  guard : BootstrapStepRecord → Bool
  set : BootstrapStepRecord → BootstrapStepRecord
  set_stepKey : ∀ row, (set row).stepKey = row.stepKey
  set_dependsOn : ∀ row, (set row).dependsOn = row.dependsOn

/-- What the statement makes of one row with the right key. -/
def StepStatement.row (statement : StepStatement) (row : BootstrapStepRecord) :
    BootstrapStepRecord :=
  if statement.guard row then statement.set row else row

theorem StepStatement.row_stepKey (statement : StepStatement) (row : BootstrapStepRecord) :
    (statement.row row).stepKey = row.stepKey := by
  unfold StepStatement.row
  split
  · exact statement.set_stepKey row
  · rfl

theorem StepStatement.row_dependsOn (statement : StepStatement) (row : BootstrapStepRecord) :
    (statement.row row).dependsOn = row.dependsOn := by
  unfold StepStatement.row
  split
  · exact statement.set_dependsOn row
  · rfl

def StepStatement.run (statement : StepStatement) (stepKey : BootstrapStepKey) (steps : StepTable) :
    StepTable :=
  steps.updateWhere (fun row => row.stepKey = stepKey) statement.row statement.row_stepKey

variable {steps : StepTable} {runStatus : BootstrapRunStatus} {key stepKey : BootstrapStepKey}
  {nowMs : Nat} {input : ClaimInput}

theorem StepStatement.get?_run {statement : StepStatement}
    :
    (statement.run stepKey steps).get? key =
      (steps.get? key).map (fun row => if key = stepKey then statement.row row else row) := by
  unfold StepStatement.run
  rw [Table.get?_updateWhere]
  cases h : steps.get? key with
  | none => rfl
  | some row =>
    have hkey : row.stepKey = key := (Table.get?_eq_some.mp h).2
    simp only [Option.map_some, hkey, decide_eq_true_eq]

theorem StepStatement.get?_run_self {statement : StepStatement}
    :
    (statement.run stepKey steps).get? stepKey = (steps.get? stepKey).map statement.row := by
  rw [get?_run]
  simp

theorem StepStatement.get?_run_ne {statement : StepStatement}
    (h : key ≠ stepKey) :
    (statement.run stepKey steps).get? key = steps.get? key := by
  rw [get?_run]
  simp [h]

/-- A status write of a worker: only the protected statuses are excluded. -/
def statusWrite (set : BootstrapStepRecord → BootstrapStepRecord)
    (set_stepKey : ∀ row, (set row).stepKey = row.stepKey)
    (set_dependsOn : ∀ row, (set row).dependsOn = row.dependsOn) : StepStatement where
  guard row := !isProtectedStatus row.status
  set := set
  set_stepKey := set_stepKey
  set_dependsOn := set_dependsOn

def markReadyStmt : StepStatement where
  guard row := row.status = .pending
  set row := { row with status := .ready, nextAttemptAt := 0, leaseOwner := none, leaseUntil := none }
  set_stepKey _ := rfl
  set_dependsOn _ := rfl

/-- `markRunningStmt`: the lease columns stay as they are. -/
def markRunningStmt : StepStatement :=
  statusWrite (fun row => { row with status := .running }) (fun _ => rfl) (fun _ => rfl)

/-- `markDelegatedRunningStmt`: no owner, and a deadline in the place of the lease. -/
def markDelegatedRunningStmt (healthCheckAt : Nat) : StepStatement :=
  statusWrite (fun row =>
      { row with
        status := .running
        nextAttemptAt := healthCheckAt
        leaseOwner := none
        leaseUntil := some healthCheckAt })
    (fun _ => rfl) (fun _ => rfl)

def releaseReadyStmt (leaseOwner : String) (nextAttemptAt : Nat) : StepStatement where
  guard row := row.status = .running && row.leaseOwner = some leaseOwner
  set row :=
    { row with
      status := .ready
      nextAttemptAt := nextAttemptAt
      leaseOwner := none
      leaseUntil := none }
  set_stepKey _ := rfl
  set_dependsOn _ := rfl

def releaseRunningStmt (leaseOwner : String) (nextAttemptAt : Nat) : StepStatement where
  guard row := row.status = .running && row.leaseOwner = some leaseOwner
  set row :=
    { row with nextAttemptAt := nextAttemptAt, leaseOwner := none, leaseUntil := some nextAttemptAt }
  set_stepKey _ := rfl
  set_dependsOn _ := rfl

/-- `lease_owner = @leaseOwner AND lease_until > @nowMs` of a running step of a run that has not
failed. -/
def ownsLease (runStatus : BootstrapRunStatus) (leaseOwner : String) (nowMs : Nat)
    (row : BootstrapStepRecord) : Bool :=
  row.status = .running && row.leaseOwner = some leaseOwner &&
    row.leaseUntil.any (fun leaseUntil => nowMs < leaseUntil) && runStatus ≠ .failed

def renewLeaseStmt (runStatus : BootstrapRunStatus) (leaseOwner : String) (leaseUntil nowMs : Nat) :
    StepStatement where
  guard := ownsLease runStatus leaseOwner nowMs
  set row := { row with leaseUntil := some leaseUntil }
  set_stepKey _ := rfl
  set_dependsOn _ := rfl

def markSucceededStmt (completed : Nat) (total : Option Nat) : StepStatement :=
  statusWrite (fun row =>
      { row with
        status := .succeeded
        progressCompleted := completed
        progressTotal := total
        result := some { completed := some completed, total := total }
        leaseOwner := none
        leaseUntil := none
        lastError := none })
    (fun _ => rfl) (fun _ => rfl)

def markSkippedStmt (reason : String) : StepStatement :=
  statusWrite (fun row =>
      { row with
        status := .skipped
        result := some { reason := some reason }
        leaseOwner := none
        leaseUntil := none
        lastError := none })
    (fun _ => rfl) (fun _ => rfl)

def markFailedRetryStmt (attempts nextAttemptAt : Nat) (error : String) : StepStatement :=
  statusWrite (fun row =>
      { row with
        status := .failedRetry
        attempts := attempts
        nextAttemptAt := nextAttemptAt
        leaseOwner := none
        leaseUntil := none
        lastError := some error })
    (fun _ => rfl) (fun _ => rfl)

def markFailedTerminalStmt (attempts : Nat) (error : String) : StepStatement :=
  statusWrite (fun row =>
      { row with
        status := .failedTerminal
        attempts := attempts
        leaseOwner := none
        leaseUntil := none
        lastError := some error })
    (fun _ => rfl) (fun _ => rfl)

def updateProgressStmt (completed : Nat) (total : Option Nat) : StepStatement :=
  statusWrite (fun row => { row with progressCompleted := completed, progressTotal := total })
    (fun _ => rfl) (fun _ => rfl)

/-- `updateResultStmt`: the one write without any guard on the status. -/
def updateResultStmt (result : StepResult) : StepStatement where
  guard _ := true
  set row := { row with result := some result }
  set_stepKey _ := rfl
  set_dependsOn _ := rfl

/-- The update of `completeEnumeration`, which runs in the transaction that checked the lease. -/
def completeEnumerationStmt (runStatus : BootstrapRunStatus) (leaseOwner : String) (nowMs : Nat)
    (tokenCount : Nat) (result : StepResult) : StepStatement where
  guard := ownsLease runStatus leaseOwner nowMs
  set row :=
    { row with
      status := .succeeded
      progressCompleted := tokenCount
      progressTotal := some tokenCount
      result := some ((row.result.getD {}).patch result)
      leaseOwner := none
      leaseUntil := none
      nextAttemptAt := 0
      lastError := none }
  set_stepKey _ := rfl
  set_dependsOn _ := rfl

/-- The update of the deployment search's `complete`, in the transaction that checked the lease. -/
def completeDeploymentStmt (runStatus : BootstrapRunStatus) (leaseOwner : String) (nowMs : Nat)
    (deploymentBlock : Nat) : StepStatement where
  guard := ownsLease runStatus leaseOwner nowMs
  set row :=
    { row with
      status := .succeeded
      progressCompleted := 1
      progressTotal := some 1
      result := some { deploymentBlock := some deploymentBlock }
      leaseOwner := none
      leaseUntil := none
      nextAttemptAt := 0
      lastError := none }
  set_stepKey _ := rfl
  set_dependsOn _ := rfl

/-! ## 3. What a worker writes -/

/-- The operations of a worker on a step, apart from the claim. -/
inductive WorkerWrite where
  | markReady
  | markRunning
  | markDelegatedRunning (healthCheckAt : Nat)
  | releaseStepLease (leaseOwner : String) (nextAttemptAt : Nat)
  | releaseStepLeaseAsRunning (leaseOwner : String) (nextAttemptAt : Nat)
  | renewStepLease (leaseOwner : String) (leaseUntil nowMs : Nat)
  | markStepSucceeded (completed : Nat) (total : Option Nat)
  | markStepSkipped (reason : String)
  | markStepFailedRetry (attempts nextAttemptAt : Nat) (error : String)
  | markStepFailedTerminal (attempts : Nat) (error : String)
  | updateStepProgress (completed : Nat) (total : Option Nat)
  | updateStepResult (result : StepResult)
  | completeEnumeration (leaseOwner : String) (nowMs tokenCount : Nat) (result : StepResult)
  | completeDeployment (leaseOwner : String) (nowMs deploymentBlock : Nat)

def WorkerWrite.statement (runStatus : BootstrapRunStatus) : WorkerWrite → StepStatement
  | .markReady => markReadyStmt
  | .markRunning => markRunningStmt
  | .markDelegatedRunning healthCheckAt => markDelegatedRunningStmt healthCheckAt
  | .releaseStepLease leaseOwner nextAttemptAt => releaseReadyStmt leaseOwner nextAttemptAt
  | .releaseStepLeaseAsRunning leaseOwner nextAttemptAt => releaseRunningStmt leaseOwner nextAttemptAt
  | .renewStepLease leaseOwner leaseUntil nowMs =>
    renewLeaseStmt runStatus leaseOwner leaseUntil nowMs
  | .markStepSucceeded completed total => markSucceededStmt completed total
  | .markStepSkipped reason => markSkippedStmt reason
  | .markStepFailedRetry attempts nextAttemptAt error =>
    markFailedRetryStmt attempts nextAttemptAt error
  | .markStepFailedTerminal attempts error => markFailedTerminalStmt attempts error
  | .updateStepProgress completed total => updateProgressStmt completed total
  | .updateStepResult result => updateResultStmt result
  | .completeEnumeration leaseOwner nowMs tokenCount result =>
    completeEnumerationStmt runStatus leaseOwner nowMs tokenCount result
  | .completeDeployment leaseOwner nowMs deploymentBlock =>
    completeDeploymentStmt runStatus leaseOwner nowMs deploymentBlock

/-- The writes that name a lease owner and are guarded by it. -/
def WorkerWrite.Fenced (owner : String) : WorkerWrite → Prop
  | .releaseStepLease leaseOwner _ => leaseOwner = owner
  | .releaseStepLeaseAsRunning leaseOwner _ => leaseOwner = owner
  | .renewStepLease leaseOwner _ _ => leaseOwner = owner
  | .completeEnumeration leaseOwner _ _ _ => leaseOwner = owner
  | .completeDeployment leaseOwner _ _ => leaseOwner = owner
  | _ => False

theorem ownsLease_eq_true {leaseOwner : String}
    {row : BootstrapStepRecord} :
    ownsLease runStatus leaseOwner nowMs row = true ↔
      row.status = .running ∧ row.leaseOwner = some leaseOwner ∧
        (∃ leaseUntil, row.leaseUntil = some leaseUntil ∧ nowMs < leaseUntil) ∧
        runStatus ≠ .failed := by
  unfold ownsLease
  cases row.leaseUntil with
  | none => simp
  | some leaseUntil => simp [and_assoc]

theorem WorkerWrite.keeps_protected {write : WorkerWrite}
    {row : BootstrapStepRecord} (h : isProtectedStatus row.status = true) :
    ((write.statement runStatus).row row).status = row.status := by
  have hpending : row.status ≠ .pending := by
    intro hs
    rw [hs] at h
    exact absurd h (by decide)
  have hrunning : row.status ≠ .running := by
    intro hs
    rw [hs] at h
    exact absurd h (by decide)
  have howns : ∀ owner now, ownsLease runStatus owner now row = false := by
    intro owner now
    rw [Bool.eq_false_iff]
    intro hc
    exact hrunning (ownsLease_eq_true.mp hc).1
  cases write <;>
    simp [statement, StepStatement.row, markReadyStmt, markRunningStmt, markDelegatedRunningStmt,
      releaseReadyStmt, releaseRunningStmt, renewLeaseStmt, markSucceededStmt, markSkippedStmt,
      markFailedRetryStmt, markFailedTerminalStmt, updateProgressStmt, updateResultStmt,
      completeEnumerationStmt, completeDeploymentStmt, statusWrite, h, hpending, hrunning, howns]

/-- **A fenced write does nothing to a step whose lease has another owner, or none.** -/
theorem WorkerWrite.Fenced.row_eq {owner : String}
    {write : WorkerWrite} (h : write.Fenced owner) {row : BootstrapStepRecord}
    (howner : row.leaseOwner ≠ some owner) : (write.statement runStatus).row row = row := by
  have howns : ∀ now, ownsLease runStatus owner now row = false := by
    intro now
    rw [Bool.eq_false_iff]
    intro hc
    exact howner (ownsLease_eq_true.mp hc).2.1
  cases write <;> simp only [Fenced] at h <;> subst h <;>
    simp [statement, StepStatement.row, releaseReadyStmt, releaseRunningStmt, renewLeaseStmt,
      completeEnumerationStmt, completeDeploymentStmt, howner, howns]

/-! ## 4. Claims -/

/-- The condition on a row that both statements of a claim have: ready or retry work at its deadline,
running work at the end of its lease. -/
def isClaimable (nowMs : Nat) (row : BootstrapStepRecord) : Bool :=
  ((row.status = .ready || row.status = .failedRetry) && row.nextAttemptAt ≤ nowMs &&
      row.leaseUntil.all (fun leaseUntil => leaseUntil ≤ nowMs)) ||
    (row.status = .running && row.leaseUntil.any (fun leaseUntil => leaseUntil ≤ nowMs))

/-- The input of `claimReadySteps`. -/
structure ClaimInput where
  stepKeys : List BootstrapStepKey
  leaseOwner : String
  leaseUntil : Nat
  nowMs : Nat
  limit : Nat

def selectClaimCandidates (runStatus : BootstrapRunStatus) (input : ClaimInput) (steps : StepTable) :
    List BootstrapStepRecord :=
  (steps.select (fun row =>
    row.stepKey ∈ input.stepKeys && runStatus ≠ .failed && isClaimable input.nowMs row)).take
      (max 1 input.limit)

/-- The row that a claim leaves. -/
def ClaimInput.claimed (input : ClaimInput) (row : BootstrapStepRecord) : BootstrapStepRecord :=
  { row with
    status := .running
    leaseOwner := some input.leaseOwner
    leaseUntil := some input.leaseUntil }

/-- The statement of `updateClaimCandidate`. -/
def updateClaimCandidateStmt (input : ClaimInput) : StepStatement where
  guard := isClaimable input.nowMs
  set := input.claimed
  set_stepKey _ := rfl
  set_dependsOn _ := rfl

/-- The loop of `claimReadySteps`: a candidate whose update changed a row is claimed as it is read
back. -/
def claimLoop (input : ClaimInput) :
    List BootstrapStepRecord → StepTable → List BootstrapStepRecord × StepTable
  | [], steps => ([], steps)
  | candidate :: rest, steps =>
    if (steps.get? candidate.stepKey).any (isClaimable input.nowMs) then
      let steps' := (updateClaimCandidateStmt input).run candidate.stepKey steps
      let claims := claimLoop input rest steps'
      ((steps'.get? candidate.stepKey).toList ++ claims.1, claims.2)
    else claimLoop input rest steps

/-- `claimReadySteps`: the claimed records and the table after the transaction. -/
def claimReadySteps (runStatus : BootstrapRunStatus) (input : ClaimInput) (steps : StepTable) :
    List BootstrapStepRecord × StepTable :=
  if input.stepKeys.length = 0 then ([], steps)
  else claimLoop input (selectClaimCandidates runStatus input steps) steps

theorem isClaimable_eq_true {row : BootstrapStepRecord} :
    isClaimable nowMs row = true ↔
      ((row.status = .ready ∨ row.status = .failedRetry) ∧ row.nextAttemptAt ≤ nowMs ∧
        ∀ leaseUntil ∈ row.leaseUntil, leaseUntil ≤ nowMs) ∨
      (row.status = .running ∧ ∃ leaseUntil ∈ row.leaseUntil, leaseUntil ≤ nowMs) := by
  unfold isClaimable
  cases row.leaseUntil with
  | none => simp
  | some leaseUntil => simp [and_assoc]

theorem isClaimable_status {row : BootstrapStepRecord}
    (h : isClaimable nowMs row = true) :
    row.status = .ready ∨ row.status = .failedRetry ∨ row.status = .running := by
  rcases isClaimable_eq_true.mp h with ⟨hs | hs, -⟩ | ⟨hs, -⟩
  · exact .inl hs
  · exact .inr (.inl hs)
  · exact .inr (.inr hs)

/-- What `claimLoop` does with candidates of distinct keys. -/
structure ClaimSpec (input : ClaimInput) (candidates : List BootstrapStepRecord) (steps : StepTable)
    (out : List BootstrapStepRecord × StepTable) : Prop where
  claimed : ∀ row ∈ out.1, (∃ candidate ∈ candidates, candidate.stepKey = row.stepKey) ∧
    ∃ old, steps.get? row.stepKey = some old ∧ isClaimable input.nowMs old = true ∧ row = input.claimed old
  get? : ∀ key, out.2.get? key = (steps.get? key).map (fun row =>
    if key ∈ out.1.map (·.stepKey) then input.claimed row else row)

theorem claimLoop_spec : ∀ {candidates : List BootstrapStepRecord}
    {steps : StepTable}, (candidates.map (·.stepKey)).Nodup →
      ClaimSpec input candidates steps (claimLoop input candidates steps)
  | [], steps, _ => by
    unfold claimLoop
    constructor
    · intro row hrow
      cases hrow
    · intro key
      simp
  | candidate :: rest, steps, hnodup => by
    obtain ⟨hfresh, hrest⟩ := List.nodup_cons.mp hnodup
    unfold claimLoop
    split
    · next hdue =>
      cases hold : steps.get? candidate.stepKey with
      | none =>
        rw [hold] at hdue
        cases hdue
      | some old =>
        rw [hold] at hdue
        have hdue' : isClaimable input.nowMs old = true := hdue
        have hkey : old.stepKey = candidate.stepKey := (Table.get?_eq_some.mp hold).2
        have hself : ((updateClaimCandidateStmt input).run candidate.stepKey steps).get?
            candidate.stepKey = some (input.claimed old) := by
          rw [StepStatement.get?_run_self, hold, Option.map_some]
          unfold StepStatement.row
          exact congrArg some (if_pos hdue')
        have ih : ClaimSpec input rest _ (claimLoop input rest
            ((updateClaimCandidateStmt input).run candidate.stepKey steps)) := claimLoop_spec hrest
        -- no later candidate has this key, so the rest of the loop leaves the row alone
        have hlater : ∀ row ∈ (claimLoop input rest
            ((updateClaimCandidateStmt input).run candidate.stepKey steps)).1,
            row.stepKey ≠ candidate.stepKey := by
          intro row hrow heq
          obtain ⟨⟨c, hc, hck⟩, -⟩ := ih.claimed row hrow
          exact hfresh (List.mem_map.mpr ⟨c, hc, hck.trans heq⟩)
        simp only [hself, Option.toList_some]
        constructor
        · intro row hrow
          rcases List.mem_cons.mp hrow with rfl | hrow
          · exact ⟨⟨candidate, by simp, hkey.symm⟩, old, by
              rw [show (input.claimed old).stepKey = candidate.stepKey from hkey]
              exact hold, hdue', rfl⟩
          · obtain ⟨⟨c, hc, hck⟩, old', hold', hd, hr⟩ := ih.claimed row hrow
            refine ⟨⟨c, List.mem_cons_of_mem _ hc, hck⟩, old', ?_, hd, hr⟩
            rwa [StepStatement.get?_run_ne (hlater row hrow)] at hold'
        · intro key
          rw [ih.get? key]
          by_cases hk : key = candidate.stepKey
          · subst hk
            have hnot : candidate.stepKey ∉ (claimLoop input rest
                ((updateClaimCandidateStmt input).run candidate.stepKey steps)).1.map (·.stepKey) := by
              rw [List.mem_map]
              rintro ⟨row, hrow, heq⟩
              exact hlater row hrow heq
            rw [hself, hold]
            simp only [Option.map_some, hnot, if_false, List.singleton_append, List.map_cons, List.mem_cons]
            rw [if_pos (.inl hkey.symm)]
          · rw [StepStatement.get?_run_ne hk]
            have hne : key ≠ (input.claimed old).stepKey := by
              intro heq
              exact hk (heq.trans hkey)
            simp [hne]
    · have ih : ClaimSpec input rest steps (claimLoop input rest steps) := claimLoop_spec hrest
      constructor
      · intro row hrow
        obtain ⟨⟨c, hc, hck⟩, h⟩ := ih.claimed row hrow
        exact ⟨⟨c, List.mem_cons_of_mem _ hc, hck⟩, h⟩
      · exact ih.get?

theorem selectClaimCandidates_nodup (runStatus : BootstrapRunStatus) (input : ClaimInput)
    (steps : StepTable) :
    ((selectClaimCandidates runStatus input steps).map (·.stepKey)).Nodup := by
  unfold selectClaimCandidates
  have h : (steps.select (fun row => row.stepKey ∈ input.stepKeys && runStatus ≠ .failed &&
      isClaimable input.nowMs row)).Sublist steps.rows := List.filter_sublist
  exact (((List.take_sublist _ _).trans h).map _).nodup steps.keyed

/-- **What a claim claims**: a step of the lane that is due, of a run that has not failed, with the
record it had but for the status and the lease. -/
theorem claimReadySteps_claimed {row : BootstrapStepRecord}
    (h : row ∈ (claimReadySteps runStatus input steps).1) :
    row.stepKey ∈ input.stepKeys ∧ runStatus ≠ .failed ∧
      ∃ old, steps.get? row.stepKey = some old ∧ isClaimable input.nowMs old = true ∧
        row = input.claimed old := by
  unfold claimReadySteps at h
  split at h
  · cases h
  obtain ⟨⟨candidate, hc, hk⟩, hold⟩ :=
    (claimLoop_spec (selectClaimCandidates_nodup runStatus input steps)).claimed row h
  have hmem := List.mem_of_mem_take hc
  unfold Table.select at hmem
  simp only [List.mem_filter, Bool.and_eq_true, decide_eq_true_eq] at hmem
  obtain ⟨-, ⟨hkeys, hrun⟩, -⟩ := hmem
  rw [hk] at hkeys
  exact ⟨hkeys, hrun, hold⟩

theorem claimReadySteps_get? : (claimReadySteps runStatus input steps).2.get? key =
      (steps.get? key).map (fun row =>
        if key ∈ (claimReadySteps runStatus input steps).1.map (·.stepKey) then input.claimed row
        else row) := by
  unfold claimReadySteps
  split
  · simp
  · exact (claimLoop_spec (selectClaimCandidates_nodup runStatus input steps)).get? key

/-! ## 5. What an operator writes -/

/-- The statements behind the operator's actions on a step: pause, resume and retry of
`apply-bootstrap-run-step-action.ts`, and the two resets of a retry of failed metadata tasks. -/
inductive OperatorWrite where
  | pauseRunStep (expectedStatus : BootstrapStepStatus)
  | resumeRunStep
  | retryTerminalRunStep
  | resetMetadataStepForFailedTaskRetry (progressTotal : Nat)
  | resetImageCacheStepForMetadataRetry

def OperatorWrite.statement : OperatorWrite → StepStatement
  | .pauseRunStep expectedStatus =>
    { guard := fun row => row.status = expectedStatus
      set := fun row => { row with status := .paused, leaseOwner := none, leaseUntil := none }
      set_stepKey := fun _ => rfl
      set_dependsOn := fun _ => rfl }
  | .resumeRunStep =>
    { guard := fun row => row.status = .paused
      set := fun row =>
        { row with status := .ready, nextAttemptAt := 0, leaseOwner := none, leaseUntil := none }
      set_stepKey := fun _ => rfl
      set_dependsOn := fun _ => rfl }
  | .retryTerminalRunStep =>
    { guard := fun row => row.status = .failedTerminal
      set := fun row =>
        { row with
          status := .ready
          nextAttemptAt := 0
          leaseOwner := none
          leaseUntil := none
          attempts := 0
          lastError := none }
      set_stepKey := fun _ => rfl
      set_dependsOn := fun _ => rfl }
  | .resetMetadataStepForFailedTaskRetry progressTotal =>
    { guard := fun row => row.status = .succeeded || row.status = .skipped
      set := fun row =>
        { row with
          status := .ready
          nextAttemptAt := 0
          leaseOwner := none
          leaseUntil := none
          attempts := 0
          progressCompleted := 0
          progressTotal := some progressTotal
          result := none
          lastError := none }
      set_stepKey := fun _ => rfl
      set_dependsOn := fun _ => rfl }
  | .resetImageCacheStepForMetadataRetry =>
    { guard := fun row =>
        row.status = .succeeded || row.status = .skipped || row.status = .failedTerminal
      set := fun row =>
        { row with
          status := .pending
          nextAttemptAt := 0
          leaseOwner := none
          leaseUntil := none
          attempts := 0
          progressCompleted := 0
          progressTotal := none
          result := none
          lastError := none }
      set_stepKey := fun _ => rfl
      set_dependsOn := fun _ => rfl }

/-- The checks of the use case before the statement. -/
def OperatorWrite.admitted (runStatus : BootstrapRunStatus) (stepKey : BootstrapStepKey) :
    OperatorWrite → Bool
  | .pauseRunStep expectedStatus =>
    runStatus ≠ .failed && isBootstrapStepPausable stepKey && canPauseBootstrapStepStatus expectedStatus
  | .resumeRunStep => runStatus ≠ .failed && isBootstrapStepPausable stepKey
  | .retryTerminalRunStep => !(runStatus = .failed && stepKey = .deploymentBlock)
  | .resetMetadataStepForFailedTaskRetry _ => stepKey = .metadata
  | .resetImageCacheStepForMetadataRetry => stepKey = .imageCache

/-- An operator's action on a step. -/
def applyOperatorWrite (runStatus : BootstrapRunStatus) (write : OperatorWrite)
    (stepKey : BootstrapStepKey) (steps : StepTable) : StepTable :=
  if write.admitted runStatus stepKey then write.statement.run stepKey steps else steps

end Artgod.Bootstrap
