/-
# Dependencies and absorbing states of the bootstrap steps

Reconcilers, lane workers, the OpenSea worker and operators act on the steps of one run, in any order; the
state keeps what each party has read (`PipelineState`), since a reconciler marks steps it found ready before
and a worker writes however late to a step it once claimed.  What satisfied a dependency is absorbing for
workers, so an old snapshot stays good.
-/
import Artgod.Bootstrap.Steps
import Mathlib.Data.List.Induction

namespace Artgod.Bootstrap

open Store

/-! ## 1. Runs -/

/-- The steps of a run, and what the parties that work on it have read. -/
structure PipelineState where
  runStatus : BootstrapRunStatus
  steps : StepTable
  /-- steps that a reconciler resolved as ready from a snapshot -/
  resolved : List BootstrapStepKey
  /-- claims that a worker was given, by lease owner -/
  claims : List (String × BootstrapStepKey)
  /-- phases that an OpenSea job has marked as running -/
  delegated : List BootstrapStepKey

/-- The events of a run. -/
inductive PipelineEvent where
  | updateRunStatus (status : BootstrapRunStatus)
  | reconcile
  | markStepReady (stepKey : BootstrapStepKey)
  | claim (input : ClaimInput)
  | work (leaseOwner : String) (stepKey : BootstrapStepKey) (write : WorkerWrite)
  | openSea (stepKey : BootstrapStepKey) (write : WorkerWrite)
  | settle (stepKey : BootstrapStepKey) (write : WorkerWrite)
  | operator (stepKey : BootstrapStepKey) (write : OperatorWrite)

def PipelineEvent.isOperator : PipelineEvent → Bool
  | .operator _ _ => true
  | _ => false

/-- The writes of a lane worker, by itself or through the orchestrator, to a step that it claimed. -/
def processorWrites (stepKey : BootstrapStepKey) : WorkerWrite → Bool
  | .markReady => false
  | .markDelegatedRunning _ => false
  | .releaseStepLease _ _ => !isOpenSeaBootstrapStepKey stepKey
  | _ => true

/-- The writes of the OpenSea worker: a phase can be retried once the job has marked it. -/
def openSeaWrites (delegated : List BootstrapStepKey) (stepKey : BootstrapStepKey) : WorkerWrite → Bool
  | .markDelegatedRunning _ => isOpenSeaBootstrapStepKey stepKey
  | .markStepSucceeded _ _ => isOpenSeaBootstrapStepKey stepKey
  | .markStepFailedTerminal _ _ => isOpenSeaBootstrapStepKey stepKey
  | .markStepFailedRetry _ _ _ => isOpenSeaBootstrapStepKey stepKey && stepKey ∈ delegated
  | _ => false

/-- The phase that a write of the OpenSea worker delegates. -/
def delegatedPhase (stepKey : BootstrapStepKey) : WorkerWrite → List BootstrapStepKey
  | .markDelegatedRunning _ => [stepKey]
  | _ => []

/-- The writes of workers that have not claimed the step. -/
def settlingWrites : WorkerWrite → Bool
  | .markStepSucceeded _ _ => true
  | .markStepSkipped _ => true
  | .markStepFailedTerminal _ _ => true
  | .updateStepProgress _ _ => true
  | .updateStepResult _ => true
  | _ => false

/-- `listRunSteps`, as the reconciler reads it. -/
def listRunSteps (steps : StepTable) : List BootstrapReconcilerStep :=
  steps.rows.map BootstrapStepRecord.reconciler

def PipelineState.write (s : PipelineState) (stepKey : BootstrapStepKey) (write : WorkerWrite) :
    PipelineState :=
  { s with steps := (write.statement s.runStatus).run stepKey s.steps }

def PipelineEvent.step (s : PipelineState) : PipelineEvent → PipelineState
  | .updateRunStatus status => { s with runStatus := status }
  | .reconcile =>
    { s with resolved := s.resolved ++ resolveReadyBootstrapSteps (listRunSteps s.steps) }
  | .markStepReady stepKey => if stepKey ∈ s.resolved then s.write stepKey .markReady else s
  | .claim input =>
    { s with
      steps := (claimReadySteps s.runStatus input s.steps).2
      claims := s.claims ++ (claimReadySteps s.runStatus input s.steps).1.map
        (fun row => (input.leaseOwner, row.stepKey)) }
  | .work leaseOwner stepKey write =>
    if (leaseOwner, stepKey) ∈ s.claims ∧ processorWrites stepKey write = true then
      s.write stepKey write
    else s
  | .openSea stepKey write =>
    if openSeaWrites s.delegated stepKey write then
      { s.write stepKey write with delegated := delegatedPhase stepKey write ++ s.delegated }
    else s
  | .settle stepKey write => if settlingWrites write then s.write stepKey write else s
  | .operator stepKey write =>
    { s with steps := applyOperatorWrite s.runStatus write stepKey s.steps }

def PipelineState.start (graph : BootstrapStepGraph) : PipelineState :=
  ⟨.requested, insertRunSteps graph, [], [], []⟩

def runPipeline (graph : BootstrapStepGraph) (events : List PipelineEvent) : PipelineState :=
  events.foldl PipelineEvent.step (.start graph)

theorem runPipeline_concat (graph : BootstrapStepGraph) (events : List PipelineEvent)
    (event : PipelineEvent) :
    runPipeline graph (events ++ [event]) = event.step (runPipeline graph events) := by
  unfold runPipeline
  rw [List.foldl_append]
  rfl

/-! ## 2. What the steps say -/

/-- The status of a step. -/
def statusOf (steps : StepTable) (key : BootstrapStepKey) : Option BootstrapStepStatus :=
  (steps.get? key).map (·.status)

/-- Every dependency of the step has succeeded or was skipped. -/
def DependenciesSatisfied (steps : StepTable) (key : BootstrapStepKey) : Prop :=
  ∃ row, steps.get? key = some row ∧ ∀ dependency ∈ row.dependsOn,
    ∃ upstream, steps.get? dependency = some upstream ∧
      isBootstrapStepDependencySatisfied upstream.status = true

variable {row : BootstrapStepRecord} {key stepKey : BootstrapStepKey} {graph : BootstrapStepGraph}
  {events : List PipelineEvent} {runStatus : BootstrapRunStatus} {s : PipelineState}
  {event : PipelineEvent} {steps : StepTable} {status : BootstrapStepStatus} {input : ClaimInput}

theorem isProtectedStatus_of_satisfied
    (h : isBootstrapStepDependencySatisfied status = true) : isProtectedStatus status = true := by
  cases status <;> first | rfl | exact absurd h (by decide)

/-- The records of the reconciler have one record for a key, so the map holds the status of the
row. -/
theorem statusByStep_listRunSteps :
    statusByStep (listRunSteps steps) key = some status → statusOf steps key = some status := by
  intro h
  unfold statusByStep at h
  rw [Option.map_eq_some_iff] at h
  obtain ⟨record, hfind, rfl⟩ := h
  have hmem := List.mem_of_find?_eq_some hfind
  have hkey := List.find?_some hfind
  rw [decide_eq_true_eq] at hkey
  rw [List.mem_reverse] at hmem
  unfold listRunSteps at hmem
  obtain ⟨row, hrow, rfl⟩ := List.mem_map.mp hmem
  have hget : steps.get? key = some row := Table.get?_eq_some.mpr ⟨hrow, hkey⟩
  unfold statusOf
  rw [hget]
  rfl

theorem satisfied_of_resolved (h : key ∈ resolveReadyBootstrapSteps (listRunSteps steps)) :
    DependenciesSatisfied steps key := by
  unfold resolveReadyBootstrapSteps at h
  obtain ⟨record, hrecord, rfl⟩ := List.mem_map.mp h
  obtain ⟨hmem, hready⟩ := List.mem_filter.mp hrecord
  rw [Bool.and_eq_true] at hready
  have hdeps := areBootstrapStepDependenciesSatisfied_iff.mp hready.2
  unfold listRunSteps at hmem
  obtain ⟨row, hrow, rfl⟩ := List.mem_map.mp hmem
  refine ⟨row, Table.get?_eq_some.mpr ⟨hrow, rfl⟩, ?_⟩
  intro dependency hdependency
  obtain ⟨status, hstatus, hsat⟩ := hdeps dependency hdependency
  have hof := statusByStep_listRunSteps hstatus
  unfold statusOf at hof
  rw [Option.map_eq_some_iff] at hof
  obtain ⟨upstream, hget, rfl⟩ := hof
  exact ⟨upstream, hget, hsat⟩

/-! ## 3. Workers only advance the steps -/

/-- No step is lost, the graph stays, and protected statuses stay. -/
def Advances (steps steps' : StepTable) : Prop :=
  ∀ key row, steps.get? key = some row → ∃ row', steps'.get? key = some row' ∧
    row'.dependsOn = row.dependsOn ∧
    (isProtectedStatus row.status = true → row'.status = row.status)

theorem Advances.refl (steps : StepTable) : Advances steps steps :=
  fun _ row h => ⟨row, h, rfl, fun _ => rfl⟩

theorem advances_write {write : WorkerWrite}
    :
    Advances steps ((write.statement runStatus).run stepKey steps) := by
  intro key row h
  by_cases hk : key = stepKey
  · subst hk
    refine ⟨(write.statement runStatus).row row, ?_, StepStatement.row_dependsOn _ row,
      WorkerWrite.keeps_protected⟩
    rw [StepStatement.get?_run_self, h, Option.map_some]
  · exact ⟨row, by rw [StepStatement.get?_run_ne hk, h], rfl, fun _ => rfl⟩

theorem claim_row (h : steps.get? key = some row) :
    (claimReadySteps runStatus input steps).2.get? key = some row ∨ (isClaimable input.nowMs row = true ∧
        (claimReadySteps runStatus input steps).2.get? key = some (input.claimed row)) := by
  rw [claimReadySteps_get?, h, Option.map_some]
  split
  · next hmem =>
    obtain ⟨claimed, hclaimed, hkey⟩ := List.mem_map.mp hmem
    obtain ⟨-, -, old, hold, hdue, -⟩ := claimReadySteps_claimed hclaimed
    rw [hkey, h, Option.some.injEq] at hold
    subst hold
    exact .inr ⟨hdue, rfl⟩
  · exact .inl rfl

theorem claimed_not_protected {nowMs : Nat}
    (h : isClaimable nowMs row = true) : isProtectedStatus row.status = false := by
  rcases isClaimable_status h with hs | hs | hs <;> rw [hs] <;> rfl

theorem advances_claim : Advances steps (claimReadySteps runStatus input steps).2 := by
  intro key row h
  rcases (claim_row h : (claimReadySteps runStatus input steps).2.get? key = some row ∨ _) with
    hsame | ⟨hdue, hnew⟩
  · exact ⟨row, hsame, rfl, fun _ => rfl⟩
  refine ⟨input.claimed row, hnew, rfl, ?_⟩
  intro hp
  rw [claimed_not_protected hdue] at hp
  cases hp

theorem DependenciesSatisfied.advances {steps' : StepTable}
    (h : DependenciesSatisfied steps key) (ha : Advances steps steps') :
    DependenciesSatisfied steps' key := by
  obtain ⟨row, hrow, hdeps⟩ := h
  obtain ⟨row', hrow', hgraph, -⟩ := ha key row hrow
  refine ⟨row', hrow', ?_⟩
  intro dependency hdependency
  rw [hgraph] at hdependency
  obtain ⟨upstream, hup, hsat⟩ := hdeps dependency hdependency
  obtain ⟨upstream', hup', -, hkeep⟩ := ha dependency upstream hup
  refine ⟨upstream', hup', ?_⟩
  rw [hkeep (isProtectedStatus_of_satisfied hsat)]
  exact hsat

/-! ## 4. Ready means satisfied -/

/-- A step that a worker may be at, or be given. -/
def isActiveStatus (status : BootstrapStepStatus) : Bool :=
  status = .ready || status = .running || status = .failedRetry

theorem isActiveStatus_of_claimable {nowMs : Nat}
    (h : isClaimable nowMs row = true) : isActiveStatus row.status = true := by
  rcases isClaimable_status h with hs | hs | hs <;> rw [hs] <;> rfl

/-- What holds of the steps as long as no operator acts.  Nothing is said of the OpenSea phases,
which their worker starts ahead of the reconciler. -/
structure DependencyInv (s : PipelineState) : Prop where
  resolved : ∀ key ∈ s.resolved, DependenciesSatisfied s.steps key
  active : ∀ key row, s.steps.get? key = some row → isOpenSeaBootstrapStepKey key = false →
    isActiveStatus row.status = true → DependenciesSatisfied s.steps key
  claims : ∀ claim ∈ s.claims, isOpenSeaBootstrapStepKey claim.2 = false →
    DependenciesSatisfied s.steps claim.2

theorem DependencyInv.write (h : DependencyInv s) {write : WorkerWrite}
    (hnew : isOpenSeaBootstrapStepKey stepKey = false → ∀ row, s.steps.get? stepKey = some row →
      isActiveStatus ((write.statement s.runStatus).row row).status = true →
      DependenciesSatisfied s.steps stepKey) :
    DependencyInv (s.write stepKey write) := by
  have ha : Advances s.steps (s.write stepKey write).steps := advances_write
  refine ⟨?_, ?_, ?_⟩
  · intro key hkey
    exact (h.resolved key hkey).advances ha
  · intro key row hrow hopen hactive
    refine DependenciesSatisfied.advances ?_ ha
    unfold PipelineState.write at hrow
    by_cases hk : key = stepKey
    · subst hk
      rw [StepStatement.get?_run_self, Option.map_eq_some_iff] at hrow
      obtain ⟨old, hold, rfl⟩ := hrow
      exact hnew hopen old hold hactive
    · rw [StepStatement.get?_run_ne hk] at hrow
      exact h.active key row hrow hopen hactive
  · intro claim hclaim hopen
    exact (h.claims claim hclaim hopen).advances ha

theorem active_of_settlingWrites {write : WorkerWrite}
    (h : settlingWrites write = true)
    (hactive : isActiveStatus ((write.statement runStatus).row row).status = true) :
    isActiveStatus row.status = true := by
  unfold StepStatement.row at hactive
  split at hactive
  · cases write with
    | updateStepProgress completed total => exact hactive
    | updateStepResult result => exact hactive
    | markStepSucceeded completed total =>
      exact absurd (show isActiveStatus .succeeded = true from hactive) (by decide)
    | markStepSkipped reason =>
      exact absurd (show isActiveStatus .skipped = true from hactive) (by decide)
    | markStepFailedTerminal attempts error =>
      exact absurd (show isActiveStatus .failedTerminal = true from hactive) (by decide)
    | _ => cases h
  · exact hactive

theorem DependencyInv.claim (h : DependencyInv s) (input : ClaimInput) :
    DependencyInv ((PipelineEvent.claim input).step s) := by
  have ha : Advances s.steps ((PipelineEvent.claim input).step s).steps := advances_claim
  have hactive : ∀ key row, s.steps.get? key = some row → isOpenSeaBootstrapStepKey key = false →
      isActiveStatus row.status = true →
      DependenciesSatisfied ((PipelineEvent.claim input).step s).steps key :=
    fun key row hrow hopen hact => (h.active key row hrow hopen hact).advances ha
  refine ⟨?_, ?_, ?_⟩
  · intro key hkey
    exact (h.resolved key hkey).advances ha
  · intro key row hrow hopen hact
    cases hold : s.steps.get? key with
    | none =>
      simp only [PipelineEvent.step, claimReadySteps_get?, hold] at hrow
      cases hrow
    | some old =>
      simp only [PipelineEvent.step] at hrow
      rcases (claim_row hold : (claimReadySteps s.runStatus input s.steps).2.get? key = some old ∨ _)
        with hsame | ⟨hdue, -⟩
      · rw [hsame, Option.some.injEq] at hrow
        subst hrow
        exact hactive key old hold hopen hact
      · exact hactive key old hold hopen (isActiveStatus_of_claimable hdue)
  · intro claim hclaim hopen
    rcases List.mem_append.mp hclaim with hclaim | hclaim
    · exact (h.claims claim hclaim hopen).advances ha
    · obtain ⟨row, hrow, rfl⟩ := List.mem_map.mp hclaim
      obtain ⟨-, -, old, hold, hdue, -⟩ := claimReadySteps_claimed hrow
      exact hactive _ old hold hopen (isActiveStatus_of_claimable hdue)

theorem DependencyInv.step (h : DependencyInv s)
    (hop : event.isOperator = false) : DependencyInv (event.step s) := by
  cases event with
  | updateRunStatus status => exact ⟨h.resolved, h.active, h.claims⟩
  | reconcile =>
    refine ⟨?_, h.active, h.claims⟩
    intro key hkey
    rcases List.mem_append.mp hkey with hkey | hkey
    · exact h.resolved key hkey
    · exact satisfied_of_resolved hkey
  | markStepReady stepKey =>
    simp only [PipelineEvent.step]
    split
    · next hres => exact h.write (fun _ _ _ _ => h.resolved stepKey hres)
    · exact h
  | claim input => exact h.claim input
  | work leaseOwner stepKey write =>
    simp only [PipelineEvent.step]
    split
    · next hwork => exact h.write (fun hopen _ _ _ => h.claims _ hwork.1 hopen)
    · exact h
  | openSea stepKey write =>
    simp only [PipelineEvent.step]
    split
    · next hwrite =>
      have hopen : isOpenSeaBootstrapStepKey stepKey = true := by
        cases write <;> simp_all [openSeaWrites]
      have hnew : DependencyInv (s.write stepKey write) := by
        refine h.write ?_
        intro hclosed
        rw [hopen] at hclosed
        cases hclosed
      exact ⟨hnew.resolved, hnew.active, hnew.claims⟩
    · exact h
  | settle stepKey write =>
    simp only [PipelineEvent.step]
    split
    · next hset =>
      refine h.write ?_
      intro hopen row hrow hactive
      exact h.active stepKey row hrow hopen (active_of_settlingWrites hset hactive)
    · exact h
  | operator stepKey write => cases hop

theorem DependencyInv.start (graph : BootstrapStepGraph) : DependencyInv (.start graph) := by
  refine ⟨?_, ?_, ?_⟩
  · intro key hkey
    cases hkey
  · intro key row hrow _ hactive
    obtain ⟨hmem, hkey⟩ := Table.get?_eq_some.mp hrow
    obtain ⟨step, hstep, rfl⟩ := List.mem_map.mp hmem
    refine ⟨insertedRow step, hrow, ?_⟩
    rcases graph.fresh step hstep with hpending | ⟨-, hnone⟩
    · have : (insertedRow step).status = .pending := hpending
      rw [this] at hactive
      cases hactive
    intro dependency hdependency
    have : (insertedRow step).dependsOn = [] := hnone
    rw [this] at hdependency
    cases hdependency
  · intro claim hclaim
    cases hclaim

/-- The step was ready in some state of the run. -/
def HasBeenReady (graph : BootstrapStepGraph) (events : List PipelineEvent)
    (key : BootstrapStepKey) : Prop :=
  ∃ earlier, earlier <+: events ∧ statusOf (runPipeline graph earlier).steps key = some .ready

/-- The OpenSea worker has marked the step as running, with a deadline for the scheduler. -/
def WasDelegated (events : List PipelineEvent) (key : BootstrapStepKey) : Prop :=
  ∃ healthCheckAt, PipelineEvent.openSea key (.markDelegatedRunning healthCheckAt) ∈ events

def Known (graph : BootstrapStepGraph) (events : List PipelineEvent) (key : BootstrapStepKey) : Prop :=
  HasBeenReady graph events key ∨ WasDelegated events key

theorem Known.concat (h : Known graph events key) (event : PipelineEvent) :
    Known graph (events ++ [event]) key := by
  rcases h with ⟨earlier, hearlier, hready⟩ | ⟨healthCheckAt, hmem⟩
  · exact .inl ⟨earlier, hearlier.trans (List.prefix_append _ _), hready⟩
  · exact .inr ⟨healthCheckAt, List.mem_append_left _ hmem⟩

theorem known_of_ready
    (h : (runPipeline graph events).steps.get? key = some row) (hready : row.status = .ready) :
    Known graph events key := by
  refine .inl ⟨events, List.prefix_rfl, ?_⟩
  unfold statusOf
  rw [h, Option.map_some, hready]

/-- Steps that are or were at a worker are known. -/
structure KnownInv (graph : BootstrapStepGraph) (events : List PipelineEvent) : Prop where
  active : ∀ key row, (runPipeline graph events).steps.get? key = some row →
    (isActiveStatus row.status = true ∨ row.status = .paused) → Known graph events key
  claims : ∀ claim ∈ (runPipeline graph events).claims, Known graph events claim.2
  delegated : ∀ key ∈ (runPipeline graph events).delegated, WasDelegated events key

/-- A statement on one step keeps the invariant, if the step is known whenever it is left active or
paused, and not ready. -/
theorem KnownInv.statement (h : KnownInv graph events) (statement : StepStatement)
    (stepKey : BootstrapStepKey)
    (hsteps : (event.step (runPipeline graph events)).steps =
      statement.run stepKey (runPipeline graph events).steps)
    (hnew : ∀ row, (runPipeline graph events).steps.get? stepKey = some row →
      (isActiveStatus (statement.row row).status = true ∨ (statement.row row).status = .paused) →
      (statement.row row).status = .ready ∨ Known graph (events ++ [event]) stepKey) :
    ∀ key row, (runPipeline graph (events ++ [event])).steps.get? key = some row →
      (isActiveStatus row.status = true ∨ row.status = .paused) →
      Known graph (events ++ [event]) key := by
  intro key row hrow hstatus
  have hrow' := hrow
  rw [runPipeline_concat, hsteps] at hrow'
  by_cases hk : key = stepKey
  · subst hk
    rw [StepStatement.get?_run_self, Option.map_eq_some_iff] at hrow'
    obtain ⟨old, hold, rfl⟩ := hrow'
    rcases hnew old hold hstatus with hready | hknown
    · exact known_of_ready hrow hready
    · exact hknown
  · rw [StepStatement.get?_run_ne hk] at hrow'
    exact (h.active key row hrow' hstatus).concat event

theorem KnownInv.frame (h : KnownInv graph events)
    (hsteps : (event.step (runPipeline graph events)).steps = (runPipeline graph events).steps)
    (hclaims : (event.step (runPipeline graph events)).claims = (runPipeline graph events).claims)
    (hdelegated : (event.step (runPipeline graph events)).delegated =
      (runPipeline graph events).delegated) : KnownInv graph (events ++ [event]) := by
  refine ⟨?_, ?_, ?_⟩
  · intro key row hrow hstatus
    rw [runPipeline_concat, hsteps] at hrow
    exact (h.active key row hrow hstatus).concat event
  · intro claim hclaim
    rw [runPipeline_concat, hclaims] at hclaim
    exact (h.claims claim hclaim).concat event
  intro key hkey
  rw [runPipeline_concat, hdelegated] at hkey
  obtain ⟨healthCheckAt, hmem⟩ := h.delegated key hkey
  exact ⟨healthCheckAt, List.mem_append_left _ hmem⟩

theorem KnownInv.write (h : KnownInv graph events) (statement : StepStatement) (stepKey : BootstrapStepKey)
    (hsteps : (event.step (runPipeline graph events)).steps =
      statement.run stepKey (runPipeline graph events).steps)
    (hclaims : (event.step (runPipeline graph events)).claims = (runPipeline graph events).claims)
    (hdelegated : (event.step (runPipeline graph events)).delegated = (runPipeline graph events).delegated)
    (hnew : ∀ row, (runPipeline graph events).steps.get? stepKey = some row →
      (isActiveStatus (statement.row row).status = true ∨ (statement.row row).status = .paused) →
      (statement.row row).status = .ready ∨ Known graph (events ++ [event]) stepKey) :
    KnownInv graph (events ++ [event]) := by
  refine ⟨h.statement statement stepKey hsteps hnew, ?_, ?_⟩
  · intro claim hclaim
    rw [runPipeline_concat, hclaims] at hclaim
    exact (h.claims claim hclaim).concat event
  intro key hkey
  rw [runPipeline_concat, hdelegated] at hkey
  obtain ⟨healthCheckAt, hmem⟩ := h.delegated key hkey
  exact ⟨healthCheckAt, List.mem_append_left _ hmem⟩

theorem activeOrPaused_of_settlingWrites {write : WorkerWrite}
    (h : settlingWrites write = true)
    (hstatus : isActiveStatus ((write.statement runStatus).row row).status = true ∨
      ((write.statement runStatus).row row).status = .paused) :
    isActiveStatus row.status = true ∨ row.status = .paused := by
  rcases hstatus with hactive | hpaused
  · exact .inl (active_of_settlingWrites h hactive)
  right
  unfold StepStatement.row at hpaused
  split at hpaused
  · cases write with
    | updateStepProgress completed total => exact hpaused
    | updateStepResult result => exact hpaused
    | markStepSucceeded completed total => cases hpaused
    | markStepSkipped reason => cases hpaused
    | markStepFailedTerminal attempts error => cases hpaused
    | _ => cases h
  · exact hpaused

theorem activeOrPaused_of_operator {write : OperatorWrite} (h : write.admitted runStatus stepKey = true)
    (hstatus : isActiveStatus (write.statement.row row).status = true ∨
      (write.statement.row row).status = .paused) :
    (write.statement.row row).status = .ready ∨
      isActiveStatus row.status = true ∨ row.status = .paused := by
  unfold StepStatement.row at hstatus ⊢
  split
  · next hguard =>
    cases write with
    | pauseRunStep expectedStatus =>
      have hexpected : row.status = expectedStatus := by
        simpa [OperatorWrite.statement] using hguard
      rw [hexpected]
      simp only [OperatorWrite.admitted, Bool.and_eq_true] at h
      exact .inr (.inl h.2)
    | resumeRunStep => exact .inl rfl
    | retryTerminalRunStep => exact .inl rfl
    | resetMetadataStepForFailedTaskRetry progressTotal => exact .inl rfl
    | resetImageCacheStepForMetadataRetry =>
      rw [if_pos hguard] at hstatus
      rcases hstatus with hs | hs <;> cases hs
  · next hguard =>
    rw [if_neg hguard] at hstatus
    exact .inr hstatus

theorem KnownInv.claim (h : KnownInv graph events) (input : ClaimInput) :
    KnownInv graph (events ++ [.claim input]) := by
  refine ⟨?_, ?_, ?_⟩
  · intro key row hrow hstatus
    rw [runPipeline_concat] at hrow
    simp only [PipelineEvent.step] at hrow
    cases hold : (runPipeline graph events).steps.get? key with
    | none =>
      rw [claimReadySteps_get?, hold] at hrow
      cases hrow
    | some old =>
      rcases (claim_row hold : (claimReadySteps (runPipeline graph events).runStatus input
          (runPipeline graph events).steps).2.get? key = some old ∨ _) with hsame | ⟨hdue, -⟩
      · rw [hsame, Option.some.injEq] at hrow
        subst hrow
        exact (h.active key old hold hstatus).concat _
      · exact (h.active key old hold (.inl (isActiveStatus_of_claimable hdue))).concat _
  · intro claim hclaim
    rw [runPipeline_concat] at hclaim
    rcases List.mem_append.mp hclaim with hclaim | hclaim
    · exact (h.claims claim hclaim).concat _
    · obtain ⟨row, hrow, rfl⟩ := List.mem_map.mp hclaim
      obtain ⟨-, -, old, hold, hdue, -⟩ := claimReadySteps_claimed hrow
      exact (h.active _ old hold (.inl (isActiveStatus_of_claimable hdue))).concat _
  · intro key hkey
    rw [runPipeline_concat] at hkey
    obtain ⟨healthCheckAt, hmem⟩ := h.delegated key hkey
    exact ⟨healthCheckAt, List.mem_append_left _ hmem⟩

theorem delegated_of_openSeaWrites {delegated : List BootstrapStepKey}
    {write : WorkerWrite}
    (h : openSeaWrites delegated stepKey write = true)
    (hstatus : isActiveStatus ((write.statement runStatus).row row).status = true ∨
      ((write.statement runStatus).row row).status = .paused) :
    (∃ healthCheckAt, write = .markDelegatedRunning healthCheckAt) ∨ stepKey ∈ delegated ∨
      isActiveStatus row.status = true ∨ row.status = .paused := by
  unfold StepStatement.row at hstatus
  split at hstatus
  · cases write with
    | markDelegatedRunning healthCheckAt => exact .inl ⟨healthCheckAt, rfl⟩
    | markStepFailedRetry attempts nextAttemptAt error =>
      simp only [openSeaWrites, Bool.and_eq_true, decide_eq_true_eq] at h
      exact .inr (.inl h.2)
    | markStepSucceeded completed total => rcases hstatus with hs | hs <;> cases hs
    | markStepFailedTerminal attempts error => rcases hstatus with hs | hs <;> cases hs
    | _ => cases h
  · exact .inr (.inr hstatus)

theorem KnownInv.openSea (h : KnownInv graph events) (stepKey : BootstrapStepKey) (write : WorkerWrite)
    (hwrite : openSeaWrites (runPipeline graph events).delegated stepKey write = true) :
    KnownInv graph (events ++ [.openSea stepKey write]) := by
  have hold : ∀ key ∈ (runPipeline graph events).delegated,
      WasDelegated (events ++ [.openSea stepKey write]) key := by
    intro key hkey
    obtain ⟨healthCheckAt, hmem⟩ := h.delegated key hkey
    exact ⟨healthCheckAt, List.mem_append_left _ hmem⟩
  refine ⟨?_, ?_, ?_⟩
  · refine h.statement (write.statement (runPipeline graph events).runStatus) stepKey ?_ ?_
    · simp only [PipelineEvent.step, hwrite, if_true, PipelineState.write]
    intro row hrow hstatus
    right
    rcases delegated_of_openSeaWrites hwrite hstatus with ⟨healthCheckAt, rfl⟩ | hmem | hbefore
    · exact .inr ⟨healthCheckAt, by simp⟩
    · exact .inr (hold stepKey hmem)
    · exact (h.active stepKey row hrow hbefore).concat _
  · intro claim hclaim
    rw [runPipeline_concat] at hclaim
    simp only [PipelineEvent.step, hwrite, if_true, PipelineState.write] at hclaim
    exact (h.claims claim hclaim).concat _
  · intro key hkey
    rw [runPipeline_concat] at hkey
    simp only [PipelineEvent.step, hwrite, if_true] at hkey
    rcases List.mem_append.mp hkey with hkey | hkey
    · cases write with
      | markDelegatedRunning healthCheckAt =>
        rw [List.mem_singleton.mp hkey]
        exact ⟨healthCheckAt, by simp⟩
      | _ => cases hkey
    · exact hold key hkey

theorem KnownInv.step
    (h : KnownInv graph events) (event : PipelineEvent) : KnownInv graph (events ++ [event]) := by
  cases event with
  | updateRunStatus status => exact h.frame rfl rfl rfl
  | reconcile => exact h.frame rfl rfl rfl
  | markStepReady stepKey =>
    by_cases hres : stepKey ∈ (runPipeline graph events).resolved
    · refine h.write markReadyStmt stepKey ?_ ?_ ?_ ?_
      · simp [PipelineEvent.step, hres, PipelineState.write, WorkerWrite.statement]
      · simp [PipelineEvent.step, hres, PipelineState.write]
      · simp [PipelineEvent.step, hres, PipelineState.write]
      intro row hrow hstatus
      unfold StepStatement.row at hstatus ⊢
      split
      · exact .inl rfl
      · next hguard =>
        rw [if_neg hguard] at hstatus
        exact .inr ((h.active stepKey row hrow hstatus).concat _)
    · refine h.frame ?_ ?_ ?_ <;> simp [PipelineEvent.step, hres]
  | claim input => exact h.claim input
  | work leaseOwner stepKey write =>
    by_cases hwork : (leaseOwner, stepKey) ∈ (runPipeline graph events).claims ∧
        processorWrites stepKey write = true
    · refine h.write (write.statement (runPipeline graph events).runStatus) stepKey ?_ ?_ ?_ ?_
      · simp [PipelineEvent.step, hwork, PipelineState.write]
      · simp [PipelineEvent.step, hwork, PipelineState.write]
      · simp [PipelineEvent.step, hwork, PipelineState.write]
      · intro row hrow hstatus
        exact .inr ((h.claims _ hwork.1).concat _)
    · refine h.frame ?_ ?_ ?_ <;> simp only [PipelineEvent.step, if_neg hwork]
  | openSea stepKey write =>
    by_cases hwrite : openSeaWrites (runPipeline graph events).delegated stepKey write = true
    · exact h.openSea stepKey write hwrite
    · refine h.frame ?_ ?_ ?_ <;> simp [PipelineEvent.step, hwrite]
  | settle stepKey write =>
    by_cases hset : settlingWrites write = true
    · refine h.write (write.statement (runPipeline graph events).runStatus) stepKey ?_ ?_ ?_ ?_
      · simp [PipelineEvent.step, hset, PipelineState.write]
      · simp [PipelineEvent.step, hset, PipelineState.write]
      · simp [PipelineEvent.step, hset, PipelineState.write]
      · intro row hrow hstatus
        have hbefore := activeOrPaused_of_settlingWrites hset hstatus
        exact .inr ((h.active stepKey row hrow hbefore).concat _)
    · refine h.frame ?_ ?_ ?_ <;> simp [PipelineEvent.step, hset]
  | operator stepKey write =>
    by_cases hadmitted : write.admitted (runPipeline graph events).runStatus stepKey = true
    · refine h.write write.statement stepKey ?_ rfl rfl ?_
      · simp [PipelineEvent.step, applyOperatorWrite, hadmitted]
      intro row hrow hstatus
      rcases activeOrPaused_of_operator hadmitted hstatus with hready | hbefore
      · exact .inl hready
      · exact .inr ((h.active stepKey row hrow hbefore).concat _)
    · refine h.frame ?_ rfl rfl
      simp [PipelineEvent.step, applyOperatorWrite, hadmitted]

/-- A lane worker's visit to a step: reconcile, claim it and finish it. -/
def visit (stepKey : BootstrapStepKey) (nowMs : Nat) : List PipelineEvent :=
  [ .reconcile, .markStepReady stepKey,
    .claim ⟨[stepKey], "bootstrap-worker:main", nowMs + 30, nowMs, 1⟩,
    .work "bootstrap-worker:main" stepKey (.markStepSucceeded 1 (some 1)) ]

end Artgod.Bootstrap
