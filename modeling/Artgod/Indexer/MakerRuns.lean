/-
# Maker revalidation runs

A change of a maker's balances or approvals asks for the maker's orders in a scope to be validated again
(`domain/maker-revalidation.ts`, `infra/orders/sqlite-maker-revalidations.ts`).  Requests of one scope share a
run, which makes passes over the orders by id, a page at a checkpoint, under a lease; a request that the current
pass does not include is merged and served by one more pass.  A checkpoint with an old `step` is refused.
-/
import Artgod.Indexer.Demand

namespace Artgod.Indexer

open Store

/-! ## 1. Requests -/

inductive SyncWorkClass where
  | main
  | gapRepair
deriving DecidableEq

def decodeSyncWorkClass (value : Option SyncWorkClass) : SyncWorkClass := value.getD .main

def strongestSyncWorkClass (left right : SyncWorkClass) : SyncWorkClass :=
  if left = .main ∨ right = .main then .main else .gapRepair

inductive TokenScopedMakerTriggerReason where
  | nftTransfer
  | nftApproval
  | itemSold
  | itemTransferred
deriving DecidableEq

inductive CollectionScopedMakerTriggerReason where
  | nftApprovalForAll
deriving DecidableEq

inductive GlobalMakerTriggerReason where
  | erc20Balance
  | approvalChange
  | orderCounter
deriving DecidableEq

/-- `MAKER_TRIGGER_SCOPE`, with the fields each scope has. -/
inductive MakerTriggerScope where
  | token (collectionId : CollectionId) (tokenId : TokenId) (contract : Option Address)
      (reason : TokenScopedMakerTriggerReason)
  | collection (collectionId : CollectionId) (contract : Option Address)
      (reason : CollectionScopedMakerTriggerReason)
  | global (reason : GlobalMakerTriggerReason)
deriving DecidableEq

structure OrderUpdateByMakerPayload where
  workClass : Option SyncWorkClass
  maker : Address
  blockNumber : Option Nat
  blockHash : Option Hash
  txHash : Option Hash
  logIndex : Option Nat
  scope : MakerTriggerScope
deriving DecidableEq

def MakerTriggerScope.collectionId? : MakerTriggerScope → Option CollectionId
  | .token collectionId _ _ _ => some collectionId
  | .collection collectionId _ _ => some collectionId
  | .global _ => none

def MakerTriggerScope.tokenId? : MakerTriggerScope → Option TokenId
  | .token _ tokenId _ _ => some tokenId
  | _ => none

/-- `/^\d+$/`. -/
def isDecimal (text : String) : Bool := text ≠ "" && text.toList.all Char.isDigit

variable (payload : OrderUpdateByMakerPayload)

/-- `canonicalMakerRequest`: admitted work is current-order validation, of class main. -/
def canonicalMakerRequest : Except SyncError OrderUpdateByMakerPayload :=
  if ∃ b ∈ payload.blockNumber, isSafeInteger b = false then
    .error (.error "Invalid maker trigger block")
  else if ∃ c ∈ payload.scope.collectionId?, isSafeInteger c = false ∨ c = 0 then
    .error (.error "Invalid maker collection scope")
  else if ∃ t ∈ payload.scope.tokenId?, isDecimal t = false then
    .error (.error "Unsupported maker request scope or reason")
  else .ok { payload with workClass := payload.workClass.map (fun _ => .main) }

inductive MakerValidationScope where
  | wethBids
  | allSeaport
  | tokenSells
  | collectionSells
deriving DecidableEq

/-- The values that `makerValidationScopeKey` lists. -/
structure MakerScopeKey where
  chainRevision : Nat
  maker : Address
  kind : MakerValidationScope
  observed : Bool
  collectionId : Option CollectionId
  tokenId : Option TokenId
deriving DecidableEq

/-- `makerValidationScopeKey`: requests that select the same orders can share a pass. -/
def makerValidationScopeKey (chainRevision : Nat) : MakerScopeKey where
  chainRevision := chainRevision
  maker := payload.maker
  kind :=
    match payload.scope with
    | .global .orderCounter => .allSeaport
    | .global _ => .wethBids
    | .token _ _ _ _ => .tokenSells
    | .collection _ _ _ => .collectionSells
  observed := payload.blockNumber.isNone
  collectionId := payload.scope.collectionId?
  tokenId := payload.scope.tokenId?

/-! ## 2. Runs -/

inductive MakerRevalidationStatus where
  | pending
  | completed
deriving DecidableEq

/-- A row of `maker_order_revalidation_runs`. -/
structure MakerRevalidationRun where
  runId : String
  sourceJobId : String
  sourcePayload : OrderUpdateByMakerPayload
  payload : OrderUpdateByMakerPayload
  requestedPayload : OrderUpdateByMakerPayload
  scopeKey : Option MakerScopeKey
  generation : Nat
  passGeneration : Nat
  passStartedAt : Nat
  requestedAt : Nat
  status : MakerRevalidationStatus
  afterId : OrderId
  upperOrderId : OrderId
  leaseOwner : Option String
  leaseVersion : Nat
  leaseUntil : Nat
  step : Nat
  resolvedOrders : Nat
  deferredOrders : Nat
  isolateOrderId : Option OrderId
  failures : Nat
  wakeupOutboxId : Option Nat
  wakeupGeneration : Nat
deriving DecidableEq

/-- The chain tables and the runs. -/
structure MakerStore where
  db : Db
  runs : Table MakerRevalidationRun.runId

abbrev MakerM := Tx MakerStore SyncError

/-- `MAKER_REVALIDATION_POLICY`, with the limits the store uses. -/
structure MakerRevalidationPolicy where
  leaseMs : Nat
  isolateAfterFailures : Nat

def makerRevalidationPolicy : MakerRevalidationPolicy where
  leaseMs := 120000
  isolateAfterFailures := 2

/-- `blockNumber ?? -1`. -/
def blockOrMinusOne (blockNumber : Option Nat) : Int := (blockNumber.map Int.ofNat).getD (-1)

def makerAdmissionIncludes (at_ : Nat) (required : OrderUpdateByMakerPayload) (requiredAt : Nat) : Bool :=
  !(decodeSyncWorkClass required.workClass = .main && decodeSyncWorkClass payload.workClass = .gapRepair) &&
    requiredAt ≤ at_ &&
    blockOrMinusOne required.blockNumber ≤ blockOrMinusOne payload.blockNumber &&
    !(payload.blockNumber = required.blockNumber && payload.blockHash.isSome &&
      required.blockHash.isSome && payload.blockHash ≠ required.blockHash)

variable (run : MakerRevalidationRun)

def advancesMakerDemand (payload : OrderUpdateByMakerPayload) (requiredAt : Nat) : Bool :=
  if makerAdmissionIncludes run.payload run.passStartedAt payload requiredAt then false
  else
    run.generation = run.passGeneration ||
      !makerAdmissionIncludes run.requestedPayload run.requestedAt payload requiredAt

def mergeMakerRequirements (payload : OrderUpdateByMakerPayload)
    (requiredAt : Nat) : Except SyncError OrderUpdateByMakerPayload :=
  let previous := run.requestedPayload
  let newer :=
    blockOrMinusOne previous.blockNumber < blockOrMinusOne payload.blockNumber ∨
      (blockOrMinusOne payload.blockNumber = blockOrMinusOne previous.blockNumber ∧
        run.requestedAt ≤ requiredAt)
  let selected := if newer then payload else previous
  canonicalMakerRequest (if previous.workClass = none ∧ payload.workClass = none then selected
    else
      { selected with
        workClass :=
          if run.status = .completed then some (decodeSyncWorkClass payload.workClass)
          else
            some (strongestSyncWorkClass (decodeSyncWorkClass previous.workClass)
              (decodeSyncWorkClass payload.workClass)) })

/-! ## 3. Admission -/

/-- The argument of `admit`; the queue origin is left out. -/
structure MakerAdmission where
  jobId : String
  payload : OrderUpdateByMakerPayload
  requiredAt : Option Nat
  now : Nat

/-- An event request has no time of its own. -/
def MakerAdmission.demandAt (input : MakerAdmission) : Option Nat :=
  if input.payload.blockNumber.isSome then input.requiredAt.map (fun _ => 0) else input.requiredAt

/-- `captureMakerPass`: the last order of a pass that starts now. -/
def captureMakerPass (db : Db) : OrderId := (db.orders.rows.map (·.id)).max?.getD ""

/-- Rewrite one run. -/
def MakerStore.updateRun (s : MakerStore) (runId : String) (p : MakerRevalidationRun → Bool)
    (f : MakerRevalidationRun → MakerRevalidationRun) (hf : ∀ r, (f r).runId = r.runId) :
    MakerStore :=
  { s with runs := s.runs.updateWhere (fun r => r.runId = runId && p r) f hf }

/-- The `INSERT` of a first request. -/
def MakerRevalidationRun.ofRequest (runId jobId : String) (payload : OrderUpdateByMakerPayload)
    (scopeKey : Option MakerScopeKey) (requiredAt now : Nat) (upperOrderId : OrderId) :
    MakerRevalidationRun where
  runId := runId
  sourceJobId := jobId
  sourcePayload := payload
  payload := payload
  requestedPayload := payload
  scopeKey := scopeKey
  generation := 1
  passGeneration := 1
  passStartedAt := now
  requestedAt := requiredAt
  status := .pending
  afterId := ""
  upperOrderId := upperOrderId
  leaseOwner := none
  leaseVersion := 0
  leaseUntil := 0
  step := 0
  resolvedOrders := 0
  deferredOrders := 0
  isolateOrderId := none
  failures := 0
  wakeupOutboxId := none
  wakeupGeneration := 0

/-- The `UPDATE` that merges a request. -/
def MakerRevalidationRun.merged (requested : OrderUpdateByMakerPayload)
    (requiredAt : Nat) : MakerRevalidationRun :=
  { run with
    generation := run.generation + 1
    requestedPayload := requested
    requestedAt := max run.requestedAt requiredAt }

/-- The `UPDATE` that starts a pass for what was requested. -/
def MakerRevalidationRun.passStarted (upperOrderId : OrderId) (now : Nat) : MakerRevalidationRun :=
  { run with
    afterId := "", payload := run.requestedPayload, passGeneration := run.generation
    passStartedAt := now, upperOrderId := upperOrderId }

/-- `replaceWakeup`: only a pending run has a continuation; `outboxId` is the row it gets. -/
def MakerRevalidationRun.wake (outboxId : Nat) : MakerRevalidationRun :=
  { run with wakeupOutboxId := if run.status = .pending then some outboxId else none }

/-- A completed run starts again, at once. -/
def MakerRevalidationRun.restarted (upperOrderId : OrderId) (now outboxId : Nat) : MakerRevalidationRun :=
  MakerRevalidationRun.wake { run.passStarted upperOrderId now with
      status := .pending, isolateOrderId := none, step := run.step + 1 }
    outboxId

/-- What a request that the pass does not include does to the run of its scope. -/
def MakerRevalidationRun.admitted
    (requested : OrderUpdateByMakerPayload) (requiredAt : Nat) (upperOrderId : OrderId)
    (now outboxId : Nat) : MakerRevalidationRun :=
  if run.status = .completed then
    (run.merged requested requiredAt).restarted upperOrderId now outboxId
  else run.merged requested requiredAt

theorem MakerRevalidationRun.runId_admitted (run : MakerRevalidationRun)
    (requested : OrderUpdateByMakerPayload) (requiredAt : Nat) (upperOrderId : OrderId)
    (now outboxId : Nat) :
    (run.admitted requested requiredAt upperOrderId now outboxId).runId = run.runId := by
  rw [admitted]
  split <;> rfl

/-- The run of a scope takes a request in. -/
def joinRun (payload : OrderUpdateByMakerPayload) (requiredAt now
    outboxId : Nat) : MakerM Unit := do
  if advancesMakerDemand run payload requiredAt then
    let requested ← Tx.check (mergeMakerRequirements run payload requiredAt)
    modify (fun s => s.updateRun run.runId (fun _ => true)
      (fun r => r.admitted requested requiredAt (captureMakerPass s.db) now outboxId)
      (fun r => r.runId_admitted requested requiredAt (captureMakerPass s.db) now outboxId))

/-- A new run. -/
def insertRun (runId jobId : String) (payload : OrderUpdateByMakerPayload)
    (scopeKey : Option MakerScopeKey) (requiredAt now : Nat) : MakerM String := do
  modify (fun s =>
    { s with
      runs := s.runs.insertOrIgnore
        (.ofRequest runId jobId payload scopeKey requiredAt now (captureMakerPass s.db)) })
  return runId

/-- `admit`; `runId` is the identifier a new run gets.  It returns the run of the request. -/
def admitMaker (input : MakerAdmission) (runId : String) (outboxId : Nat) : MakerM String :=
  Tx.writeTransaction do
    Tx.throwIf (∃ t ∈ input.demandAt, isSafeInteger t = false) (.error "Invalid maker demand time")
    let s ← get
    let payload ← Tx.check (canonicalMakerRequest input.payload)
    match s.runs.rows.find? (fun r => r.sourceJobId = input.jobId) with
    | some row =>
      Tx.throwIf (row.sourcePayload ≠ payload)
        (.makerRevalidationConflict "Maker request identity reused with different payload")
      return row.runId
    | none =>
      match input.demandAt with
      | none => insertRun runId input.jobId payload none input.now input.now
      | some requiredAt =>
        let key := makerValidationScopeKey payload s.db.revision
        match s.runs.rows.find? (fun r => r.scopeKey = some key) with
        | none => insertRun runId input.jobId payload (some key) requiredAt input.now
        | some row =>
          joinRun row payload requiredAt input.now outboxId
          return row.runId

/-! ## 4. Leases and wakeups -/

/-- The `UPDATE` of `claim`. -/
def MakerRevalidationRun.claimed (owner : String) (now : Nat) : MakerRevalidationRun :=
  { run with
    leaseOwner := some owner
    leaseVersion := run.leaseVersion + 1
    leaseUntil := now + makerRevalidationPolicy.leaseMs }

theorem MakerRevalidationRun.runId_claimed (run : MakerRevalidationRun) (owner : String)
    (now : Nat) : (run.claimed owner now).runId = run.runId := rfl

/-- A run that can be claimed: nobody has it, or the lease has ended. -/
def MakerRevalidationRun.claimable (now : Nat) : Bool :=
  run.status = .pending && (run.leaseOwner = none || run.leaseUntil ≤ now)

/-- `claim`: the claimed run. -/
def claimMaker (runId owner : String) (now : Nat) : MakerM (Option MakerRevalidationRun) :=
  Tx.writeTransaction (modifyGet (fun s =>
    (((s.runs.get? runId).filter (·.claimable now)).map (·.claimed owner now),
      s.updateRun runId (·.claimable now) (·.claimed owner now) (fun r => r.runId_claimed owner now))))

/-- The run is leased to the executor that holds this copy. -/
def MakerRevalidationRun.leasedTo (current run : MakerRevalidationRun) : Bool :=
  current.leaseOwner = run.leaseOwner && current.leaseOwner ≠ none &&
    current.leaseVersion = run.leaseVersion && current.status = .pending

def MakerRevalidationRun.renewed (now : Nat) : MakerRevalidationRun :=
  { run with leaseUntil := now + makerRevalidationPolicy.leaseMs }

theorem MakerRevalidationRun.runId_renewed (run : MakerRevalidationRun) (now : Nat) :
    (run.renewed now).runId = run.runId := rfl

/-- `renew`. -/
def renewMaker (now : Nat) : MakerM Bool :=
  modifyGet (fun s =>
    ((s.runs.get? run.runId).any (fun r => r.leasedTo run && now < r.leaseUntil),
      s.updateRun run.runId (fun r => r.leasedTo run && now < r.leaseUntil) (·.renewed now)
        (fun r => r.runId_renewed now)))

/-- What a failed step reports: the order whose snapshot could not be read, or another failure. -/
inductive MakerStepError where
  | readUnavailable (orderId : OrderId)
  | other

def MakerStepError.orderId? : MakerStepError → Option OrderId
  | .readUnavailable orderId => some orderId
  | .other => none

/-- The order to isolate, if the failure names one of the rest of the pass. -/
def failedOrderId (error : Option MakerStepError) : Option OrderId :=
  (error.bind (·.orderId?)).filter (fun id => run.afterId < id && id ≤ run.upperOrderId)

variable (current : MakerRevalidationRun)

/-- The `UPDATE` of `release`. -/
def MakerRevalidationRun.released (failed : Option OrderId)
    (error : Option MakerStepError) : MakerRevalidationRun :=
  { current with
    leaseOwner := none
    leaseUntil := 0
    isolateOrderId :=
      if failed.isSome ∧ makerRevalidationPolicy.isolateAfterFailures ≤ current.failures + 1 then
        failed
      else current.isolateOrderId
    failures := current.failures + if error.isNone then 0 else 1 }

theorem MakerRevalidationRun.runId_released (current : MakerRevalidationRun)
    (failed : Option OrderId) (error : Option MakerStepError) :
    (current.released failed error).runId = current.runId := rfl

/-- `release`. -/
def releaseMaker (error : Option MakerStepError) : MakerM Unit :=
  modify (fun s => s.updateRun run.runId (·.leasedTo run) (·.released (failedOrderId run error) error)
    (fun r => r.runId_released (failedOrderId run error) error))

theorem MakerRevalidationRun.runId_wake (run : MakerRevalidationRun) (outboxId : Nat) :
    (run.wake outboxId).runId = run.runId := rfl

def scheduleWakeup (runId : String) (outboxId : Nat) : MakerM Unit :=
  Tx.writeTransaction (modify (fun s =>
    s.updateRun runId (fun r => r.status = .pending && r.wakeupOutboxId = none) (·.wake outboxId)
      (fun r => r.runId_wake outboxId)))

/-- The run still has the lost wakeup that was seen, and no executor. -/
def MakerRevalidationRun.recoverable (current run : MakerRevalidationRun) (now : Nat) : Bool :=
  current.status = .pending && current.leaseUntil ≤ now && current.step = run.step &&
    current.wakeupGeneration = run.wakeupGeneration && current.wakeupOutboxId = run.wakeupOutboxId

def MakerRevalidationRun.recovered (outboxId : Nat) : MakerRevalidationRun :=
  MakerRevalidationRun.wake
    { run with wakeupGeneration := run.wakeupGeneration + 1, leaseOwner := none, leaseUntil := 0 }
    outboxId

theorem MakerRevalidationRun.runId_recovered (run : MakerRevalidationRun) (outboxId : Nat) :
    (run.recovered outboxId).runId = run.runId := rfl

def recoverWakeup (now outboxId : Nat) : MakerM Bool :=
  Tx.writeTransaction (modifyGet (fun s =>
    ((s.runs.get? run.runId).any (·.recoverable run now),
      s.updateRun run.runId (·.recoverable run now) (·.recovered outboxId)
        (fun r => r.runId_recovered outboxId))))

/-- `cleanup`: completed runs whose deliveries were all acknowledged go; which those are is decided
by the origins table, which is left out. -/
def cleanupRuns (acknowledged : MakerRevalidationRun → Bool) : MakerM Unit :=
  Tx.writeTransaction (modify (fun s =>
    { s with runs := s.runs.deleteWhere (fun r => r.status = .completed && acknowledged r) }))

/-! ## 5. Checkpoints -/

/-- The fence of `checkpoint`. -/
def MakerRevalidationRun.fences (current run : MakerRevalidationRun) (now : Nat) : Bool :=
  current.status = .pending && current.leaseOwner = run.leaseOwner &&
    current.leaseVersion = run.leaseVersion && now < current.leaseUntil &&
    current.afterId = run.afterId && current.step = run.step

/-- What the entries of a checkpoint read of the executor's copy and of the stored run. -/
def MakerRevalidationRun.pass (run current : MakerRevalidationRun) : MakerPass where
  blockNumber := run.payload.blockNumber
  observedAt := max run.passStartedAt run.requestedAt
  upperOrderId := run.upperOrderId
  isolateOrderId := current.isolateOrderId

/-- The arguments of `checkpoint` that the executor brings. -/
structure MakerCheckpoint where
  run : MakerRevalidationRun
  resolutions : List MakerValidationCheckpointEntry
  complete : Bool
  evidence : Option OrderValidationEvidence

/-- A completed pass is followed by another when requests came since it started. -/
def MakerCheckpoint.followup (c : MakerCheckpoint) (current : MakerRevalidationRun) : Bool :=
  c.complete && c.run.passGeneration < current.generation

/-- The `UPDATE` of `checkpoint`. -/
def MakerRevalidationRun.advanced (c : MakerCheckpoint)
    (afterId : OrderId) (deferred : Nat) (finished : Bool) (now : Nat) : MakerRevalidationRun :=
  { current with
    afterId := afterId
    status := if finished then .completed else .pending
    step := current.step + 1
    resolvedOrders := current.resolvedOrders + (c.resolutions.length - deferred)
    deferredOrders := current.deferredOrders + deferred
    isolateOrderId :=
      if c.complete ∨ ∃ id ∈ current.isolateOrderId, id ≤ afterId then none
      else current.isolateOrderId
    failures := 0
    leaseOwner := if finished then none else c.run.leaseOwner
    leaseUntil := if finished then 0 else now + makerRevalidationPolicy.leaseMs }

/-- The run after `checkpoint`. -/
def MakerRevalidationRun.checkpointed (c : MakerCheckpoint)
    (afterId : OrderId) (deferred : Nat) (upperOrderId : OrderId) (now outboxId : Nat) :
    MakerRevalidationRun :=
  let followup := c.followup current
  let advanced := current.advanced c afterId deferred (c.complete && !followup) now
  MakerRevalidationRun.wake (if followup then advanced.passStarted upperOrderId now else advanced) outboxId

theorem MakerRevalidationRun.runId_checkpointed (current : MakerRevalidationRun)
    (c : MakerCheckpoint) (afterId : OrderId) (deferred : Nat) (upperOrderId : OrderId)
    (now outboxId : Nat) :
    (current.checkpointed c afterId deferred upperOrderId now outboxId).runId = current.runId := by
  rw [checkpointed]
  dsimp only [wake]
  split <;> rfl

/-- `checkpoint`: order effects and progress have one commit. -/
def checkpointMaker (c : MakerCheckpoint) (now nowSeconds outboxId : Nat) : MakerM MakerRevalidationRun :=
  Tx.writeTransaction do
    let s ← get
    match (s.runs.get? c.run.runId).filter (fun current => current.fences c.run now) with
    | none =>
      throw (.makerRevalidationConflict "Maker checkpoint lost its lease or cursor fence")
    | some current =>
      let out ← Tx.zoom MakerStore.db (fun db s => { s with db := db })
        (applyCheckpoint (c.run.pass current) c.run.afterId c.resolutions c.evidence now nowSeconds)
      let s ← get
      set (s.updateRun c.run.runId (fun _ => true)
        (·.checkpointed c out.1 out.2 (captureMakerPass s.db) now outboxId)
        (fun r => r.runId_checkpointed c out.1 out.2 (captureMakerPass s.db) now outboxId))
      return current.checkpointed c out.1 out.2 (captureMakerPass s.db) now outboxId

/-! ## 6. What the operations do to a run -/

variable {s s' : MakerStore} {id runId : String} {now outboxId : Nat}

theorem mem_updateRun {p : MakerRevalidationRun → Bool}
    {f : MakerRevalidationRun → MakerRevalidationRun} {hf : ∀ r, (f r).runId = r.runId}
    {row' : MakerRevalidationRun} (h : row' ∈ (s.updateRun runId p f hf).runs) :
    ∃ row ∈ s.runs, (row.runId = runId → p row = false) ∧ row' = row ∨
      row.runId = runId ∧ p row = true ∧ row' = f row := by
  have h' : row' ∈ s.runs.updateWhere (fun r => r.runId = runId && p r) f hf := h
  obtain ⟨row, hrow, rfl⟩ := Table.mem_updateWhere.mp h'
  refine ⟨row, hrow, ?_⟩
  split
  · next hp =>
    simp only [Bool.and_eq_true, decide_eq_true_eq] at hp
    exact Or.inr ⟨hp.1, hp.2, rfl⟩
  · next hp =>
    refine Or.inl ⟨fun hid => ?_, rfl⟩
    simpa [hid] using hp

/-- What `admit` that returned did. -/
inductive AdmitEffect (input : MakerAdmission) (runId : String) (outboxId : Nat) (s : MakerStore) :
    String → MakerStore → Prop
  | redelivered {row : MakerRevalidationRun} (hrow : row ∈ s.runs)
      (hjob : row.sourceJobId = input.jobId) :
      AdmitEffect input runId outboxId s row.runId s
  | inserted {payload : OrderUpdateByMakerPayload} {scopeKey : Option MakerScopeKey}
      (hpayload : canonicalMakerRequest input.payload = .ok payload)
      (hnew : ∀ row ∈ s.runs, row.sourceJobId ≠ input.jobId) :
      AdmitEffect input runId outboxId s runId { s with
          runs := s.runs.insertOrIgnore (.ofRequest runId input.jobId payload scopeKey
            (input.demandAt.getD input.now) input.now (captureMakerPass s.db)) }
  | represented {row : MakerRevalidationRun} {payload : OrderUpdateByMakerPayload} {requiredAt : Nat}
      (hrow : row ∈ s.runs) (hpayload : canonicalMakerRequest input.payload = .ok payload)
      (hdemand : input.demandAt = some requiredAt)
      (hadvances : advancesMakerDemand row payload requiredAt = false) :
      AdmitEffect input runId outboxId s row.runId s
  | joined {row : MakerRevalidationRun} {payload requested : OrderUpdateByMakerPayload}
      {requiredAt : Nat} (hrow : row ∈ s.runs)
      (hpayload : canonicalMakerRequest input.payload = .ok payload)
      (hdemand : input.demandAt = some requiredAt)
      (hmerge : mergeMakerRequirements row payload requiredAt = .ok requested) :
      AdmitEffect input runId outboxId s row.runId (s.updateRun row.runId (fun _ => true)
          (fun r => r.admitted requested requiredAt (captureMakerPass s.db) input.now outboxId)
          (fun r => r.runId_admitted requested requiredAt (captureMakerPass s.db) input.now outboxId))

theorem insertRun_eq {jobId : String} {payload : OrderUpdateByMakerPayload}
    {scopeKey : Option MakerScopeKey} {requiredAt : Nat}
    (h : Tx.Returns (insertRun runId jobId payload scopeKey requiredAt now) s id s') :
    id = runId ∧ s' = { s with
        runs := s.runs.insertOrIgnore
          (.ofRequest runId jobId payload scopeKey requiredAt now (captureMakerPass s.db)) } := by
  simp only [insertRun, Tx.returns_bind, Tx.returns_modify, Tx.returns_pure] at h
  obtain ⟨_, _, rfl, rfl, rfl⟩ := h
  exact ⟨rfl, rfl⟩

theorem admitMaker_effect {input : MakerAdmission}
    (h : Tx.Returns (admitMaker input runId outboxId) s id s') :
    AdmitEffect input runId outboxId s id s' := by
  simp only [admitMaker, Tx.returns_writeTransaction, Tx.returns_bind, Tx.returns_throwIf,
    Tx.returns_get, Tx.returns_check] at h
  obtain ⟨_, _, ⟨-, rfl⟩, _, _, ⟨rfl, rfl⟩, payload, _, ⟨hpayload, rfl⟩, h⟩ := h
  cases hsource : s.runs.rows.find? (fun r => r.sourceJobId = input.jobId) with
  | some row =>
    simp only [hsource, Tx.returns_bind, Tx.returns_throwIf, Tx.returns_pure] at h
    obtain ⟨_, _, ⟨-, rfl⟩, rfl, rfl⟩ := h
    exact .redelivered (List.mem_of_find?_eq_some hsource) (by simpa using List.find?_some hsource)
  | none =>
    have hnew : ∀ row ∈ s.runs, row.sourceJobId ≠ input.jobId := by
      intro row hrow
      simpa using List.find?_eq_none.mp hsource row hrow
    simp only [hsource] at h
    cases hdemand : input.demandAt with
    | none =>
      rw [hdemand] at h
      obtain ⟨rfl, rfl⟩ := insertRun_eq h
      have heffect := @AdmitEffect.inserted input id outboxId s payload none hpayload hnew
      rw [hdemand] at heffect
      exact heffect
    | some requiredAt =>
      simp only [hdemand] at h
      cases hscope : s.runs.rows.find? (fun r => r.scopeKey =
          some (makerValidationScopeKey payload s.db.revision)) with
      | none =>
        simp only [hscope] at h
        obtain ⟨rfl, rfl⟩ := insertRun_eq h
        have heffect := @AdmitEffect.inserted input id outboxId s payload
          (some (makerValidationScopeKey payload s.db.revision)) hpayload hnew
        rw [hdemand] at heffect
        exact heffect
      | some row =>
        have hrow : row ∈ s.runs := List.mem_of_find?_eq_some hscope
        simp only [hscope, joinRun, Tx.returns_bind, Tx.returns_ite, Tx.returns_check,
          Tx.returns_modify, Tx.returns_pure] at h
        obtain ⟨_, _, hjoin, rfl, rfl⟩ := h
        rcases hjoin with ⟨-, requested, _, ⟨hmerge, rfl⟩, rfl⟩ | ⟨hno, -, rfl⟩
        · exact .joined hrow hpayload hdemand hmerge
        · exact .represented hrow hpayload hdemand (by simpa using hno)

/-- What `checkpoint` that returned did. -/
inductive CheckpointEffect (c : MakerCheckpoint) (now nowSeconds outboxId : Nat) (s : MakerStore) :
    MakerRevalidationRun → MakerStore → Prop
  | mk {current : MakerRevalidationRun} {out : OrderId × Nat} {db' : Db}
      (hcurrent : s.runs.get? c.run.runId = some current)
      (hfences : current.fences c.run now = true)
      (horders : Tx.Returns (applyCheckpoint (c.run.pass current) c.run.afterId c.resolutions
        c.evidence now nowSeconds) s.db out db') :
      CheckpointEffect c now nowSeconds outboxId s
        (current.checkpointed c out.1 out.2 (captureMakerPass db') now outboxId)
        (({ s with db := db' } : MakerStore).updateRun c.run.runId (fun _ => true)
          (fun r => r.checkpointed c out.1 out.2 (captureMakerPass db') now outboxId)
          (fun r => r.runId_checkpointed c out.1 out.2 (captureMakerPass db') now outboxId))

theorem checkpointMaker_effect {c : MakerCheckpoint} {nowSeconds : Nat}
    {run : MakerRevalidationRun}
    (h : Tx.Returns (checkpointMaker c now nowSeconds outboxId) s run s') :
    CheckpointEffect c now nowSeconds outboxId s run s' := by
  simp only [checkpointMaker, Tx.returns_writeTransaction, Tx.returns_bind, Tx.returns_get] at h
  obtain ⟨_, _, ⟨rfl, rfl⟩, h⟩ := h
  cases hcurrent : (s.runs.get? c.run.runId).filter (fun current => current.fences c.run now) with
  | none =>
    rw [hcurrent] at h
    exact absurd h (by simp)
  | some current =>
    obtain ⟨hrow, hfences⟩ := Option.filter_eq_some_iff.mp hcurrent
    simp only [hcurrent, Tx.returns_bind, Tx.returns_zoom, Tx.returns_get, Tx.returns_set,
      Tx.returns_pure] at h
    obtain ⟨out, _, ⟨db', horders, rfl⟩, _, _, ⟨rfl, rfl⟩, _, _, rfl, rfl, rfl⟩ := h
    exact .mk hrow hfences horders

end Artgod.Indexer
