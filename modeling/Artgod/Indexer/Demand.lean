/-
# Validation demand

`order_validation_demand` holds one row for each order that was ever asked to be validated
(`sqlite-order-validation-demand.ts`, `domain/order-validation-demand.ts`).  `generation` counts the changes of
the requirement, and the lease columns say which claim may complete the row.  `DemandRow.Follows` is what every
operation but a claim does to a row: it never takes a requirement back.
-/
import Artgod.Indexer.Orders

namespace Artgod.Indexer

open Store

/-! ## 1. Requests and proofs -/

structure OrderValidationRequest where
  orderId : OrderId
  requiredAt : Nat
  minimumBlock : Option Nat
deriving DecidableEq

/-- `OrderValidationEvidence`: when and at which block a snapshot was read, and the chain revision
it was read under. -/
structure OrderValidationEvidence where
  observedAt : Nat
  blockNumber : Nat
  checkpoint : ChainSyncCheckpoint

structure ClaimedOrderValidation where
  demand : DemandRow
  candidate : OrderValidationCandidate
deriving DecidableEq

structure OrderValidationCompletion where
  claim : ClaimedOrderValidation
  status : OrderStatus

/-- `ORDER_VALIDATION_DEMAND_OUTCOME`. -/
inductive OrderValidationOutcome where
  | unneeded
  | covered
  | pending
deriving DecidableEq

structure OrderValidationClaimBatch where
  claims : List ClaimedOrderValidation
  scanned : Nat
  resolvedUnneeded : Nat
  oldestRequiredAt : Option Nat

structure OrderValidationCompletionCounts where
  applied : Nat
  covered : Nat
  resolvedUnneeded : Nat
  followup : Nat
  lostClaims : Nat

structure OrderValidationDemandPolicy where
  leaseMs : Nat
  batchOrders : Nat
  retryBaseMs : Nat
  retryMaxMs : Nat
  isolateAfterFailures : Nat

def orderValidationDemandPolicy : OrderValidationDemandPolicy where
  leaseMs := 120000
  batchOrders := 100
  retryBaseMs := 1000
  retryMaxMs := 60000
  isolateAfterFailures := 2

/-- `validationProofSatisfies`, for a request or for the requirement of a row. -/
def validationProofSatisfies (proof : OrderValidationEvidence) (requiredAt : Nat)
    (minimumBlock : Option Nat) : Bool :=
  requiredAt ≤ proof.observedAt && minimumBlock.all (fun b => decide (b ≤ proof.blockNumber))

def validationProofCovers (demand : DemandRow) (revision : Nat) (request : OrderValidationRequest)
    (chainRevision : Nat) : Bool :=
  demand.proofRevision = some revision && demand.proofChainRevision = some chainRevision &&
    demand.proofAt.any (fun at_ => decide (request.requiredAt ≤ at_)) &&
    demand.proofBlock.any (fun block => request.minimumBlock.all (fun b => decide (b ≤ block)))

def advancesValidationDemand (current : DemandRow) (revision : Nat)
    (request : OrderValidationRequest) : Bool :=
  !current.pending || current.revision ≠ revision ||
    (request.minimumBlock = none && !current.anchorIndependent) ||
    current.requiredAt < request.requiredAt ||
    request.minimumBlock.any (fun b => current.minimumBlock.all (fun m => decide (m < b)))

def assertOrderValidationRequest (request : OrderValidationRequest) : Except SyncError Unit :=
  if request.orderId = "" ∨ isSafeInteger request.requiredAt = false ∨
      (∃ b ∈ request.minimumBlock, isSafeInteger b = false) then
    .error (.error "Invalid order validation demand")
  else .ok ()

section

variable (row : DemandRow)

/-- The block that gates the row: an observation needs none. -/
def DemandRow.gate : Option Nat :=
  if row.anchorIndependent then none else row.minimumBlock

/-! ## 2. Operations -/

/-- Rewrite the row of an order if it satisfies `p`. -/
def Db.updateDemand (db : Db) (orderId : OrderId) (p : DemandRow → Bool)
    (f : DemandRow → DemandRow) (hf : ∀ r, (f r).orderId = r.orderId) : Db :=
  { db with demands := db.demands.updateWhere (fun r => r.orderId = orderId && p r) f hf }

def isCovered (db : Db) (request : OrderValidationRequest) (revision nowSeconds : Nat) : Bool :=
  (validationCandidate db request.orderId request.minimumBlock nowSeconds).any
      (fun c => decide (c.revision = revision)) &&
    (db.demands.get? request.orderId).any
      (fun current => validationProofCovers current revision request db.revision)

/-- The row that a first request inserts; the other columns have their defaults. -/
def DemandRow.ofRequest (request : OrderValidationRequest) (revision now : Nat) : DemandRow where
  orderId := request.orderId
  generation := 1
  revision := revision
  requiredAt := request.requiredAt
  minimumBlock := request.minimumBlock
  anchorIndependent := request.minimumBlock = none
  pending := true
  proofRevision := none
  proofAt := none
  proofBlock := none
  proofChainRevision := none
  leaseOwner := none
  leaseVersion := 0
  leaseUntil := 0
  failures := 0
  nextAttemptAt := 0
  lastError := none
  updatedAt := now

/-- `CASE WHEN ? IS NULL THEN minimum_block WHEN minimum_block IS NULL THEN ? ELSE MAX(..) END`. -/
def mergeMinimumBlock : Option Nat → Option Nat → Option Nat
  | stored, none => stored
  | none, some b => some b
  | some m, some b => some (max m b)

/-- The `UPDATE` of a request that asks for more than the row does. -/
def DemandRow.advance (request : OrderValidationRequest) (revision now : Nat) : DemandRow :=
  { row with
    generation := row.generation + 1
    revision := revision
    requiredAt := max row.requiredAt request.requiredAt
    minimumBlock := mergeMinimumBlock row.minimumBlock request.minimumBlock
    anchorIndependent := request.minimumBlock = none || (row.pending && row.anchorIndependent)
    pending := true
    nextAttemptAt := 0
    updatedAt := now }

theorem DemandRow.orderId_advance (row : DemandRow) (request : OrderValidationRequest)
    (revision now : Nat) : (row.advance request revision now).orderId = row.orderId := rfl

/-- The transaction of `admit`. -/
def admitDemand (request : OrderValidationRequest) (now nowSeconds : Nat) (db : Db) :
    OrderValidationOutcome × Db :=
  match validationCandidate db request.orderId request.minimumBlock nowSeconds with
  | none => (.unneeded, db)
  | some candidate =>
    match db.demands.get? request.orderId with
    | none =>
      (.pending, { db with
        demands := db.demands.insertOrIgnore (.ofRequest request candidate.revision now) })
    | some current =>
      if isCovered db request candidate.revision nowSeconds then (.covered, db)
      else if advancesValidationDemand current candidate.revision request then
        (.pending, db.updateDemand request.orderId (fun _ => true)
          (fun r => r.advance request candidate.revision now)
          (fun r => r.orderId_advance request candidate.revision now))
      else (.pending, db)

/-- `admit`. -/
def admitRequest (request : OrderValidationRequest) (now nowSeconds : Nat) :
    StoreM OrderValidationOutcome := do
  Tx.check (assertOrderValidationRequest request)
  Tx.writeTransaction (modifyGet (admitDemand request now nowSeconds))

/-- The `UPDATE` of `defer`: retry this failure alone, keep the requirement and the lease. -/
def DemandRow.deferred (error : String) (now : Nat) : DemandRow :=
  { row with
    failures := max row.failures orderValidationDemandPolicy.isolateAfterFailures
    nextAttemptAt := max row.nextAttemptAt (now + orderValidationDemandPolicy.retryBaseMs)
    lastError := some error
    updatedAt := now }

theorem DemandRow.orderId_deferred (row : DemandRow) (error : String) (now : Nat) :
    (row.deferred error now).orderId = row.orderId := rfl

def defer (request : OrderValidationRequest) (error : String) (now nowSeconds : Nat) :
    StoreM OrderValidationOutcome :=
  Tx.writeTransaction do
    let outcome ← admitRequest request now nowSeconds
    if outcome = .pending then
      modify (fun db => db.updateDemand request.orderId (fun _ => true)
        (fun r => r.deferred error now) (fun r => r.orderId_deferred error now))
    return outcome

/-- `ORDER BY next_attempt_at, lease_until, updated_at, order_id`. -/
def DemandRow.duePosition (r : DemandRow) : Nat ×ₗ Nat ×ₗ Nat ×ₗ String :=
  toLex (r.nextAttemptAt, toLex (r.leaseUntil, toLex (r.updatedAt, r.orderId)))

/-- The due rows of one tick; a repeatedly failed row is retried alone. -/
def dueRows (db : Db) (now : Nat) : List DemandRow :=
  let due :=
    ((db.demands.select (fun r => r.pending && r.nextAttemptAt ≤ now && r.leaseUntil ≤ now)).insertionSort
      (fun r s => r.duePosition ≤ s.duePosition)).take orderValidationDemandPolicy.batchOrders
  match due.findIdx? (fun r => orderValidationDemandPolicy.isolateAfterFailures ≤ r.failures) with
  | none => due
  | some retry => due.take (max 1 retry)

/-- The row after `claimBatch` found nothing to validate. -/
def DemandRow.unneeded (now : Nat) : DemandRow :=
  { row with
    pending := false, leaseOwner := none, leaseUntil := 0, proofRevision := none
    proofAt := none, proofBlock := none, updatedAt := now }

theorem DemandRow.orderId_unneeded (row : DemandRow) (now : Nat) :
    (row.unneeded now).orderId = row.orderId := rfl

/-- The row after `claimBatch` leased it. -/
def DemandRow.claimed (revision : Nat) (owner : String) (now : Nat) : DemandRow :=
  { row with
    generation := row.generation + if row.revision ≠ revision then 1 else 0
    revision := revision
    leaseOwner := some owner
    leaseVersion := row.leaseVersion + 1
    leaseUntil := now + orderValidationDemandPolicy.leaseMs
    updatedAt := now }

theorem DemandRow.orderId_claimed (row : DemandRow) (revision : Nat) (owner : String) (now : Nat) :
    (row.claimed revision owner now).orderId = row.orderId := rfl

/-- One iteration of `claimBatch`. -/
def claimRow (owner : String) (now nowSeconds : Nat) (db : Db) (row : DemandRow) :
    Option ClaimedOrderValidation × Db :=
  match validationCandidate db row.orderId row.gate nowSeconds with
  | none =>
    (none, db.updateDemand row.orderId (fun _ => true) (fun r => r.unneeded now)
      (fun r => r.orderId_unneeded now))
  | some candidate =>
    let db' := db.updateDemand row.orderId (fun _ => true) (fun r => r.claimed candidate.revision owner now)
      (fun r => r.orderId_claimed candidate.revision owner now)
    ((db'.demands.get? row.orderId).map (fun demand => ⟨demand, candidate⟩), db')

/-- The loop of `claimBatch`. -/
def claimRows (owner : String) (now nowSeconds : Nat) :
    List DemandRow → Db → List ClaimedOrderValidation × Db
  | [], db => ([], db)
  | row :: rest, db =>
    let step := claimRow owner now nowSeconds db row
    let out := claimRows owner now nowSeconds rest step.2
    (step.1.toList ++ out.1, out.2)

def claimBatch (owner : String) (now nowSeconds : Nat) : StoreM OrderValidationClaimBatch :=
  Tx.writeTransaction (modifyGet (fun db =>
    let rows := dueRows db now
    let out := claimRows owner now nowSeconds rows db
    ({ claims := out.1
       scanned := rows.length
       resolvedUnneeded := rows.length - out.1.length
       oldestRequiredAt := (rows.map (·.requiredAt)).min? }, out.2)))

/-- The row is leased to the claim and the lease has not expired. -/
def DemandRow.leasedTo (claim : ClaimedOrderValidation) (now : Nat) : Bool :=
  row.leaseOwner = claim.demand.leaseOwner && row.leaseOwner ≠ none &&
    row.leaseVersion = claim.demand.leaseVersion && now < row.leaseUntil

/-- Rewrite the row that is leased to the claim; the first component says whether it was. -/
def updateLeased (claim : ClaimedOrderValidation) (now : Nat) (f : DemandRow → DemandRow)
    (hf : ∀ r, (f r).orderId = r.orderId) (db : Db) : Bool × Db :=
  ((db.demands.get? claim.demand.orderId).any (fun r => r.leasedTo claim now),
    db.updateDemand claim.demand.orderId (fun r => r.leasedTo claim now) f hf)

def DemandRow.renewed (now : Nat) : DemandRow :=
  { row with leaseUntil := now + orderValidationDemandPolicy.leaseMs }

theorem DemandRow.orderId_renewed (row : DemandRow) (now : Nat) :
    (row.renewed now).orderId = row.orderId := rfl

def renew (claim : ClaimedOrderValidation) (now : Nat) : StoreM Bool :=
  modifyGet (updateLeased claim now (fun r => r.renewed now) (fun r => r.orderId_renewed now))

/-- Rewrite the rows leased to the claims, and count them. -/
def updateAllLeased (now : Nat) (f : ClaimedOrderValidation → DemandRow → DemandRow)
    (hf : ∀ claim r, (f claim r).orderId = r.orderId) :
    List ClaimedOrderValidation → Db → Nat × Db
  | [], db => (0, db)
  | claim :: rest, db =>
    let step := updateLeased claim now (f claim) (hf claim) db
    let out := updateAllLeased now f hf rest step.2
    ((if step.1 then 1 else 0) + out.1, out.2)

def DemandRow.released (now : Nat) : DemandRow :=
  { row with leaseOwner := none, leaseUntil := 0, updatedAt := now }

theorem DemandRow.orderId_released (row : DemandRow) (now : Nat) :
    (row.released now).orderId = row.orderId := rfl

def release (claims : List ClaimedOrderValidation) (now : Nat) : StoreM Nat :=
  Tx.writeTransaction (modifyGet (updateAllLeased now (fun _ r => r.released now)
    (fun _ r => r.orderId_released now) claims))

/-- The delay before the next attempt. -/
def retryMs (failures : Nat) : Nat :=
  min orderValidationDemandPolicy.retryMaxMs
    (orderValidationDemandPolicy.retryBaseMs * 2 ^ min (failures - 1) 16)

/-- The `UPDATE` of `failClaim`. -/
def DemandRow.failed (claim : ClaimedOrderValidation) (error : String) (now : Nat) : DemandRow :=
  { row with
    leaseOwner := none, leaseUntil := 0, failures := row.failures + 1
    lastError := some (error.take 1000).toString
    nextAttemptAt := now + retryMs (claim.demand.failures + 1), updatedAt := now }

theorem DemandRow.orderId_failed (row : DemandRow) (claim : ClaimedOrderValidation)
    (error : String) (now : Nat) : (row.failed claim error now).orderId = row.orderId := rfl

def fail (claims : List ClaimedOrderValidation) (error : String) (now : Nat) : StoreM Nat :=
  Tx.writeTransaction (modifyGet (updateAllLeased now (fun claim r => r.failed claim error now)
    (fun claim r => r.orderId_failed claim error now) claims))

def owns (current : DemandRow) (claim : ClaimedOrderValidation) (now : Nat) : Bool :=
  current.pending && current.leaseOwner = claim.demand.leaseOwner &&
    current.leaseVersion = claim.demand.leaseVersion && now < current.leaseUntil

/-- `applyDemandValidation`: the revision the result leaves, and the orders with it. -/
def applyDemandValidation (db : Db) (completion : OrderValidationCompletion) (nowSeconds : Nat) :
    Option (Nat × Table OrderRow.id) :=
  match validationCandidate db completion.claim.demand.orderId completion.claim.demand.gate nowSeconds with
  | none => none
  | some current =>
    if current.revision = completion.claim.candidate.revision then
      let orders := applyValidation current.order completion.status nowSeconds db.orders
      (orders.get? completion.claim.demand.orderId).map (fun updated =>
        (updated.stateRevision, orders))
    else none

/-- The `UPDATE` of `completeBatch`. -/
def DemandRow.completed (revision : Option Nat) (proof : OrderValidationEvidence)
    (pending : Bool) (now : Nat) : DemandRow :=
  { row with
    pending := pending
    revision := revision.getD row.revision
    proofRevision := revision
    proofAt := revision.map (fun _ => proof.observedAt)
    proofBlock := revision.map (fun _ => proof.blockNumber)
    proofChainRevision := revision.map (fun _ => proof.checkpoint.revision)
    leaseOwner := none
    leaseUntil := 0
    failures := 0
    lastError := none
    nextAttemptAt := 0
    updatedAt := now }

theorem DemandRow.orderId_completed (row : DemandRow) (revision : Option Nat)
    (proof : OrderValidationEvidence) (pending : Bool) (now : Nat) :
    (row.completed revision proof pending now).orderId = row.orderId := rfl

/-- One iteration of `completeBatch`. -/
def completeOne (proof : OrderValidationEvidence) (now nowSeconds : Nat)
    (completion : OrderValidationCompletion) (counts : OrderValidationCompletionCounts) :
    StoreM OrderValidationCompletionCounts := do
  let db ← get
  let claim := completion.claim
  match (db.demands.get? claim.demand.orderId).filter (fun current => owns current claim now) with
  | none => return { counts with lostClaims := counts.lostClaims + 1 }
  | some current =>
    Tx.throwIf (validationProofSatisfies proof claim.demand.requiredAt claim.demand.minimumBlock =
        false) (.error "Validation snapshot does not cover captured demand")
    let applied := applyDemandValidation db completion nowSeconds
    let revision := applied.map Prod.fst
    let orders := (applied.map Prod.snd).getD db.orders
    -- a terminal change resolves the demand now, a changed revision must stay pending
    let unneeded := revision.isNone &&
      (validationCandidate { db with orders := orders } claim.demand.orderId current.gate
        nowSeconds).isNone
    let pending := !unneeded && (revision.isNone || current.generation ≠ claim.demand.generation)
    set (({ db with orders := orders } : Db).updateDemand claim.demand.orderId (fun _ => true)
      (fun r => r.completed revision proof pending now)
      (fun r => r.orderId_completed revision proof pending now))
    return {
      applied := counts.applied + if revision.isSome then 1 else 0
      covered := counts.covered + if !unneeded && !pending then 1 else 0
      resolvedUnneeded := counts.resolvedUnneeded + if unneeded then 1 else 0
      followup := counts.followup + if !unneeded && pending then 1 else 0
      lostClaims := counts.lostClaims }

/-- The loop of `completeBatch`. -/
def completeAll (proof : OrderValidationEvidence) (now nowSeconds : Nat) :
    List OrderValidationCompletion → OrderValidationCompletionCounts →
      StoreM OrderValidationCompletionCounts
  | [], counts => pure counts
  | completion :: rest, counts => do
    let counts' ← completeOne proof now nowSeconds completion counts
    completeAll proof now nowSeconds rest counts'

def completeBatch (completions : List OrderValidationCompletion) (proof : OrderValidationEvidence)
    (now nowSeconds : Nat) : StoreM OrderValidationCompletionCounts :=
  Tx.writeTransaction do
    assertSyncCheckpoint proof.checkpoint
    completeAll proof now nowSeconds completions ⟨0, 0, 0, 0, 0⟩

/-- The row that `recordValidation` writes over a stored one. -/
def DemandRow.recorded (revision : Nat) (evidence : OrderValidationEvidence) (now : Nat) : DemandRow :=
  { row with
    revision := revision
    pending := row.pending && !validationProofSatisfies evidence row.requiredAt row.minimumBlock
    proofRevision := some revision
    proofAt := some evidence.observedAt
    proofBlock := some evidence.blockNumber
    proofChainRevision := some evidence.checkpoint.revision
    leaseOwner := none
    leaseUntil := 0
    failures := 0
    lastError := none
    nextAttemptAt := 0
    updatedAt := now }

end

theorem DemandRow.orderId_recorded (row : DemandRow) (revision : Nat)
    (evidence : OrderValidationEvidence) (now : Nat) :
    (row.recorded revision evidence now).orderId = row.orderId := rfl

def recordValidation (request : OrderValidationRequest) (revision : Nat)
    (evidence : OrderValidationEvidence) (now : Nat) : StoreM Unit := do
  assertSyncCheckpoint evidence.checkpoint
  Tx.throwIf (validationProofSatisfies evidence request.requiredAt request.minimumBlock = false)
    (.error "Validation does not cover maker requirement")
  modify (fun db =>
    { db with
      demands := db.demands.upsert
        ({ DemandRow.ofRequest request revision now with pending := false }.recorded revision
          evidence now)
        (fun row => row.recorded revision evidence now)
        (fun row => row.orderId_recorded revision evidence now) })

/-! ## 3. The orders of a maker checkpoint -/

inductive MakerValidationCheckpointEntry where
  | resolved (candidate : MakerValidationCandidate) (validation : Option OrderStatus)
  | covered (candidate : MakerValidationCandidate)
  | deferred (candidate : MakerValidationCandidate) (error : String)

def MakerValidationCheckpointEntry.candidate : MakerValidationCheckpointEntry → MakerValidationCandidate
  | .resolved candidate _ => candidate
  | .covered candidate => candidate
  | .deferred candidate _ => candidate

/-- What the entries of a checkpoint read of the run: the block that triggered the pass, or the
time it must be observed at; the last order of the pass; and the isolated order. -/
structure MakerPass where
  blockNumber : Option Nat
  observedAt : Nat
  upperOrderId : OrderId
  isolateOrderId : Option OrderId

/-- `validationRequest`: an event asks for its block, an observation for its time. -/
def MakerPass.validationRequest (pass : MakerPass) (orderId : OrderId) : OrderValidationRequest :=
  match pass.blockNumber with
  | none => ⟨orderId, pass.observedAt, none⟩
  | some b => ⟨orderId, 0, some b⟩

/-- One entry of a checkpoint; the result counts the orders handed to demand. -/
def checkpointEntry (pass : MakerPass) (alone : Bool) (evidence : Option OrderValidationEvidence)
    (now nowSeconds : Nat) : MakerValidationCheckpointEntry → StoreM Nat
  | .deferred candidate error => do
    Tx.throwIf (alone = false ∨ pass.isolateOrderId ≠ some candidate.order.id ∨
        candidate.currentAtTrigger = false)
      (.makerRevalidationConflict "Maker handoff requires its isolated candidate")
    let outcome ← defer (pass.validationRequest candidate.order.id) error now nowSeconds
    return if outcome = .pending then 1 else 0
  | .covered candidate => do
    let db ← get
    Tx.throwIf (isCovered db (pass.validationRequest candidate.order.id) candidate.revision
        nowSeconds = false)
      (.makerRevalidationConflict "Maker validation coverage changed")
    return 0
  | .resolved candidate validation => do
    Tx.throwIf (validation ≠ none ∧ evidence = none)
      (.makerRevalidationConflict "Maker validation evidence is required")
    let revision ← applyMakerResolution pass.blockNumber candidate validation nowSeconds
    match revision, evidence with
    | some revision, some evidence =>
      recordValidation (pass.validationRequest candidate.order.id) revision evidence now
    | _, _ => pure ()
    return 0

/-- The loop over the entries, in increasing order of their ids: the last id and the number of
orders handed to demand. -/
def checkpointEntries (pass : MakerPass) (alone : Bool) (evidence : Option OrderValidationEvidence)
    (now nowSeconds : Nat) :
    OrderId → Nat → List MakerValidationCheckpointEntry → StoreM (OrderId × Nat)
  | afterId, deferred, [] => pure (afterId, deferred)
  | afterId, deferred, entry :: rest => do
    Tx.throwIf (entry.candidate.order.id ≤ afterId ∨ pass.upperOrderId < entry.candidate.order.id)
      (.makerRevalidationConflict "Maker checkpoint candidates are out of order")
    let handed ← checkpointEntry pass alone evidence now nowSeconds entry
    checkpointEntries pass alone evidence now nowSeconds entry.candidate.order.id (deferred + handed) rest

/-- The part of a checkpoint that writes orders and demands. -/
def applyCheckpoint (pass : MakerPass) (afterId : OrderId)
    (resolutions : List MakerValidationCheckpointEntry) (evidence : Option OrderValidationEvidence)
    (now nowSeconds : Nat) : StoreM (OrderId × Nat) := do
  match evidence with
  | some e => assertSyncCheckpoint e.checkpoint
  | none => pure ()
  checkpointEntries pass (resolutions.length = 1) evidence now nowSeconds afterId 0 resolutions

/-! ## 4. What an operation does to a row -/

/-- The requirement of `row'` is at least that of `row`. -/
structure DemandRow.Requires (row row' : DemandRow) : Prop where
  requiredAt : row.requiredAt ≤ row'.requiredAt
  minimumBlock : ∀ b ∈ row.minimumBlock, ∃ b' ∈ row'.minimumBlock, b ≤ b'
  anchorIndependent : row.anchorIndependent = true → row'.anchorIndependent = true

/-- A row after an operation that claims nothing. -/
structure DemandRow.Follows (row row' : DemandRow) : Prop where
  lease : row'.leaseOwner = none ∨ row'.leaseOwner = row.leaseOwner ∧ row'.leaseVersion = row.leaseVersion
  generation : row.generation ≤ row'.generation
  unchanged : row'.generation = row.generation →
    row'.requiredAt = row.requiredAt ∧ row'.minimumBlock = row.minimumBlock
  requires : row.pending = true → row'.pending = true → row.Requires row'

variable {db db' db₁ db₂ db₃ : Db} {n now nowSeconds revision : Nat}
  {request : OrderValidationRequest} {proof : OrderValidationEvidence} {row row' : DemandRow}
  {completion : OrderValidationCompletion} {pass : MakerPass}
  {evidence : Option OrderValidationEvidence} {id orderId : OrderId} {f : DemandRow → DemandRow}
  {p : DemandRow → Bool}

theorem DemandRow.Requires.of_eq (ht : row'.requiredAt = row.requiredAt)
    (hb : row'.minimumBlock = row.minimumBlock)
    (ha : row'.anchorIndependent = row.anchorIndependent) : row.Requires row' := by
  refine ⟨Nat.le_of_eq ht.symm, fun b hmem => ⟨b, ?_, Nat.le_refl b⟩, fun h => ?_⟩
  · rw [hb]
    exact hmem
  · rw [ha]
    exact h

variable {hf : ∀ r, (f r).orderId = r.orderId} {r₁ r₂ r₃ : DemandRow}
  {outcome : OrderValidationOutcome} {error : String} {claims : List ClaimedOrderValidation}
  {counts : OrderValidationCompletionCounts} {alone : Bool} {entry : MakerValidationCheckpointEntry}
  {afterId : OrderId} {resolutions : List MakerValidationCheckpointEntry} {out : OrderId × Nat}

theorem DemandRow.Requires.trans (h₁ : r₁.Requires r₂) (h₂ : r₂.Requires r₃) : r₁.Requires r₃ := by
  refine ⟨Nat.le_trans h₁.requiredAt h₂.requiredAt, ?_, ?_⟩
  · intro b hb
    obtain ⟨b', hb', hle⟩ := h₁.minimumBlock b hb
    obtain ⟨b'', hb'', hle'⟩ := h₂.minimumBlock b' hb'
    exact ⟨b'', hb'', Nat.le_trans hle hle'⟩
  · exact fun h => h₂.anchorIndependent (h₁.anchorIndependent h)

theorem DemandRow.Follows.of_eq (hlease : row'.leaseOwner = none ∨
      row'.leaseOwner = row.leaseOwner ∧ row'.leaseVersion = row.leaseVersion)
    (hg : row'.generation = row.generation) (ht : row'.requiredAt = row.requiredAt)
    (hb : row'.minimumBlock = row.minimumBlock)
    (ha : row'.anchorIndependent = row.anchorIndependent) : row.Follows row' :=
  ⟨hlease, Nat.le_of_eq hg.symm, fun _ => ⟨ht, hb⟩, fun _ _ => .of_eq ht hb ha⟩

theorem DemandRow.Follows.refl (row : DemandRow) : row.Follows row :=
  .of_eq (Or.inr ⟨rfl, rfl⟩) rfl rfl rfl rfl

theorem DemandRow.follows_advance (row : DemandRow) (request : OrderValidationRequest)
    (revision now : Nat) : row.Follows (row.advance request revision now) where
  lease := Or.inr ⟨rfl, rfl⟩
  generation := Nat.le_succ _
  unchanged h := absurd h (Nat.succ_ne_self _)
  requires hpending _ := by
    refine ⟨Nat.le_max_left _ _, fun b hb => ?_, fun ha => ?_⟩
    · rw [Option.mem_def] at hb
      cases hr : request.minimumBlock with
      | none => exact ⟨b, by simp [advance, mergeMinimumBlock, hr, hb], Nat.le_refl b⟩
      | some m =>
        exact ⟨max b m, by simp [advance, mergeMinimumBlock, hr, hb], Nat.le_max_left _ _⟩
    · simp [advance, hpending, ha]

/-- The row asks for at least what the request does. -/
structure DemandRow.Covers (row : DemandRow) (request : OrderValidationRequest) : Prop where
  requiredAt : request.requiredAt ≤ row.requiredAt
  minimumBlock : ∀ b ∈ request.minimumBlock, ∃ b' ∈ row.minimumBlock, b ≤ b'
  anchorIndependent : request.minimumBlock = none → row.anchorIndependent = true

theorem DemandRow.Covers.mono (h : row.Covers request) (hr : row.Requires row') : row'.Covers request := by
  refine ⟨Nat.le_trans h.requiredAt hr.requiredAt, fun b hb => ?_, fun hn => ?_⟩
  · obtain ⟨b', hb', hle⟩ := h.minimumBlock b hb
    obtain ⟨b'', hb'', hle'⟩ := hr.minimumBlock b' hb'
    exact ⟨b'', hb'', Nat.le_trans hle hle'⟩
  · exact hr.anchorIndependent (h.anchorIndependent hn)

theorem DemandRow.Covers.satisfied (h : row.Covers request)
    (hproof : validationProofSatisfies proof row.requiredAt row.minimumBlock = true) :
    validationProofSatisfies proof request.requiredAt request.minimumBlock = true := by
  simp only [validationProofSatisfies, Bool.and_eq_true, decide_eq_true_eq, Option.all_eq_true]
    at hproof ⊢
  refine ⟨Nat.le_trans h.requiredAt hproof.1, fun b hb => ?_⟩
  obtain ⟨b', hb', hle⟩ := h.minimumBlock b hb
  exact Nat.le_trans hle (hproof.2 b' hb')

theorem DemandRow.Covers.unneeded (h : row.Covers request)
    (hnone : validationCandidate db request.orderId row.gate nowSeconds = none) :
    validationCandidate db request.orderId request.minimumBlock nowSeconds = none := by
  rw [validationCandidate] at hnone ⊢
  cases horder : db.orders.get? request.orderId with
  | none => rfl
  | some order =>
    simp only [horder] at hnone
    split at hnone
    · cases hnone
    next hnot =>
    refine if_neg (fun hneeds => hnot ?_)
    rw [Bool.and_eq_true] at hneeds ⊢
    refine ⟨hneeds.1, ?_⟩
    rw [gate]
    split
    · rfl
    next hgated =>
    -- a gated row has only requests that name a block, and its block is the highest
    cases hb : request.minimumBlock with
    | none => exact absurd (h.anchorIndependent hb) hgated
    | some b =>
      obtain ⟨b', hb', hle⟩ := h.minimumBlock b hb
      rw [Option.mem_def.mp hb']
      rw [hb] at hneeds
      exact canMutateCurrentStateForCollection_mono hle hneeds.2

theorem covers_ofRequest (request : OrderValidationRequest) (revision now : Nat) :
    (DemandRow.ofRequest request revision now).Covers request :=
  ⟨Nat.le_refl _, fun b hb => ⟨b, hb, Nat.le_refl b⟩, fun h => by simp [DemandRow.ofRequest, h]⟩

theorem covers_advance (row : DemandRow) (request : OrderValidationRequest) (revision now : Nat) :
    (row.advance request revision now).Covers request := by
  refine ⟨Nat.le_max_right _ _, fun b hb => ?_, fun h => by simp [DemandRow.advance, h]⟩
  rw [Option.mem_def] at hb
  cases hm : row.minimumBlock with
  | none => exact ⟨b, by simp [DemandRow.advance, mergeMinimumBlock, hb, hm], Nat.le_refl b⟩
  | some m =>
    exact ⟨max m b, by simp [DemandRow.advance, mergeMinimumBlock, hb, hm], Nat.le_max_right _ _⟩

theorem covers_of_not_advances (h : advancesValidationDemand row revision request = false) :
    row.pending = true ∧ row.Covers request := by
  simp only [advancesValidationDemand, Bool.or_eq_false_iff, Bool.not_eq_false', Bool.and_eq_false_iff,
    decide_eq_false_iff_not] at h
  obtain ⟨⟨⟨⟨hpending, -⟩, hanchor⟩, htime⟩, hblock⟩ := h
  refine ⟨hpending, by omega, fun b hb => ?_, fun hn => ?_⟩
  · rw [Option.mem_def] at hb
    rw [hb] at hblock
    cases hm : row.minimumBlock with
    | none => simp [hm] at hblock
    | some m =>
      simp only [hm, Option.any_some, Option.all_some, decide_eq_false_iff_not] at hblock
      exact ⟨m, rfl, by omega⟩
  · rcases hanchor with hsome | hindependent
    · exact absurd hn hsome
    · exact hindependent

/-! ## 5. Operations that keep every pending row -/

/-- The demand of an order before and after an operation that keeps it pending. -/
structure Keeps (before after : Option DemandRow) : Prop where
  kept : ∀ row ∈ before, ∃ row' ∈ after, row.Follows row' ∧ (row.pending = true → row'.pending = true)
  inserted : before = none → ∀ row' ∈ after, row'.leaseOwner = none

theorem Keeps.refl (o : Option DemandRow) : Keeps o o := by
  refine ⟨fun row hrow => ⟨row, hrow, .refl row, id⟩, ?_⟩
  rintro rfl row' hrow'
  cases hrow'

theorem DemandRow.Follows.trans (h₁ : r₁.Follows r₂) (h₂ : r₂.Follows r₃)
    (hpending : r₁.pending = true → r₂.pending = true) : r₁.Follows r₃ where
  lease := by
    rcases h₂.lease with hnone | ⟨howner, hversion⟩
    · exact Or.inl hnone
    · rw [howner, hversion]
      exact h₁.lease
  generation := Nat.le_trans h₁.generation h₂.generation
  unchanged h := by
    have hle₁ := h₁.generation
    have hle₂ := h₂.generation
    obtain ⟨ht₂, hb₂⟩ := h₂.unchanged (by omega)
    obtain ⟨ht₁, hb₁⟩ := h₁.unchanged (by omega)
    exact ⟨ht₂.trans ht₁, hb₂.trans hb₁⟩
  requires hp₁ hp₃ := (h₁.requires hp₁ (hpending hp₁)).trans (h₂.requires (hpending hp₁) hp₃)

theorem Keeps.trans {o₁ o₂ o₃ : Option DemandRow} (h₁ : Keeps o₁ o₂) (h₂ : Keeps o₂ o₃) :
    Keeps o₁ o₃ where
  kept row hrow := by
    obtain ⟨row₂, hrow₂, hf₁, hp₁⟩ := h₁.kept row hrow
    obtain ⟨row₃, hrow₃, hf₂, hp₂⟩ := h₂.kept row₂ hrow₂
    exact ⟨row₃, hrow₃, hf₁.trans hf₂ hp₁, fun h => hp₂ (hp₁ h)⟩
  inserted hnone row₃ hrow₃ := by
    cases hmid : o₂ with
    | none => exact h₂.inserted hmid row₃ hrow₃
    | some row₂ =>
      obtain ⟨row₃', hrow₃', hf, -⟩ := h₂.kept row₂ hmid
      rw [Option.mem_unique hrow₃ hrow₃']
      rcases hf.lease with h | ⟨h, -⟩
      · exact h
      · rw [h]
        exact h₁.inserted hnone row₂ hmid

theorem get?_updateDemand : (db.updateDemand orderId p f hf).demands.get? id =
      (db.demands.get? id).map (fun r => if id = orderId ∧ p r = true then f r else r) := by
  rw [Db.updateDemand, Table.get?_updateWhere]
  cases h : db.demands.get? id with
  | none => rfl
  | some r =>
    have hid : r.orderId = id := (Table.get?_eq_some.mp h).2
    simp [hid]

theorem get?_updateDemand_of_ne (hne : id ≠ orderId) :
    (db.updateDemand orderId p f hf).demands.get? id = db.demands.get? id := by
  rw [get?_updateDemand]
  cases db.demands.get? id <;> simp [hne]

theorem get?_updateDemand_self : (db.updateDemand orderId (fun _ => true) f hf).demands.get? orderId =
      (db.demands.get? orderId).map f := by
  rw [get?_updateDemand]
  simp

theorem keeps_updateDemand
    (h : ∀ r, r.Follows (f r) ∧ (r.pending = true → (f r).pending = true)) (id : OrderId) :
    Keeps (db.demands.get? id) ((db.updateDemand orderId p f hf).demands.get? id) := by
  rw [get?_updateDemand]
  constructor
  · intro row hrow
    refine ⟨_, Option.mem_map_of_mem _ hrow, ?_⟩
    split
    · exact h row
    · exact ⟨.refl row, fun hp => hp⟩
  · intro hnone row' hrow'
    rw [hnone] at hrow'
    cases hrow'

/-- The operation writes demands only, and keeps every pending one. -/
def KeepsDemands (db db' : Db) : Prop :=
  db' = { db with demands := db'.demands } ∧
    ∀ id, Keeps (db.demands.get? id) (db'.demands.get? id)

theorem KeepsDemands.refl (db : Db) : KeepsDemands db db := ⟨rfl, fun _ => .refl _⟩

theorem KeepsDemands.trans (h₁ : KeepsDemands db₁ db₂)
    (h₂ : KeepsDemands db₂ db₃) : KeepsDemands db₁ db₃ := by
  refine ⟨?_, fun id => (h₁.2 id).trans (h₂.2 id)⟩
  rw [h₂.1, h₁.1]

/-- **What a request leaves**: every pending row, and a pending row that covers it when it is
reported pending. -/
theorem admitDemand_effect (request : OrderValidationRequest) (now nowSeconds : Nat) (db : Db) :
    KeepsDemands db (admitDemand request now nowSeconds db).2 ∧
      (∀ id ≠ request.orderId, (admitDemand request now nowSeconds db).2.demands.get? id =
        db.demands.get? id) ∧
      ((admitDemand request now nowSeconds db).1 = .pending →
        ∃ row ∈ (admitDemand request now nowSeconds db).2.demands.get? request.orderId,
          row.pending = true ∧ row.Covers request) := by
  rw [admitDemand]
  cases hcandidate : validationCandidate db request.orderId request.minimumBlock nowSeconds with
  | none => exact ⟨.refl db, fun _ _ => rfl, fun h => absurd h (by simp)⟩
  | some candidate =>
    cases hcurrent : db.demands.get? request.orderId with
    | none =>
      simp only
      have hget : ∀ id, (db.demands.insertOrIgnore (.ofRequest request candidate.revision now)).get? id =
          if request.orderId = id then some (.ofRequest request candidate.revision now)
          else db.demands.get? id := by
        intro id
        rw [Table.get?_insertOrIgnore]
        split
        · next heq =>
          have heq' : request.orderId = id := heq
          rw [if_pos heq', ← heq', hcurrent]
          rfl
        · next hne =>
          have hne' : request.orderId ≠ id := hne
          rw [if_neg hne']
      refine ⟨⟨rfl, fun id => ?_⟩, fun id hne => ?_,
        fun _ => ⟨_, ?_, rfl, covers_ofRequest request candidate.revision now⟩⟩
      · rw [hget]
        split
        · next heq =>
          subst heq
          rw [hcurrent]
          refine ⟨fun row hrow => absurd hrow (by simp), fun _ row' hrow' => ?_⟩
          rw [← Option.some.inj hrow']
          rfl
        · exact .refl _
      · rw [hget, if_neg (fun h => hne h.symm)]
      · rw [hget, if_pos rfl]
        rfl
    | some current =>
      simp only
      split
      · exact ⟨.refl db, fun _ _ => rfl, fun h => absurd h (by simp)⟩
      split
      · refine ⟨⟨rfl, keeps_updateDemand (fun r => ⟨r.follows_advance _ _ _, fun _ => rfl⟩)⟩,
          fun id hne => get?_updateDemand_of_ne hne, fun _ => ?_⟩
        refine ⟨current.advance request candidate.revision now, ?_, rfl, covers_advance _ _ _ _⟩
        rw [get?_updateDemand_self, hcurrent]
        rfl
      · next hno =>
        obtain ⟨hpending, hcovers⟩ := covers_of_not_advances (Bool.not_eq_true _ ▸ hno)
        exact ⟨.refl db, fun _ _ => rfl, fun _ => ⟨current, hcurrent, hpending, hcovers⟩⟩

theorem admitRequest_effect (h : Tx.Returns (admitRequest request now nowSeconds) db outcome db') :
    KeepsDemands db db' ∧ (∀ id ≠ request.orderId, db'.demands.get? id = db.demands.get? id) ∧
      (outcome = .pending →
        ∃ row ∈ db'.demands.get? request.orderId, row.pending = true ∧ row.Covers request) := by
  simp only [admitRequest, Tx.returns_bind, Tx.returns_check, Tx.returns_writeTransaction,
    Tx.returns_modifyGet] at h
  obtain ⟨_, _, ⟨-, rfl⟩, h⟩ := h
  have := admitDemand_effect request now nowSeconds db
  rw [h] at this
  exact this

theorem DemandRow.follows_deferred (row : DemandRow) (error : String) (now : Nat) :
    row.Follows (row.deferred error now) :=
  .of_eq (Or.inr ⟨rfl, rfl⟩) rfl rfl rfl rfl

theorem defer_effect (h : Tx.Returns (defer request error now nowSeconds) db outcome db') :
    KeepsDemands db db' ∧ (∀ id ≠ request.orderId, db'.demands.get? id = db.demands.get? id) ∧
      (outcome = .pending →
        ∃ row ∈ db'.demands.get? request.orderId, row.pending = true ∧ row.Covers request) := by
  simp only [defer, Tx.returns_writeTransaction, Tx.returns_bind, Tx.returns_ite,
    Tx.returns_modify, Tx.returns_pure] at h
  obtain ⟨outcome', db₁, hadmit, hupdate⟩ := h
  obtain ⟨hkeeps, hframe, hcovers⟩ := admitRequest_effect hadmit
  rcases hupdate with ⟨-, _, _, rfl, rfl, rfl⟩ | ⟨-, rfl, rfl⟩
  · refine ⟨hkeeps.trans ⟨rfl, keeps_updateDemand (fun r => ⟨r.follows_deferred _ _, id⟩)⟩,
      fun id hne => (get?_updateDemand_of_ne hne).trans (hframe id hne), fun hp => ?_⟩
    obtain ⟨row, hrow, hpending, hrowcovers⟩ := hcovers hp
    refine ⟨row.deferred error now, ?_, hpending, hrowcovers.mono (.of_eq rfl rfl rfl)⟩
    rw [get?_updateDemand_self, hrow]
    rfl
  · exact ⟨hkeeps, hframe, hcovers⟩

theorem keepsDemands_updateLeased {claim : ClaimedOrderValidation} {now : Nat}
    {f : DemandRow → DemandRow} {hf : ∀ r, (f r).orderId = r.orderId}
    (h : ∀ r, r.Follows (f r) ∧ (r.pending = true → (f r).pending = true)) (db : Db) :
    KeepsDemands db (updateLeased claim now f hf db).2 :=
  ⟨rfl, keeps_updateDemand h⟩

theorem keepsDemands_updateAllLeased {now : Nat} {f : ClaimedOrderValidation → DemandRow → DemandRow}
    {hf : ∀ claim r, (f claim r).orderId = r.orderId}
    (h : ∀ claim r, r.Follows (f claim r) ∧ (r.pending = true → (f claim r).pending = true)) :
    ∀ (claims : List ClaimedOrderValidation) (db : Db),
      KeepsDemands db (updateAllLeased now f hf claims db).2
  | [], db => .refl db
  | claim :: rest, db =>
    (keepsDemands_updateLeased (h claim) db).trans (keepsDemands_updateAllLeased h rest _)

theorem renew_effect {claim : ClaimedOrderValidation} {b : Bool}
    (h : Tx.Returns (renew claim now) db b db') : KeepsDemands db db' := by
  rw [renew, Tx.returns_modifyGet] at h
  have hkeeps := @keepsDemands_updateLeased claim now (fun r => r.renewed now)
    (fun r => r.orderId_renewed now)
    (fun r => ⟨.of_eq (Or.inr ⟨rfl, rfl⟩) rfl rfl rfl rfl, fun hp => hp⟩) db
  rw [h] at hkeeps
  exact hkeeps

theorem release_effect (h : Tx.Returns (release claims now) db n db') : KeepsDemands db db' := by
  rw [release, Tx.returns_writeTransaction, Tx.returns_modifyGet] at h
  have hkeeps := @keepsDemands_updateAllLeased now (fun _ r => r.released now)
    (fun _ r => r.orderId_released now)
    (fun _ r => ⟨.of_eq (Or.inl rfl) rfl rfl rfl rfl, fun hp => hp⟩) claims db
  rw [h] at hkeeps
  exact hkeeps

theorem fail_effect (h : Tx.Returns (fail claims error now) db n db') : KeepsDemands db db' := by
  rw [fail, Tx.returns_writeTransaction, Tx.returns_modifyGet] at h
  have hkeeps := @keepsDemands_updateAllLeased now (fun claim r => r.failed claim error now)
    (fun claim r => r.orderId_failed claim error now)
    (fun _ r => ⟨.of_eq (Or.inl rfl) rfl rfl rfl rfl, fun hp => hp⟩) claims db
  rw [h] at hkeeps
  exact hkeeps

/-! ## 6. Completions -/

/-- What a completion does to the order it claimed, when its claim still holds the lease. -/
inductive Completes (proof : OrderValidationEvidence) (now nowSeconds : Nat)
    (completion : OrderValidationCompletion) (db db' : Db) : Prop
  | applied {row : DemandRow} {order : OrderRow}
      (hrow : db.demands.get? completion.claim.demand.orderId = some row)
      (howns : owns row completion.claim now = true)
      (hproof : validationProofSatisfies proof completion.claim.demand.requiredAt
        completion.claim.demand.minimumBlock = true)
      (horder : db.orders.get? completion.claim.demand.orderId = some order)
      (hrevision : order.stateRevision = completion.claim.candidate.revision)
      (horder' : db'.orders.get? completion.claim.demand.orderId =
        some (order.withValidation completion.status nowSeconds))
      (hrow' : db'.demands.get? completion.claim.demand.orderId =
        some (row.completed (some (order.withValidation completion.status nowSeconds).stateRevision)
          proof (row.generation ≠ completion.claim.demand.generation) now))
  | skipped {row : DemandRow}
      (hrow : db.demands.get? completion.claim.demand.orderId = some row)
      (howns : owns row completion.claim now = true)
      (horder' : db'.orders.get? completion.claim.demand.orderId =
        db.orders.get? completion.claim.demand.orderId)
      (hrow' : db'.demands.get? completion.claim.demand.orderId = some (row.completed none proof
          (validationCandidate db completion.claim.demand.orderId row.gate nowSeconds).isSome now))

/-- The order and the demand of `id` are the same in both databases. -/
def SameOrder (db db' : Db) (id : OrderId) : Prop :=
  db'.orders.get? id = db.orders.get? id ∧ db'.demands.get? id = db.demands.get? id

theorem SameOrder.refl (db : Db) (id : OrderId) : SameOrder db db id := ⟨rfl, rfl⟩

theorem SameOrder.trans (h₁ : SameOrder db₁ db₂ id)
    (h₂ : SameOrder db₂ db₃ id) : SameOrder db₁ db₃ id := ⟨h₂.1.trans h₁.1, h₂.2.trans h₁.2⟩

/-- The two databases differ in orders and demands only. -/
def OrdersOnly (db db' : Db) : Prop :=
  db' = { db with orders := db'.orders, demands := db'.demands }

theorem OrdersOnly.trans (h₁ : OrdersOnly db₁ db₂) (h₂ : OrdersOnly db₂ db₃) : OrdersOnly db₁ db₃ := by
  rw [OrdersOnly, h₂, h₁]

theorem applyDemandValidation_some {orders : Table OrderRow.id}
    (h : applyDemandValidation db completion nowSeconds = some (revision, orders)) :
    ∃ order, db.orders.get? completion.claim.demand.orderId = some order ∧
      order.stateRevision = completion.claim.candidate.revision ∧
      order.sourceStatus = .active ∧
      orders = applyValidation order completion.status nowSeconds db.orders ∧
      revision = (order.withValidation completion.status nowSeconds).stateRevision := by
  rw [applyDemandValidation] at h
  cases hcandidate : validationCandidate db completion.claim.demand.orderId
      completion.claim.demand.gate nowSeconds with
  | none =>
    rw [hcandidate] at h
    cases h
  | some current =>
    obtain ⟨horder, hrevision, hactive⟩ := validationCandidate_some hcandidate
    simp only [hcandidate] at h
    split at h
    · next hcurrent =>
      rw [get?_applyValidation horder hactive, Option.map_some, Option.some.injEq, Prod.mk.injEq] at h
      exact ⟨current.order, horder, hrevision ▸ hcurrent, hactive, h.2.symm, h.1.symm⟩
    · cases h

theorem completeOne_effect {counts' : OrderValidationCompletionCounts}
    (h : Tx.Returns (completeOne proof now nowSeconds completion counts) db counts' db') :
    db' = db ∨ Completes proof now nowSeconds completion db db' ∧ OrdersOnly db db' ∧
      ∀ id ≠ completion.claim.demand.orderId, SameOrder db db' id := by
  simp only [completeOne, Tx.returns_bind, Tx.returns_get] at h
  obtain ⟨_, _, ⟨rfl, rfl⟩, h⟩ := h
  cases hcurrent : (db.demands.get? completion.claim.demand.orderId).filter
      (fun current => owns current completion.claim now) with
  | none =>
    rw [hcurrent] at h
    exact Or.inl (Tx.returns_pure.mp h).2.symm
  | some row =>
    obtain ⟨hrow, howns⟩ := Option.filter_eq_some_iff.mp hcurrent
    simp only [hcurrent, Tx.returns_bind, Tx.returns_throwIf, Tx.returns_set, Tx.returns_pure] at h
    obtain ⟨_, _, ⟨hproof, rfl⟩, _, _, hset, -, rfl⟩ := h
    subst hset
    right
    rw [Bool.not_eq_false] at hproof
    cases happlied : applyDemandValidation db completion nowSeconds with
    | none =>
      refine ⟨.skipped hrow howns rfl ?_, rfl, fun id hne => ⟨rfl, get?_updateDemand_of_ne hne⟩⟩
      rw [get?_updateDemand_self]
      simp only [Option.map_none, Option.getD_none, hrow, Option.map_some, Option.isNone_none,
        Bool.true_and, Bool.true_or, Bool.and_true, Option.not_isNone]
    | some out =>
      obtain ⟨order, horder, hrevision, hactive, horders, hrev⟩ := applyDemandValidation_some happlied
      have hid : order.id = completion.claim.demand.orderId := (Table.get?_eq_some.mp horder).2
      refine ⟨.applied hrow howns hproof horder hrevision ?_ ?_, rfl, fun id hne => ⟨?_, ?_⟩⟩
      · simp only [Option.map_some, Option.getD_some, horders]
        exact get?_applyValidation horder hactive
      · rw [get?_updateDemand_self]
        simp only [Option.map_some, hrow, Option.isNone_some, Bool.false_and, Bool.not_false,
          Bool.true_and, Bool.false_or, hrev]
      · simp only [Option.map_some, Option.getD_some, horders]
        exact get?_applyValidation_of_ne (fun heq => hne (heq.symm.trans hid))
      · exact get?_updateDemand_of_ne hne

theorem Completes.of_sameOrder (h : Completes proof now nowSeconds completion db₁ db')
    (hsame : SameOrder db db₁ completion.claim.demand.orderId) (honly : OrdersOnly db db₁) :
    Completes proof now nowSeconds completion db db' := by
  cases h with
  | applied hrow howns hproof horder hrevision horder' hrow' =>
    exact .applied (hsame.2 ▸ hrow) howns hproof (hsame.1 ▸ horder) hrevision horder' hrow'
  | skipped hrow howns horder' hrow' =>
    refine .skipped (hsame.2 ▸ hrow) howns (horder'.trans hsame.1) ?_
    rw [hrow', validationCandidate_congr hsame.1 (by rw [honly])]

theorem Completes.not_owned (h : Completes proof now nowSeconds completion db db')
    (hrow' : db'.demands.get? completion.claim.demand.orderId = some row')
    (claim : ClaimedOrderValidation) (now' : Nat) : owns row' claim now' = false := by
  have huntil : row'.leaseUntil = 0 := by
    cases h with
    | applied _ _ _ _ _ _ h' =>
      rw [h', Option.some.injEq] at hrow'
      rw [← hrow']
      rfl
    | skipped _ _ _ h' =>
      rw [h', Option.some.injEq] at hrow'
      rw [← hrow']
      rfl
  simp [owns, huntil]

theorem Completes.owned (h : Completes proof now nowSeconds completion db db') :
    ∃ row, db.demands.get? completion.claim.demand.orderId = some row ∧
      owns row completion.claim now = true := by
  cases h with
  | applied hrow howns _ _ _ _ _ => exact ⟨_, hrow, howns⟩
  | skipped hrow howns _ _ => exact ⟨_, hrow, howns⟩

/-- **An order changes by at most one completion of a batch**, and that one found it as the batch
did. -/
theorem completeAll_effect : ∀ {completions : List OrderValidationCompletion}
      {counts counts' : OrderValidationCompletionCounts} {db db' : Db},
      Tx.Returns (completeAll proof now nowSeconds completions counts) db counts' db' →
      OrdersOnly db db' ∧ ∀ id, SameOrder db db' id ∨
        ∃ completion ∈ completions, completion.claim.demand.orderId = id ∧
          Completes proof now nowSeconds completion db db'
  | [], counts, counts', db, db', h => by
    obtain ⟨-, rfl⟩ := Tx.returns_pure.mp h
    exact ⟨rfl, fun id => Or.inl (.refl db id)⟩
  | completion :: rest, counts, counts', db, db', h => by
    obtain ⟨counts₁, db₁, hone, hrest⟩ := Tx.returns_bind.mp h
    obtain ⟨honly, hids⟩ := completeAll_effect hrest
    rcases completeOne_effect hone with rfl | ⟨hcompletes, honly₁, hframe⟩
    · refine ⟨honly, fun id => ?_⟩
      rcases hids id with hsame | ⟨c, hc, hid, hceff⟩
      · exact Or.inl hsame
      · exact Or.inr ⟨c, List.mem_cons_of_mem _ hc, hid, hceff⟩
    · refine ⟨honly₁.trans honly, fun id => ?_⟩
      by_cases hown : id = completion.claim.demand.orderId
      · subst hown
        right
        refine ⟨completion, by simp, rfl, ?_⟩
        rcases hids completion.claim.demand.orderId with hsame | ⟨c, -, hid, hceff⟩
        · cases hcompletes with
          | applied hrow howns hproof horder hrevision horder' hrow' =>
            exact .applied hrow howns hproof horder hrevision (hsame.1.trans horder') (hsame.2.trans hrow')
          | skipped hrow howns horder' hrow' =>
            exact .skipped hrow howns (hsame.1.trans horder') (hsame.2.trans hrow')
        · obtain ⟨row, hrow, howns⟩ := hceff.owned
          rw [hid] at hrow
          rw [hcompletes.not_owned hrow] at howns
          cases howns
      · rcases hids id with hsame | ⟨c, hc, hid, hceff⟩
        · exact Or.inl ((hframe id hown).trans hsame)
        · refine Or.inr ⟨c, List.mem_cons_of_mem _ hc, hid, ?_⟩
          exact hceff.of_sameOrder (hid.symm ▸ hframe id hown) honly₁

theorem completeBatch_effect {completions : List OrderValidationCompletion}
    (h : Tx.Returns (completeBatch completions proof now nowSeconds) db counts db') :
    db.revision = proof.checkpoint.revision ∧ OrdersOnly db db' ∧ ∀ id, SameOrder db db' id ∨
      ∃ completion ∈ completions, completion.claim.demand.orderId = id ∧
        Completes proof now nowSeconds completion db db' := by
  simp only [completeBatch, Tx.returns_writeTransaction, Tx.returns_bind, returns_assertSyncCheckpoint] at h
  obtain ⟨_, _, ⟨hrevision, rfl⟩, h⟩ := h
  exact ⟨hrevision, completeAll_effect h⟩

/-! ## 7. Maker checkpoints -/

/-- What recording a validation does to the order. -/
inductive Records (evidence : OrderValidationEvidence) (now nowSeconds : Nat)
    (candidate : MakerValidationCandidate) (status : OrderStatus) (db db' : Db) : Prop
  | mk {order : OrderRow} {row' : DemandRow}
      (horder : db.orders.get? candidate.order.id = some order)
      (hrevision : order.stateRevision = candidate.revision)
      (horder' : db'.orders.get? candidate.order.id = some (order.withValidation status nowSeconds))
      (hrow' : db'.demands.get? candidate.order.id = some row')
      (hstored : ∀ row, db.demands.get? candidate.order.id = some row →
        row' = row.recorded (order.withValidation status nowSeconds).stateRevision evidence now)
      (hinserted : db.demands.get? candidate.order.id = none → row'.leaseOwner = none)

/-- What one entry of a checkpoint does to its order. -/
inductive EntryEffect (pass : MakerPass) (evidence : Option OrderValidationEvidence)
    (now nowSeconds : Nat) (entry : MakerValidationCheckpointEntry) (db db' : Db) : Prop
  | kept (horder : db'.orders.get? entry.candidate.order.id = db.orders.get? entry.candidate.order.id)
      (hkeeps : Keeps (db.demands.get? entry.candidate.order.id)
        (db'.demands.get? entry.candidate.order.id))
  | recorded {candidate : MakerValidationCandidate} {status : OrderStatus}
      {e : OrderValidationEvidence} (hentry : entry = .resolved candidate (some status))
      (hevidence : evidence = some e) (hcurrent : db.revision = e.checkpoint.revision)
      (hrecords : Records e now nowSeconds candidate status db db')

theorem MakerPass.validationRequest_orderId (pass : MakerPass) (id : OrderId) :
    (pass.validationRequest id).orderId = id := by
  rw [validationRequest]
  split <;> rfl

theorem recordValidation_effect {evidence : OrderValidationEvidence} {u : Unit}
    (h : Tx.Returns (recordValidation request revision evidence now) db u db') :
    db.revision = evidence.checkpoint.revision ∧ db' = { db with demands := db'.demands } ∧
      (∀ id ≠ request.orderId, db'.demands.get? id = db.demands.get? id) ∧
      ∃ row', db'.demands.get? request.orderId = some row' ∧
        (∀ row, db.demands.get? request.orderId = some row → row' = row.recorded revision evidence now) ∧
        (db.demands.get? request.orderId = none → row'.leaseOwner = none) := by
  simp only [recordValidation, Tx.returns_bind, returns_assertSyncCheckpoint, Tx.returns_throwIf,
    Tx.returns_modify] at h
  obtain ⟨_, _, ⟨hrevision, rfl⟩, _, _, ⟨-, rfl⟩, rfl⟩ := h
  refine ⟨hrevision, rfl, fun id hne => ?_, _, Table.get?_upsert.trans (if_pos rfl), ?_, ?_⟩
  · exact Table.get?_upsert.trans (if_neg (fun heq => hne heq.symm))
  · intro row hrow
    rw [hrow]
    rfl
  · intro hnone
    rw [hnone]
    rfl

theorem checkpointEntry_effect
    (h : Tx.Returns (checkpointEntry pass alone evidence now nowSeconds entry) db n db') :
    EntryEffect pass evidence now nowSeconds entry db db' ∧ OrdersOnly db db' ∧
      ∀ id ≠ entry.candidate.order.id, SameOrder db db' id := by
  cases entry with
  | deferred candidate error =>
    simp only [checkpointEntry, Tx.returns_bind, Tx.returns_throwIf, Tx.returns_pure] at h
    obtain ⟨_, _, ⟨-, rfl⟩, outcome, db₁, hdefer, -, rfl⟩ := h
    obtain ⟨⟨honly, hkeeps⟩, hframe, -⟩ := defer_effect hdefer
    rw [pass.validationRequest_orderId] at hframe
    refine ⟨.kept (by rw [honly]) (hkeeps _), ?_, fun id hne => ⟨by rw [honly], hframe id hne⟩⟩
    rw [OrdersOnly, honly]
  | covered candidate =>
    simp only [checkpointEntry, Tx.returns_bind, Tx.returns_get, Tx.returns_throwIf, Tx.returns_pure] at h
    obtain ⟨_, _, ⟨rfl, rfl⟩, _, _, ⟨-, rfl⟩, -, rfl⟩ := h
    exact ⟨.kept rfl (.refl _), rfl, fun id _ => .refl db id⟩
  | resolved candidate validation =>
    simp only [checkpointEntry, Tx.returns_bind, Tx.returns_throwIf] at h
    obtain ⟨_, _, ⟨hneeded, rfl⟩, revision, db₁, hresolution, hrest⟩ := h
    cases applyMakerResolution_effect hresolution with
    | skipped =>
      obtain ⟨-, rfl⟩ := Tx.returns_pure.mp hrest
      exact ⟨.kept rfl (.refl _), rfl, fun id _ => .refl db id⟩
    | @applied order status horder hrevision hstatus hactive =>
      subst hstatus
      cases hevidence : evidence with
      | none => exact absurd ⟨by simp, hevidence⟩ hneeded
      | some e =>
        simp only [hevidence, Tx.returns_bind, Tx.returns_pure] at hrest
        obtain ⟨_, db₂, hrecord, -, hdb⟩ := hrest
        subst hdb
        obtain ⟨hcurrent, honly, hframe, row', hrow', hstored, hinserted⟩ :=
          recordValidation_effect hrecord
        rw [pass.validationRequest_orderId] at hframe hrow' hstored hinserted
        have hid : order.id = candidate.order.id := (Table.get?_eq_some.mp horder).2
        have horders : db₂.orders = applyValidation order status nowSeconds db.orders := by
          rw [honly]
        refine ⟨.recorded rfl rfl hcurrent (.mk horder hrevision ?_ hrow' hstored hinserted), ?_,
          fun id hne => ⟨?_, hframe id hne⟩⟩
        · rw [horders]
          exact get?_applyValidation horder hactive
        · rw [OrdersOnly, honly]
        · rw [horders]
          exact get?_applyValidation_of_ne (fun heq => hne (heq.symm.trans hid))

theorem EntryEffect.of_sameOrder
    (h : EntryEffect pass evidence now nowSeconds entry db₁ db₂) (honly : OrdersOnly db db₁)
    (hbefore : SameOrder db db₁ entry.candidate.order.id)
    (hafter : SameOrder db₂ db' entry.candidate.order.id) :
    EntryEffect pass evidence now nowSeconds entry db db' := by
  cases h with
  | kept horder hkeeps =>
    refine .kept (hafter.1.trans (horder.trans hbefore.1)) ?_
    rw [hafter.2, ← hbefore.2]
    exact hkeeps
  | recorded hentry hevidence hcurrent hrecords =>
    subst hentry
    have hrevision : db₁.revision = db.revision := by rw [honly]
    refine .recorded rfl hevidence (hrevision ▸ hcurrent) ?_
    cases hrecords with
    | mk horder hrev horder' hrow' hstored hinserted =>
      exact .mk (hbefore.1 ▸ horder) hrev (hafter.1.trans horder') (hafter.2.trans hrow')
        (fun row hrow => hstored row (hbefore.2.trans hrow))
        (fun hnone => hinserted (hbefore.2.trans hnone))

/-- **The entries of a checkpoint are distinct orders, in increasing order after `afterId`**, and
each order changes by its own entry. -/
theorem checkpointEntries_effect :
    ∀ {entries : List MakerValidationCheckpointEntry} {afterId : OrderId} {deferred : Nat}
      {out : OrderId × Nat} {db db' : Db},
      Tx.Returns (checkpointEntries pass alone evidence now nowSeconds afterId deferred entries) db
        out db' →
      OrdersOnly db db' ∧ (∀ entry ∈ entries, afterId < entry.candidate.order.id) ∧
        (entries = [] ∧ out.1 = afterId ∨ ∃ entry ∈ entries, out.1 = entry.candidate.order.id) ∧
        ∀ id, SameOrder db db' id ∨ ∃ entry ∈ entries, entry.candidate.order.id = id ∧
          EntryEffect pass evidence now nowSeconds entry db db'
  | [], afterId, deferred, out, db, db', h => by
    obtain ⟨rfl, rfl⟩ := Tx.returns_pure.mp h
    exact ⟨rfl, by simp, Or.inl ⟨rfl, rfl⟩, fun id => Or.inl (.refl db id)⟩
  | entry :: rest, afterId, deferred, out, db, db', h => by
    simp only [checkpointEntries, Tx.returns_bind, Tx.returns_throwIf] at h
    obtain ⟨_, _, ⟨horder, rfl⟩, handed, db₁, hentry, hrest⟩ := h
    push Not at horder
    obtain ⟨heffect, honly₁, hframe⟩ := checkpointEntry_effect hentry
    obtain ⟨honly, hlater, hlast, hids⟩ := checkpointEntries_effect hrest
    refine ⟨honly₁.trans honly, ?_, ?_, ?_⟩
    · intro e he
      rcases List.mem_cons.mp he with rfl | he
      · exact horder.1
      · exact lt_trans horder.1 (hlater e he)
    · right
      rcases hlast with ⟨-, hlast⟩ | ⟨e, he, hlast⟩
      · exact ⟨entry, by simp, hlast⟩
      · exact ⟨e, List.mem_cons_of_mem _ he, hlast⟩
    · intro id
      by_cases hown : id = entry.candidate.order.id
      · subst hown
        -- the entries that follow are of later orders
        have hsame : SameOrder db₁ db' entry.candidate.order.id := by
          rcases hids entry.candidate.order.id with hsame | ⟨e, he, hid, -⟩
          · exact hsame
          · exact absurd hid (ne_of_gt (hlater e he))
        exact Or.inr ⟨entry, by simp, rfl, heffect.of_sameOrder rfl (.refl db _) hsame⟩
      · rcases hids id with hsame | ⟨e, he, hid, heff⟩
        · exact Or.inl ((hframe id hown).trans hsame)
        · refine Or.inr ⟨e, List.mem_cons_of_mem _ he, hid, ?_⟩
          exact heff.of_sameOrder honly₁ (hid.symm ▸ hframe id hown) (.refl db' _)

theorem applyCheckpoint_entries
    (h : Tx.Returns (applyCheckpoint pass afterId resolutions evidence now nowSeconds) db out db') :
    Tx.Returns (checkpointEntries pass (resolutions.length = 1) evidence now nowSeconds afterId 0
      resolutions) db out db' := by
  cases evidence with
  | none =>
    rw [applyCheckpoint.eq_def] at h
    exact h
  | some e =>
    simp only [applyCheckpoint, Tx.returns_bind, returns_assertSyncCheckpoint] at h
    obtain ⟨_, _, ⟨-, rfl⟩, h⟩ := h
    exact h

theorem applyCheckpoint_effect
    (h : Tx.Returns (applyCheckpoint pass afterId resolutions evidence now nowSeconds) db out db') :
    OrdersOnly db db' ∧ (∀ entry ∈ resolutions, afterId < entry.candidate.order.id) ∧
      (resolutions = [] ∧ out.1 = afterId ∨ ∃ entry ∈ resolutions, out.1 = entry.candidate.order.id) ∧
      ∀ id, SameOrder db db' id ∨ ∃ entry ∈ resolutions, entry.candidate.order.id = id ∧
        EntryEffect pass evidence now nowSeconds entry db db' :=
  checkpointEntries_effect (applyCheckpoint_entries h)

end Artgod.Indexer
