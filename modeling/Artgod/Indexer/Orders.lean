/-
# Orders as validation sees them

The parts of the order projection (`infra/domain/orders.ts`) that decide whether an order needs
validation and that write a validation result.

A result is written under a revision: the `UPDATE` names the `state_revision` that was validated,
and a result that changes the status advances it.  `nowSeconds` is the clock of the repository,
which is not the clock of the leases.
-/
import Artgod.Indexer.Rollback

namespace Artgod.Indexer

open Store

structure OrderValidationCandidate where
  order : OrderRow
  revision : Nat
deriving DecidableEq

/-! ## 1. Which orders need validation -/

/-- `needsCurrentOrderValidation`: a recovered balance never revives a terminal state. -/
def needsCurrentOrderValidation (order : OrderRow) (nowSeconds : Nat) : Bool :=
  order.kind = "seaport" && order.sourceStatus = .active &&
    order.validUntil.all (fun until_ => decide (nowSeconds < until_)) &&
    order.fillabilityStatus ≠ .filled && order.fillabilityStatus ≠ .cancelled &&
    order.fillabilityStatus ≠ .expired

/-- `canMutateCurrentStateForCollection`: an event must lie above the collection's anchor. -/
def canMutateCurrentStateForCollection (db : Db) (collectionId : CollectionId)
    (blockNumber : Option Nat) : Bool :=
  match blockNumber with
  | none => true
  | some b =>
    canProjectCurrentStateAtBlock ((db.collections.get? collectionId).bind (·.bootstrapAnchorBlock)) b

def validationCandidate (db : Db) (orderId : OrderId) (minimumBlock : Option Nat)
    (nowSeconds : Nat) : Option OrderValidationCandidate :=
  match db.orders.get? orderId with
  | none => none
  | some order =>
    if needsCurrentOrderValidation order nowSeconds &&
        canMutateCurrentStateForCollection db order.collectionId minimumBlock then
      some ⟨order, order.stateRevision⟩
    else none

variable {nowSeconds : Nat} {db : Db}

variable {id orderId : OrderId} {minimumBlock : Option Nat} {db' : Db} {row : OrderRow}
  {status : OrderStatus} {orders : Table OrderRow.id}

theorem validationCandidate_some {candidate : OrderValidationCandidate}
    (h : validationCandidate db orderId minimumBlock nowSeconds = some candidate) :
    db.orders.get? orderId = some candidate.order ∧ candidate.revision = candidate.order.stateRevision ∧
      candidate.order.sourceStatus = .active := by
  rw [validationCandidate] at h
  split at h
  · cases h
  next order horder =>
  split at h
  · next hneeds =>
    rw [← Option.some.inj h]
    simp only [needsCurrentOrderValidation, Bool.and_eq_true, decide_eq_true_eq] at hneeds
    exact ⟨horder, rfl, hneeds.1.1.1.1.1.2⟩
  · cases h

theorem canMutateCurrentStateForCollection_mono {c : CollectionId} {b b' : Nat}
    (hle : b ≤ b') (h : canMutateCurrentStateForCollection db c (some b) = true) :
    canMutateCurrentStateForCollection db c (some b') = true := by
  simp only [canMutateCurrentStateForCollection, canProjectCurrentStateAtBlock] at h ⊢
  split at h
  · cases h
  · next a ha =>
    rw [decide_eq_true_eq] at h ⊢
    omega

theorem validationCandidate_congr (horder : db'.orders.get? orderId = db.orders.get? orderId)
    (hcollections : db'.collections = db.collections) :
    validationCandidate db' orderId minimumBlock nowSeconds =
      validationCandidate db orderId minimumBlock nowSeconds := by
  have hcan : ∀ c, canMutateCurrentStateForCollection db' c minimumBlock =
      canMutateCurrentStateForCollection db c minimumBlock := by
    intro c
    cases minimumBlock with
    | none => rfl
    | some b => simp only [canMutateCurrentStateForCollection, hcollections]
  rw [validationCandidate, validationCandidate, horder]
  cases db.orders.get? orderId with
  | none => rfl
  | some order => simp only [hcan]

/-! ## 2. Writing a result -/

def orderRevalidationSeconds : Nat := 300

/-- The row that `applyValidation` leaves: it is written when the result changes the status or the
last validation is old. -/
def OrderRow.withValidation (order : OrderRow) (status : OrderStatus) (nowSeconds : Nat) : OrderRow :=
  if order.fillabilityStatus ≠ status ∨ order.validatedAt + orderRevalidationSeconds ≤ nowSeconds then
    { order with
      validatedAt := nowSeconds
      stateRevision :=
        order.stateRevision + if order.fillabilityStatus ≠ status then 1 else 0
      fillabilityStatus := status }
  else order

theorem OrderRow.withValidation_id (order : OrderRow) (status : OrderStatus) (nowSeconds : Nat) :
    (order.withValidation status nowSeconds).id = order.id := by
  rw [withValidation]
  split <;> rfl

/-- `applyValidation`: the revision that was validated must still be the current one. -/
def applyValidation (row : OrderRow) (status : OrderStatus) (nowSeconds : Nat)
    (orders : Table OrderRow.id) : Table OrderRow.id :=
  orders.updateWhere
    (fun o => o.id = row.id && o.stateRevision = row.stateRevision && o.sourceStatus = .active)
    (fun o => o.withValidation status nowSeconds)
    (fun o => o.withValidation_id status nowSeconds)

theorem get?_applyValidation_of_ne (hne : row.id ≠ id) :
    (applyValidation row status nowSeconds orders).get? id = orders.get? id := by
  rw [applyValidation, Table.get?_updateWhere]
  cases h : orders.get? id with
  | none => rfl
  | some o =>
    have hid : o.id ≠ row.id := fun heq => hne (heq.symm.trans (Table.get?_eq_some.mp h).2)
    simp [hid]

theorem get?_applyValidation (hrow : orders.get? id = some row) (hactive : row.sourceStatus = .active) :
    (applyValidation row status nowSeconds orders).get? id =
      some (row.withValidation status nowSeconds) := by
  rw [applyValidation, Table.get?_updateWhere, hrow]
  simp [hactive]

/-! ## 3. Results of a maker pass -/

structure MakerValidationCandidate where
  order : OrderRow
  revision : Nat
  currentAtTrigger : Bool

/-- `ORDER_REVALIDATABLE_FILLABILITY_STATUS`. -/
def isRevalidatable : OrderStatus → Bool
  | .fillable => true
  | .noBalance => true
  | .noApproval => true
  | _ => false

/-- The order can still take the result of a pass that was triggered at `blockNumber`. -/
def isMakerActionable (db : Db) (order : OrderRow) (blockNumber : Option Nat) (nowSeconds : Nat) : Bool :=
  order.sourceStatus = .active && order.validUntil.all (fun until_ => decide (nowSeconds < until_)) &&
    isRevalidatable order.fillabilityStatus &&
    canMutateCurrentStateForCollection db order.collectionId blockNumber

/-- `applyMakerResolution`: the revision that the result leaves, none for an order that takes no
result any more. -/
def applyMakerResolution (blockNumber : Option Nat) (candidate : MakerValidationCandidate)
    (validation : Option OrderStatus) (nowSeconds : Nat) : StoreM (Option Nat) := do
  let db ← get
  match db.orders.get? candidate.order.id with
  | none => return none
  | some row =>
    if isMakerActionable db row blockNumber nowSeconds then
      match validation with
      | none => throw (.makerRevalidationConflict "Maker validation revision changed")
      | some status =>
        Tx.throwIf (row.stateRevision ≠ candidate.revision)
          (.makerRevalidationConflict "Maker validation revision changed")
        let orders := applyValidation row status nowSeconds db.orders
        set { db with orders := orders }
        return (orders.get? row.id).map (·.stateRevision)
    else return none

/-- What a resolution that returned did. -/
inductive MakerResolutionEffect (candidate : MakerValidationCandidate)
    (validation : Option OrderStatus) (nowSeconds : Nat) (db : Db) : Option Nat → Db → Prop
  | skipped : MakerResolutionEffect candidate validation nowSeconds db none db
  | applied {order : OrderRow} {status : OrderStatus}
      (horder : db.orders.get? candidate.order.id = some order)
      (hrevision : order.stateRevision = candidate.revision) (hstatus : validation = some status)
      (hactive : order.sourceStatus = .active) :
      MakerResolutionEffect candidate validation nowSeconds db
        (some (order.withValidation status nowSeconds).stateRevision)
        { db with orders := applyValidation order status nowSeconds db.orders }

theorem applyMakerResolution_effect {blockNumber : Option Nat}
    {candidate : MakerValidationCandidate} {validation : Option OrderStatus}
    {revision : Option Nat}
    (h : Tx.Returns (applyMakerResolution blockNumber candidate validation nowSeconds) db revision
      db') : MakerResolutionEffect candidate validation nowSeconds db revision db' := by
  simp only [applyMakerResolution, Tx.returns_bind, Tx.returns_get] at h
  obtain ⟨_, _, ⟨rfl, rfl⟩, h⟩ := h
  cases horder : db.orders.get? candidate.order.id with
  | none =>
    rw [horder] at h
    obtain ⟨rfl, rfl⟩ := Tx.returns_pure.mp h
    exact .skipped
  | some order =>
    have hid : order.id = candidate.order.id := (Table.get?_eq_some.mp horder).2
    simp only [horder] at h
    by_cases hactionable : isMakerActionable db order blockNumber nowSeconds = true
    · rw [if_pos hactionable] at h
      have hactive : order.sourceStatus = .active := by
        simp only [isMakerActionable, Bool.and_eq_true, decide_eq_true_eq] at hactionable
        exact hactionable.1.1.1
      cases validation with
      | none => exact absurd h (by simp)
      | some status =>
        simp only [Tx.returns_bind, Tx.returns_throwIf, Tx.returns_set, Tx.returns_pure] at h
        obtain ⟨_, _, ⟨hrevision, rfl⟩, _, _, rfl, rfl, rfl⟩ := h
        rw [hid, get?_applyValidation horder hactive]
        exact .applied horder (not_not.mp hrevision) rfl hactive
    · rw [if_neg hactionable] at h
      obtain ⟨rfl, rfl⟩ := Tx.returns_pure.mp h
      exact .skipped

end Artgod.Indexer
