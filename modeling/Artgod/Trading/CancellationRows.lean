/-
# The rows of cancelled offers

Every order that the bot tries to cancel has a row, written by the live bidder, by a loop that recovers failed
cancellations, and by a command that failed for good, all at once.  The write of a failure is guarded
(`AND completed_at IS NULL`), and the other two statements are not.
-/
import Artgod.Machine.Runs
import Artgod.Store.Table
import Artgod.Trading.BidRuns

namespace Artgod.Trading

open Js Store

/-! ## 1. Rows and statements -/

/-- A row of `trading_bidding_order_cancellations`. -/
structure OfferCancellation where
  orderId : String
  jobId : String
  jobRevision : Int
  chainId : Nat
  collectionId : Nat
  maker : String
  priceWei : Option Int
  protocolAddress : Option String
  placedAt : Option String
  expirationTimeMs : Option Rat
  requestedAt : String
  completedAt : Option String
  cancellationError : Option String
  updatedAt : String

abbrev OfferCancellations := Table OfferCancellation.orderId

/-- `BiddingJobOfferCancellationSnapshot`. -/
structure OfferCancellationSnapshot extends CancellationState where
  jobId : String
  jobRevision : Int
  orderId : String
  priceWei : Option Int
  protocolAddress : Option String
  placedAt : Option String
  expirationTimeMs : Option Rat
  makerAddress : String

/-- What the row of a job in `trading_jobs` gives. -/
structure JobScope where
  chainId : Nat
  collectionId : Nat

/-- `COALESCE(first, second)`. -/
def coalesce {α : Type} (first second : Option α) : Option α := first.orElse fun _ => second

/-- `upsertOfferCancellation`; a job that is not there gives no row to write. -/
def upsertOfferCancellation (platform : Platform) (rows : OfferCancellations) (scope : Option JobScope)
    (snapshot : OfferCancellationSnapshot) (updatedAt : String) : OfferCancellations :=
  match scope with
  | none => rows
  | some scope =>
    rows.upsert {
      orderId := snapshot.orderId
      jobId := snapshot.jobId
      jobRevision := snapshot.jobRevision
      chainId := scope.chainId
      collectionId := scope.collectionId
      maker := toLowerCase platform snapshot.makerAddress
      priceWei := snapshot.priceWei
      protocolAddress := snapshot.protocolAddress
      placedAt := snapshot.placedAt
      expirationTimeMs := snapshot.expirationTimeMs
      requestedAt := snapshot.requestedAt
      completedAt := snapshot.completedAt
      cancellationError := snapshot.cancellationError
      updatedAt := updatedAt }
    (fun row => { row with
      jobId := snapshot.jobId
      jobRevision := snapshot.jobRevision
      chainId := scope.chainId
      collectionId := scope.collectionId
      maker := toLowerCase platform snapshot.makerAddress
      priceWei := coalesce snapshot.priceWei row.priceWei
      protocolAddress := coalesce snapshot.protocolAddress row.protocolAddress
      placedAt := coalesce snapshot.placedAt row.placedAt
      expirationTimeMs := coalesce snapshot.expirationTimeMs row.expirationTimeMs
      requestedAt :=
        if snapshot.completedAt = none ∧ snapshot.cancellationError = none then snapshot.requestedAt
        else row.requestedAt
      completedAt := coalesce snapshot.completedAt row.completedAt
      cancellationError := snapshot.cancellationError
      updatedAt := updatedAt })
    fun _ => rfl

def markOfferCancellationFailed (rows : OfferCancellations) (jobId orderId cancellationError updatedAt : String) :
    OfferCancellations :=
  rows.updateWhere (fun row => row.jobId = jobId ∧ row.orderId = orderId ∧ row.completedAt = none)
    (fun row => { row with
      cancellationError := some cancellationError
      completedAt := none
      updatedAt := updatedAt })
    fun _ => rfl

def markOfferCancellationCompleted (rows : OfferCancellations) (jobId orderId completedAt : String) :
    OfferCancellations :=
  rows.updateWhere (fun row => row.jobId = jobId ∧ row.orderId = orderId) (fun row => { row with
      completedAt := some completedAt
      cancellationError := none
      updatedAt := completedAt })
    fun _ => rfl

/-- What the joined tables and the commands say of a row. -/
structure CancellationContext where
  collectionAddress : String
  terminalCommandError : Option String
  hasTerminalCommand : Bool

/-- `RecoverableOfferCancellationRecord`, without the slug and the token that only logs read. -/
structure RecoverableOfferCancellation where
  jobId : String
  orderId : String
  protocolAddress : Option String
  placedAt : Option String
  expirationTimeMs : Option Rat
  collectionAddress : String
  cancellationError : Option String
  terminalCommandError : Option String
  hasTerminalCommand : Bool

/-- The view of the database that a batch is listed from: SQLite's `datetime`, and the joins of a row. -/
structure CancellationView where
  datetime : String → Option Int
  context : OfferCancellation → Option CancellationContext

/-- The first time is not after the second; two texts that are no times do not compare. -/
def CancellationView.notAfter (view : CancellationView) (first second : String) : Bool :=
  match view.datetime first, view.datetime second with
  | some a, some b => a ≤ b
  | _, _ => false

def listRecoverableOfferCancellations (rows : OfferCancellations) (view : CancellationView) (chainId limit : Nat)
    (retryCutoff : String) : List RecoverableOfferCancellation :=
  let unresolved := rows.rows.filterMap fun row =>
    (view.context row).bind fun context =>
      let isRecoverable : Bool := match row.cancellationError with
        | some _ => view.notAfter row.updatedAt retryCutoff
        | none => context.hasTerminalCommand
      if row.chainId = chainId ∧ row.completedAt = none ∧ isRecoverable = true then some (row, context) else none
  let oldestFirst := unresolved.insertionSort fun a b =>
    a.1.updatedAt < b.1.updatedAt ∨ (a.1.updatedAt = b.1.updatedAt ∧ a.1.requestedAt ≤ b.1.requestedAt)
  (oldestFirst.take limit).map fun (row, context) => {
    jobId := row.jobId
    orderId := row.orderId
    protocolAddress := row.protocolAddress
    placedAt := row.placedAt
    expirationTimeMs := row.expirationTimeMs
    collectionAddress := context.collectionAddress
    cancellationError := row.cancellationError
    terminalCommandError := context.terminalCommandError
    hasTerminalCommand := context.hasTerminalCommand }

/-! ## 2. Looking an order up -/

/-- What `getOrderByHash` gives: an order, or an error that may say that there is none. -/
inductive DirectLookup
  | answered (raw : Value)
  | failed (isAbsent : Bool)

/-- `Boolean(value)`. -/
def isTruthy (value : Value) : Bool := !isAbsentOffer value

def isLegacyInactive (engine : OfferEngine) (rawOrder : Value) (nowMs : Rat) : Bool :=
  let order := asRecord rawOrder
  let isExpired : Bool := match engine.toNumber (field order "expirationTime") with
    | .finite expirationTime => 0 < expirationTime ∧ expirationTime < nowMs / 1000
    | _ => false
  isTruthy (field order "cancelled") || isTruthy (field order "finalized") ||
    isTruthy (field order "markedInvalid") || isExpired

/-- `getOrder`.  Without a protocol address nothing is looked up. -/
def getOrder (engine : OfferEngine) (orderHash : String) (protocolAddress : Option String)
    (collectionAddress : String) (lookup : DirectLookup) (nowMs : Rat) : Except String OrderRecovery :=
  match truthyText protocolAddress with
  | none => .ok .inactiveOrMissing
  | some _ =>
    match lookup with
    | .failed isAbsent => .ok (if isAbsent then .inactiveOrMissing else .inconclusive "direct_lookup_failed")
    | .answered raw =>
      if getOpenSeaOrderHash raw ≠ some orderHash then .ok .inactiveOrMissing
      else
        match hparsed : parseRawOffer engine raw collectionAddress .stateRecovery with
        | .error message => .error message
        | .ok none => .ok (.inconclusive "parse_failed")
        | .ok (some order) =>
          match stringOrUndefined (field (asRecord raw) "status") with
          | some status =>
            if toLowerCase engine.platform status ≠ "active" then .ok .inactiveOrMissing
            else .ok (.active order (parseRawOffer_named hparsed))
          | none =>
            if isLegacyInactive engine raw nowMs then .ok .inactiveOrMissing
            else .ok (.active order (parseRawOffer_named hparsed))

/-! ## 3. The writers -/

/-- The answer of the database to one write. -/
structure RowWrite where
  scope : Option JobScope
  isoTime : String
  failure : Option String

def RowWrite.apply (write : RowWrite) (rows : OfferCancellations) (written : OfferCancellations) :
    OfferCancellations :=
  if write.failure = none then written else rows

/-- A cancellation that the bidder waits for. -/
structure CancellationCall where
  job : ScheduledJob
  order : Order
  requestedAt : String

/-- Where the recovery of failed cancellations stands. -/
inductive RecoveryPhase
  | idle
  | lookingUp (record : RecoverableOfferCancellation) (rest : List RecoverableOfferCancellation)
  | retrying (record : RecoverableOfferCancellation) (order : Order) (rest : List RecoverableOfferCancellation)

/-- What is known of an order: its cancellation succeeded, or a lookup found it inactive. -/
inductive CancellationFact
  | cancelled (orderId : String)
  | foundInactive (orderId : String)
  deriving DecidableEq

/-- `FailedOfferCancellationReconcilerConfig`. -/
structure RecoveryConfig where
  chainId : Nat
  batchSize : Nat
  dryRun : Bool

/-- The rows, what the writers wait for, and what became known of the orders so far. -/
structure CancellationWorld where
  rows : OfferCancellations
  calls : List CancellationCall
  phase : RecoveryPhase
  acceptingRecords : Bool
  facts : List CancellationFact

def CancellationWorld.start : CancellationWorld := ⟨.empty, [], .idle, true, []⟩

inductive CancellationEvent
  | requested (job : ScheduledJob) (order : Order) (write : RowWrite)
  | answered (call : Nat) (answer : Except String Unit) (write : RowWrite)
  | trackedOrderChecked (job : ScheduledJob) (market : MarketOffers) (lookup : DirectLookup) (nowMs : Rat)
      (write : RowWrite)
  | commandFailed (jobId orderId message : String) (write : RowWrite)
  | batchListed (view : CancellationView) (retryCutoff : String)
  | lookedUp (lookup : DirectLookup) (nowMs : Rat) (write : RowWrite)
  | retried (answer : Except String Unit) (completedWrite failedWrite : RowWrite)
  | admissionClosed
  | restarted

section Step

variable (setup : BidderSetup) (config : RecoveryConfig)

variable (job : ScheduledJob)

/-- The snapshot of `recordJobOfferCancellation`. -/
def jobOfferCancellation (order : Order) (state : CancellationState) : OfferCancellationSnapshot where
  toCancellationState := state
  jobId := job.id
  jobRevision := job.revision
  orderId := order.id
  priceWei := some order.price
  protocolAddress := order.protocolAddress
  placedAt := order.placedAt
  expirationTimeMs := toExpirationTimeMs order.expirationTime
  makerAddress := toLowerCase setup.engine.platform setup.makerAddress

/-- The snapshot of `recordTrackedOrderCancellation`. -/
def trackedOrderCancellation (activeOrderId : String) (state : CancellationState) :
    OfferCancellationSnapshot where
  toCancellationState := state
  jobId := job.id
  jobRevision := job.revision
  orderId := activeOrderId
  priceWei := job.state.currentPrice.get
  protocolAddress := job.state.activeProtocolAddress.get
  placedAt := job.state.activeOrderPlacedAt.get
  expirationTimeMs := job.state.activeExpirationTimeMs.get
  makerAddress := toLowerCase setup.engine.platform setup.makerAddress

def recordCancellation (rows : OfferCancellations) (snapshot : OfferCancellationSnapshot) (write : RowWrite) :
    OfferCancellations :=
  if setup.hasRuntimeStatePort then
    write.apply rows (upsertOfferCancellation setup.engine.platform rows write.scope snapshot write.isoTime)
  else rows

/-- What the bidder records of an answered cancellation. -/
def settledState (requestedAt : String) (answer : Except String Unit) (answeredAt : String) : CancellationState :=
  match answer with
  | .ok () => ⟨requestedAt, some answeredAt, none⟩
  | .error message => ⟨requestedAt, none, some message⟩

/-- The own offers among the candidates of `cancelActiveOffersForJob`. -/
def ownCandidates (job : ScheduledJob) (trackedOrderId : Option String) : List Order → Except String (List Order)
  | [] => .ok []
  | offer :: rest => do
    let isOwn ←
      if isMakerOffer setup offer then do
        let isManaged ← isOfferManagedByJob setup.engine job offer
        pure (isManaged || decide (some offer.id = trackedOrderId))
      else pure false
    let own ← ownCandidates job trackedOrderId rest
    return if isOwn then offer :: own else own

/-- The tracked order of `cancelActiveOffersForJob`: from the market, or looked up. -/
def findTrackedOrder (market : MarketOffers) (lookup : DirectLookup) (nowMs : Rat)
    (activeId : String) : Except String (Option Order) :=
  match market.offers.find? (fun offer => offer.id = activeId) with
  | some foundInMarket => .ok (some foundInMarket)
  | none => do
    match ← getOrder setup.engine activeId job.state.activeProtocolAddress.get job.collectionAddress lookup nowMs with
    | .active order _ => return some order
    | .inactiveOrMissing => return none
    | .inconclusive reason => .error reason

/-- The tracked order was looked up, and no active order found. -/
def lookedUpTracked (market : MarketOffers) (lookup : DirectLookup) (nowMs : Rat)
    (activeId : String) : Bool :=
  match truthyText job.state.activeProtocolAddress.get, findTrackedOrder setup job market lookup nowMs activeId with
  | some _, .ok none => true
  | _, _ => false

/-- The tracked order that `cancelActiveOffersForJob` takes for absent: no candidate is its own. -/
def absentTrackedOrder (market : MarketOffers) (lookup : DirectLookup) (nowMs : Rat) : Option String :=
  match truthyText job.state.activeOrderId.get with
  | none => none
  | some activeId =>
    let own := do
      let trackedOrder ← findTrackedOrder setup job market lookup nowMs activeId
      let candidates := match trackedOrder with
        | some order => if market.offers.any (·.id = order.id) then market.offers else market.offers ++ [order]
        | none => market.offers
      ownCandidates setup job (some activeId) candidates
    match own with
    | .ok [] => some activeId
    | _ => none

/-- `restoreTerminalFailureIfAvailable`. -/
def restoreTerminalFailure (rows : OfferCancellations) (record : RecoverableOfferCancellation) (write : RowWrite) :
    OfferCancellations :=
  if truthyText record.cancellationError ≠ none ∨ record.hasTerminalCommand = false then rows
  else
    write.apply rows (markOfferCancellationFailed rows record.jobId record.orderId
      (record.terminalCommandError.getD "Cancellation command finished before the offer cancellation was settled")
      write.isoTime)

section

variable (record : RecoverableOfferCancellation)

def shouldRetryCancellation (nowMs : Rat) : Bool :=
  match record.expirationTimeMs with
  | none => true
  | some expirationTimeMs => nowMs < expirationTimeMs

def mergeRecoveredOrder (recoveredOrder : Order) : Order :=
  { recoveredOrder with
    protocolAddress := coalesce recoveredOrder.protocolAddress record.protocolAddress
    placedAt := coalesce recoveredOrder.placedAt record.placedAt
    expirationTime := coalesce recoveredOrder.expirationTime
      (record.expirationTimeMs.map fun expirationTimeMs => ⌊expirationTimeMs / 1000⌋) }

/-- The next record of a batch, while records are accepted. -/
def nextRecord (acceptingRecords : Bool) : List RecoverableOfferCancellation → RecoveryPhase
  | [] => .idle
  | record :: rest => if acceptingRecords then .lookingUp record rest else .idle

/-- A lookup that was made and found no active order. -/
def lookupFacts : List CancellationFact :=
  match truthyText record.protocolAddress with
  | some _ => [.foundInactive record.orderId]
  | none => []

end

def stepLookedUp (w : CancellationWorld) (record : RecoverableOfferCancellation)
    (rest : List RecoverableOfferCancellation) (lookup : DirectLookup) (nowMs : Rat) (write : RowWrite) :
    CancellationWorld :=
  let next := nextRecord w.acceptingRecords rest
  match getOrder setup.engine record.orderId record.protocolAddress record.collectionAddress lookup nowMs with
  | .error _ => { w with phase := next }
  | .ok .inactiveOrMissing => { w with
      phase := next
      rows := write.apply w.rows (markOfferCancellationCompleted w.rows record.jobId record.orderId write.isoTime)
      facts := lookupFacts record ++ w.facts }
  | .ok (.active order _) =>
    if config.dryRun then { w with phase := next, rows := restoreTerminalFailure w.rows record write }
    else if shouldRetryCancellation record nowMs then
      { w with phase := .retrying record (mergeRecoveredOrder record order) rest }
    else { w with phase := next, rows := restoreTerminalFailure w.rows record write }
  | .ok (.inconclusive _) => { w with phase := next, rows := restoreTerminalFailure w.rows record write }

/-- What `retryActiveCancellation` does once the cancellation is answered: a completion that cannot be written
counts as a failure. -/
def stepRetried (w : CancellationWorld) (record : RecoverableOfferCancellation) (order : Order)
    (rest : List RecoverableOfferCancellation) (answer : Except String Unit) (completedWrite failedWrite : RowWrite) :
    CancellationWorld :=
  let fail (message : String) := failedWrite.apply w.rows
    (markOfferCancellationFailed w.rows record.jobId record.orderId message failedWrite.isoTime)
  let next := nextRecord w.acceptingRecords rest
  match answer with
  | .error message => { w with phase := next, rows := fail message }
  | .ok () => { w with
      phase := next
      rows := match completedWrite.failure with
        | none => markOfferCancellationCompleted w.rows record.jobId record.orderId completedWrite.isoTime
        | some message => fail message
      facts := .cancelled order.id :: w.facts }

def cancellationStep (w : CancellationWorld) : CancellationEvent → CancellationWorld
  | .requested job order write =>
    if setup.isDryRun then w
    else { w with
      calls := w.calls ++ [⟨job, order, write.isoTime⟩]
      rows := recordCancellation setup w.rows (jobOfferCancellation setup job order ⟨write.isoTime, none, none⟩) write }
  | .answered index answer write =>
    match w.calls[index]? with
    | none => w
    | some call => { w with
        calls := w.calls.eraseIdx index
        rows := recordCancellation setup w.rows
          (jobOfferCancellation setup call.job call.order (settledState call.requestedAt answer write.isoTime)) write
        facts := match answer with
          | .ok () => .cancelled call.order.id :: w.facts
          | .error _ => w.facts }
  | .trackedOrderChecked job market lookup nowMs write =>
    match absentTrackedOrder setup job market lookup nowMs with
    | none => w
    | some activeOrderId => { w with
        rows := recordCancellation setup w.rows
          (trackedOrderCancellation setup job activeOrderId ⟨write.isoTime, some write.isoTime, none⟩) write
        facts := if lookedUpTracked setup job market lookup nowMs activeOrderId then
            .foundInactive activeOrderId :: w.facts
          else w.facts }
  | .commandFailed jobId orderId message write => { w with
      rows := write.apply w.rows (markOfferCancellationFailed w.rows jobId orderId message write.isoTime) }
  | .batchListed view retryCutoff =>
    match w.phase with
    | .idle => { w with
        phase := if w.acceptingRecords then nextRecord true
            (listRecoverableOfferCancellations w.rows view config.chainId config.batchSize retryCutoff)
          else .idle }
    | _ => w
  | .lookedUp lookup nowMs write =>
    match w.phase with
    | .lookingUp record rest => stepLookedUp setup config w record rest lookup nowMs write
    | _ => w
  | .retried answer completedWrite failedWrite =>
    match w.phase with
    | .retrying record order rest => stepRetried w record order rest answer completedWrite failedWrite
    | _ => w
  | .admissionClosed => { w with acceptingRecords := false }
  | .restarted => { w with calls := [], phase := .idle, acceptingRecords := true }

end Step

/-! ## 4. Lawful rows -/

/-- The order is gone: its cancellation succeeded, or a lookup found it inactive. -/
def ProvenGone (facts : List CancellationFact) (orderId : String) : Prop :=
  .cancelled orderId ∈ facts ∨ .foundInactive orderId ∈ facts

instance (facts : List CancellationFact) (orderId : String) : Decidable (ProvenGone facts orderId) := by
  unfold ProvenGone
  infer_instance

/-- **A completed row has no error, and its order is gone.** -/
def LawfulRows (rows : OfferCancellations) (facts : List CancellationFact) : Prop :=
  ∀ orderId row, rows.get? orderId = some row → row.completedAt ≠ none →
    row.cancellationError = none ∧ ProvenGone facts orderId

/-- **A completed row stays completed, since the same time.** -/
def KeepsCompleted (rows rows' : OfferCancellations) : Prop :=
  ∀ orderId row completedAt, rows.get? orderId = some row → row.completedAt = some completedAt →
    ∃ row', rows'.get? orderId = some row' ∧ row'.completedAt = some completedAt

/-- A write of these values leaves a completed row as it is. -/
def settlesAlike (rows : OfferCancellations) (orderId : String) (completedAt cancellationError : Option String) : Bool :=
  match (rows.get? orderId).bind (·.completedAt) with
  | some settledAt => cancellationError.isNone && completedAt.all (· = settledAt)
  | none => true

variable {facts : List CancellationFact} {rows : OfferCancellations} {order : Order}
  {w : CancellationWorld} {write : RowWrite} {rest : List RecoverableOfferCancellation}
  {record : RecoverableOfferCancellation}

variable {facts' : List CancellationFact} {collectionAddress orderId : String}
  {snapshot : OfferCancellationSnapshot} {engine : OfferEngine} {lookup : DirectLookup}
  {nowMs : Rat} {answer : Except String Unit}

theorem ProvenGone.mono (h : ProvenGone facts orderId)
    (hsub : ∀ fact ∈ facts, fact ∈ facts') : ProvenGone facts' orderId :=
  h.imp (hsub _) (hsub _)

theorem LawfulRows.mono (h : LawfulRows rows facts)
    (hsub : ∀ fact ∈ facts, fact ∈ facts') : LawfulRows rows facts' :=
  fun orderId row hrow hcompleted => (h orderId row hrow hcompleted).imp_right fun hgone => hgone.mono hsub

theorem KeepsCompleted.refl (rows : OfferCancellations) : KeepsCompleted rows rows :=
  fun _ row _ hrow hcompleted => ⟨row, hrow, hcompleted⟩

theorem KeepsCompleted.trans {a b c : OfferCancellations} (h : KeepsCompleted a b) (h' : KeepsCompleted b c) :
    KeepsCompleted a c := by
  intro orderId row completedAt hrow hcompleted
  obtain ⟨row', hrow', hcompleted'⟩ := h orderId row completedAt hrow hcompleted
  exact h' orderId row' completedAt hrow' hcompleted'

theorem settlesAlike_pending (rows : OfferCancellations) (orderId : String) :
    settlesAlike rows orderId none none = true := by
  unfold settlesAlike
  split <;> rfl

/-- What a write may do to lawful rows. -/
structure Settles (rows rows' : OfferCancellations) (facts : List CancellationFact) : Prop where
  lawful : LawfulRows rows facts → LawfulRows rows' facts
  keeps : KeepsCompleted rows rows'

theorem Settles.refl (rows : OfferCancellations) (facts : List CancellationFact) : Settles rows rows facts :=
  ⟨id, .refl rows⟩

theorem settles_apply {written : OfferCancellations}
    (h : write.failure = none → Settles rows written facts) : Settles rows (write.apply rows written) facts := by
  unfold RowWrite.apply
  split
  · next hwritten => exact h hwritten
  · exact .refl rows facts

theorem settles_failed (rows : OfferCancellations) (facts : List CancellationFact)
    (jobId orderId cancellationError updatedAt : String) :
    Settles rows (markOfferCancellationFailed rows jobId orderId cancellationError updatedAt) facts := by
  unfold markOfferCancellationFailed
  constructor
  · intro h orderId' row' hrow' hcompleted
    rw [Table.get?_updateWhere, Option.map_eq_some_iff] at hrow'
    obtain ⟨row, hrow, rfl⟩ := hrow'
    split at hcompleted
    · exact absurd rfl hcompleted
    · next hskip =>
      rw [if_neg hskip]
      exact h orderId' row hrow hcompleted
  · intro orderId' row completedAt hrow hcompleted
    refine ⟨row, ?_, hcompleted⟩
    rw [Table.get?_updateWhere, hrow, Option.map_some, if_neg]
    rw [decide_eq_true_eq]
    rintro ⟨-, -, hnone⟩
    rw [hcompleted] at hnone
    cases hnone

theorem settles_completed {jobId completedAt : String}
    (halike : settlesAlike rows orderId (some completedAt) none = true) (hgone : ProvenGone facts orderId) :
    Settles rows (markOfferCancellationCompleted rows jobId orderId completedAt) facts := by
  unfold markOfferCancellationCompleted
  constructor
  · intro h orderId' row' hrow' hcompleted
    rw [Table.get?_updateWhere, Option.map_eq_some_iff] at hrow'
    obtain ⟨row, hrow, rfl⟩ := hrow'
    split at hcompleted
    · next hmark =>
      rw [if_pos hmark]
      have hid : orderId' = orderId :=
        (Table.get?_eq_some.mp hrow).2.symm.trans (of_decide_eq_true hmark).2
      exact ⟨rfl, hid ▸ hgone⟩
    · next hskip =>
      rw [if_neg hskip]
      exact h orderId' row hrow hcompleted
  · intro orderId' row settledAt hrow hcompleted
    rw [Table.get?_updateWhere, hrow, Option.map_some]
    refine ⟨_, rfl, ?_⟩
    split
    · next hmark =>
      have hid : orderId' = orderId :=
        (Table.get?_eq_some.mp hrow).2.symm.trans (of_decide_eq_true hmark).2
      unfold settlesAlike at halike
      rw [← hid, hrow, Option.bind_some, hcompleted] at halike
      exact congrArg some (of_decide_eq_true halike)
    · exact hcompleted

/-- The upsert of the bidder keeps the law where it leaves completed rows as they are, and completes rows of
orders that are gone. -/
theorem settles_upsert {platform : Platform}
    {scope : Option JobScope} {updatedAt : String}
    (halike : scope ≠ none →
      settlesAlike rows snapshot.orderId snapshot.completedAt snapshot.cancellationError = true)
    (hgone : scope ≠ none → snapshot.completedAt ≠ none →
      snapshot.cancellationError = none ∧ ProvenGone facts snapshot.orderId) :
    Settles rows (upsertOfferCancellation platform rows scope snapshot updatedAt) facts := by
  unfold upsertOfferCancellation
  cases scope with
  | none => exact .refl rows facts
  | some scope =>
    have halike := halike (Option.some_ne_none scope)
    have hgone := hgone (Option.some_ne_none scope)
    constructor
    · intro h orderId' row' hrow' hcompleted
      rw [Table.get?_upsert] at hrow'
      split at hrow'
      · next hid =>
        have hid : snapshot.orderId = orderId' := hid
        subst hid
        cases hrow : rows.get? snapshot.orderId with
        | none =>
          rw [hrow] at hrow'
          cases hrow'
          exact hgone hcompleted
        | some row =>
          rw [hrow] at hrow'
          cases hrow'
          dsimp only [Option.elim] at hcompleted ⊢
          cases hsnapshot : snapshot.completedAt with
          | some completedAt => exact hgone (hsnapshot ▸ Option.some_ne_none completedAt)
          | none =>
            rw [hsnapshot] at hcompleted
            have hrowCompleted : row.completedAt ≠ none := hcompleted
            obtain ⟨settledAt, hsettled⟩ := Option.ne_none_iff_exists'.mp hrowCompleted
            unfold settlesAlike at halike
            rw [hrow, Option.bind_some, hsettled, Bool.and_eq_true] at halike
            exact ⟨Option.isNone_iff_eq_none.mp halike.1, (h _ row hrow hrowCompleted).2⟩
      · exact h orderId' row' hrow' hcompleted
    · intro orderId' row settledAt hrow hcompleted
      rw [Table.get?_upsert, hrow]
      split
      · next hid =>
        have hid : snapshot.orderId = orderId' := hid
        subst hid
        refine ⟨_, rfl, ?_⟩
        unfold settlesAlike at halike
        rw [hrow, Option.bind_some, hcompleted, Bool.and_eq_true] at halike
        dsimp only [Option.elim]
        cases hsnapshot : snapshot.completedAt with
        | none => exact hcompleted
        | some completedAt =>
          rw [hsnapshot] at halike
          exact congrArg some (of_decide_eq_true halike.2)
      · exact ⟨row, rfl, hcompleted⟩

/-! ## 5. Runs -/

/-- The record of the bidder writes a row. -/
def recordsRow (setup : BidderSetup) (write : RowWrite) : Bool :=
  setup.hasRuntimeStatePort && write.failure.isNone && write.scope.isSome

/-- **The step completes no row that is completed already at another time or whose order may be live, and
leaves no error in a completed row:** the bidder does not record an answer for an order that was completed while
it waited, an order without a protocol address is not taken for gone, and an order of another maker is not
either. -/
def cancellationStepMeets (setup : BidderSetup) (w : CancellationWorld) : CancellationEvent → Bool
  | .answered index answer write =>
    match w.calls[index]? with
    | none => true
    | some call =>
      let state := settledState call.requestedAt answer write.isoTime
      !recordsRow setup write || settlesAlike w.rows call.order.id state.completedAt state.cancellationError
  | .trackedOrderChecked job market lookup nowMs write =>
    match absentTrackedOrder setup job market lookup nowMs with
    | none => true
    | some activeOrderId =>
      let isGone : Bool := lookedUpTracked setup job market lookup nowMs activeOrderId ∨
        ProvenGone w.facts activeOrderId
      !recordsRow setup write || (isGone && settlesAlike w.rows activeOrderId (some write.isoTime) none)
  | .lookedUp lookup nowMs write =>
    match w.phase with
    | .lookingUp record _ =>
      match getOrder setup.engine record.orderId record.protocolAddress record.collectionAddress lookup nowMs with
      | .ok .inactiveOrMissing =>
        let isGone : Bool := truthyText record.protocolAddress ≠ none ∨ ProvenGone w.facts record.orderId
        write.failure.isSome || (isGone && settlesAlike w.rows record.orderId (some write.isoTime) none)
      | _ => true
    | _ => true
  | .retried answer completedWrite _ =>
    match w.phase, answer with
    | .retrying record _ _, .ok () =>
      completedWrite.failure.isSome || settlesAlike w.rows record.orderId (some completedWrite.isoTime) none
    | _, _ => true
  | _ => true

variable {setup : BidderSetup} {config : RecoveryConfig}

theorem settles_record (halike : recordsRow setup write = true →
      settlesAlike rows snapshot.orderId snapshot.completedAt snapshot.cancellationError = true)
    (hgone : recordsRow setup write = true → snapshot.completedAt ≠ none →
      snapshot.cancellationError = none ∧ ProvenGone facts snapshot.orderId) :
    Settles rows (recordCancellation setup rows snapshot write) facts := by
  unfold recordCancellation
  split
  · next hport =>
    refine settles_apply fun hwritten => ?_
    have hrecords : write.scope ≠ none → recordsRow setup write = true := by
      intro hscope
      unfold recordsRow
      rw [hport, hwritten, Option.isSome_iff_ne_none.mpr hscope]
      rfl
    exact settles_upsert (fun hscope => halike (hrecords hscope)) fun hscope => hgone (hrecords hscope)
  · exact .refl rows facts

theorem parseRawOffer_hash {raw : Value}
    {source : OfferDiscoverySource}
    (h : parseRawOffer engine raw collectionAddress source = .ok (some order)) :
    getOpenSeaOrderHash raw = some order.id := by
  unfold parseRawOffer at h
  split at h
  · cases h
  split at h
  · next orderHash maker price hhash _ _ =>
    obtain ⟨scope, -, h⟩ := bind_eq_ok.mp h
    obtain ⟨criteria, -, h⟩ := bind_eq_ok.mp h
    obtain ⟨traits, -, h⟩ := bind_eq_ok.mp h
    cases h
    exact hhash
  · cases h

theorem getOrder_active_id {orderHash : String}
    {protocolAddress : Option String} {hnamed : order.id ≠ ""}
    (h : getOrder engine orderHash protocolAddress collectionAddress lookup nowMs = .ok (.active order hnamed)) :
    order.id = orderHash := by
  unfold getOrder at h
  split at h
  · cases h
  split at h
  · split at h <;> cases h
  split at h
  · cases h
  next hhash =>
  rw [not_not] at hhash
  split at h
  · cases h
  · cases h
  next parsed hparsed =>
  have hid := (parseRawOffer_hash hparsed).symm.trans hhash
  split at h
  · split at h
    · cases h
    · cases h
      exact Option.some.inj hid
  · split at h
    · cases h
    · cases h
      exact Option.some.inj hid

/-- **What holds between steps:** the rows are lawful, and the order that is being cancelled again is the one of
the record. -/
structure CancellationInv (w : CancellationWorld) : Prop where
  lawful : LawfulRows w.rows w.facts
  retrying : ∀ record order rest, w.phase = .retrying record order rest → order.id = record.orderId

theorem CancellationInv.start : CancellationInv .start :=
  ⟨fun _ _ hrow => (nomatch hrow), fun _ _ _ hphase => (nomatch hphase)⟩

theorem nextRecord_ne_retrying {acceptingRecords : Bool} {records : List RecoverableOfferCancellation}
    :
    nextRecord acceptingRecords records ≠ .retrying record order rest := by
  intro h
  cases records with
  | nil => cases h
  | cons first others =>
    cases acceptingRecords with
    | true => cases h
    | false => cases h

theorem CancellationInv.of_settles {w' : CancellationWorld} (h : CancellationInv w)
    (hrows : Settles w.rows w'.rows w'.facts) (hfacts : ∀ fact ∈ w.facts, fact ∈ w'.facts)
    (hphase : ∀ record order rest, w'.phase = .retrying record order rest → order.id = record.orderId) :
    CancellationInv w' ∧ KeepsCompleted w.rows w'.rows :=
  ⟨⟨hrows.lawful (h.lawful.mono hfacts), hphase⟩, hrows.keeps⟩

theorem settles_restore (rows : OfferCancellations) (facts : List CancellationFact)
    (record : RecoverableOfferCancellation) (write : RowWrite) :
    Settles rows (restoreTerminalFailure rows record write) facts := by
  unfold restoreTerminalFailure
  split
  · exact .refl rows facts
  · exact settles_apply fun _ => settles_failed rows facts _ _ _ _

theorem CancellationInv.lookedUp (h : CancellationInv w) (hphase : w.phase = .lookingUp record rest)
    (hmeets : cancellationStepMeets setup w (.lookedUp lookup nowMs write) = true) :
    CancellationInv (stepLookedUp setup config w record rest lookup nowMs write) ∧
      KeepsCompleted w.rows (stepLookedUp setup config w record rest lookup nowMs write).rows := by
  have hnext : ∀ record' order' rest', nextRecord w.acceptingRecords rest = .retrying record' order' rest' →
      order'.id = record'.orderId := fun _ _ _ heq => absurd heq nextRecord_ne_retrying
  have hrestore : ∀ {w' : CancellationWorld}, w' = { w with
        phase := nextRecord w.acceptingRecords rest
        rows := restoreTerminalFailure w.rows record write } →
      CancellationInv w' ∧ KeepsCompleted w.rows w'.rows := by
    rintro w' rfl
    exact h.of_settles (settles_restore w.rows w.facts record write) (fun _ hfact => hfact) hnext
  unfold cancellationStepMeets at hmeets
  rw [hphase] at hmeets
  dsimp only at hmeets
  unfold stepLookedUp
  dsimp only
  obtain ⟨found, hfound⟩ : ∃ found, getOrder setup.engine record.orderId record.protocolAddress
    record.collectionAddress lookup nowMs = found := ⟨_, rfl⟩
  rw [hfound] at hmeets ⊢
  cases found with
  | error message => exact h.of_settles (.refl _ _) (fun _ hfact => hfact) hnext
  | ok recovery =>
    cases recovery with
    | inconclusive reason => exact hrestore rfl
    | active order hnamed =>
      dsimp only
      split
      · exact hrestore rfl
      split
      · refine h.of_settles (.refl _ _) (fun _ hfact => hfact) fun record' order' rest' heq => ?_
        cases heq
        exact (show order.id = record.orderId from getOrder_active_id hfound)
      · exact hrestore rfl
    | inactiveOrMissing =>
      dsimp only at hmeets
      rw [Bool.or_eq_true, Bool.and_eq_true, decide_eq_true_eq] at hmeets
      refine h.of_settles ?_ (fun _ hfact => List.mem_append_right _ hfact) hnext
      refine settles_apply fun hwritten => ?_
      rcases hmeets with hfailed | ⟨hgone, halike⟩
      · rw [hwritten] at hfailed
        cases hfailed
      refine settles_completed halike ?_
      rcases hgone with hlooked | hgone
      · obtain ⟨address, haddress⟩ := Option.ne_none_iff_exists'.mp hlooked
        unfold lookupFacts
        rw [haddress]
        exact .inr List.mem_cons_self
      · exact hgone.mono fun _ hfact => List.mem_append_right _ hfact

theorem CancellationInv.retried (h : CancellationInv w) (hphase : w.phase = .retrying record order rest)
    {completedWrite failedWrite : RowWrite}
    (hmeets : cancellationStepMeets setup w (.retried answer completedWrite failedWrite) = true) :
    CancellationInv (stepRetried w record order rest answer completedWrite failedWrite) ∧
      KeepsCompleted w.rows (stepRetried w record order rest answer completedWrite failedWrite).rows := by
  have hnext : ∀ record' order' rest', nextRecord w.acceptingRecords rest = .retrying record' order' rest' →
      order'.id = record'.orderId := fun _ _ _ heq => absurd heq nextRecord_ne_retrying
  have hfail : ∀ (facts : List CancellationFact) (message : String), Settles w.rows (failedWrite.apply w.rows
      (markOfferCancellationFailed w.rows record.jobId record.orderId message failedWrite.isoTime)) facts :=
    fun facts message => settles_apply fun _ => settles_failed w.rows facts _ _ _ _
  cases answer with
  | error message => exact h.of_settles (hfail w.facts message) (fun _ hfact => hfact) hnext
  | ok u =>
    refine h.of_settles ?_ (fun _ hfact => List.mem_cons_of_mem _ hfact) hnext
    unfold cancellationStepMeets at hmeets
    rw [hphase] at hmeets
    dsimp only [stepRetried] at hmeets ⊢
    cases hwritten : completedWrite.failure with
    | some message => exact hfail _ message
    | none =>
      rw [hwritten] at hmeets
      refine settles_completed hmeets (.inl ?_)
      rw [← h.retrying record order rest hphase]
      exact List.mem_cons_self

theorem settledState_lawful {requestedAt answeredAt : String}
    (h : (settledState requestedAt answer answeredAt).completedAt ≠ none) :
    answer = .ok () ∧ (settledState requestedAt answer answeredAt).cancellationError = none := by
  cases answer with
  | ok u => exact ⟨rfl, rfl⟩
  | error message => exact absurd rfl h

/-- **Steps that meet the condition keep the rows lawful,** and completed rows completed. -/
theorem cancellationStep_inv (h : CancellationInv w) {event : CancellationEvent}
    (hmeets : cancellationStepMeets setup w event = true) :
    CancellationInv (cancellationStep setup config w event) ∧
      KeepsCompleted w.rows (cancellationStep setup config w event).rows := by
  have hsame : CancellationInv w ∧ KeepsCompleted w.rows w.rows := ⟨h, .refl w.rows⟩
  cases event with
  | requested job order write =>
    unfold cancellationStep
    dsimp only
    split
    · exact hsame
    · exact h.of_settles (settles_record (fun _ => settlesAlike_pending _ _) fun _ hcompleted => absurd rfl hcompleted)
        (fun _ hfact => hfact) h.retrying
  | answered index answer write =>
    unfold cancellationStepMeets at hmeets
    unfold cancellationStep
    dsimp only at hmeets ⊢
    cases hcall : w.calls[index]? with
    | none => exact hsame
    | some call =>
      rw [hcall] at hmeets
      refine h.of_settles (settles_record (fun hrecords => ?_) fun _ hcompleted => ?_) (fun fact hfact => ?_) h.retrying
      · dsimp only at hmeets
        rw [hrecords] at hmeets
        exact hmeets
      · obtain ⟨rfl, herror⟩ := settledState_lawful hcompleted
        exact ⟨herror, .inl List.mem_cons_self⟩
      · cases answer with
        | ok u => exact List.mem_cons_of_mem _ hfact
        | error message => exact hfact
  | trackedOrderChecked job market lookup nowMs write =>
    unfold cancellationStepMeets at hmeets
    unfold cancellationStep
    dsimp only at hmeets ⊢
    cases habsent : absentTrackedOrder setup job market lookup nowMs with
    | none => exact hsame
    | some activeOrderId =>
      rw [habsent] at hmeets
      dsimp only at hmeets ⊢
      rw [Bool.or_eq_true, Bool.and_eq_true, decide_eq_true_eq] at hmeets
      have hnow : recordsRow setup write = true →
          (lookedUpTracked setup job market lookup nowMs activeOrderId = true ∨ ProvenGone w.facts activeOrderId) ∧
            settlesAlike w.rows activeOrderId (some write.isoTime) none = true := by
        intro hrecords
        rw [hrecords] at hmeets
        exact hmeets.resolve_left Bool.false_ne_true
      refine h.of_settles (settles_record (fun hrecords => (hnow hrecords).2) fun hrecords _ => ⟨rfl, ?_⟩)
        (fun fact hfact => ?_) h.retrying
      · rcases (hnow hrecords).1 with hlooked | hgone
        · rw [if_pos hlooked]
          exact .inr List.mem_cons_self
        · split
          · exact hgone.mono fun _ hfact => List.mem_cons_of_mem _ hfact
          · exact hgone
      · split
        · exact List.mem_cons_of_mem _ hfact
        · exact hfact
  | commandFailed jobId orderId message write =>
    exact h.of_settles (settles_apply fun _ => settles_failed w.rows w.facts _ _ _ _) (fun _ hfact => hfact) h.retrying
  | batchListed view retryCutoff =>
    unfold cancellationStep
    dsimp only
    split
    · refine h.of_settles (.refl _ _) (fun _ hfact => hfact) fun record order rest heq => ?_
      dsimp only at heq
      split at heq
      · exact absurd heq nextRecord_ne_retrying
      · cases heq
    · exact hsame
  | lookedUp lookup nowMs write =>
    unfold cancellationStep
    dsimp only
    split
    · next record rest hphase => exact h.lookedUp hphase hmeets
    · exact hsame
  | retried answer completedWrite failedWrite =>
    unfold cancellationStep
    dsimp only
    split
    · next record order rest hphase => exact h.retried hphase hmeets
    · exact hsame
  | admissionClosed => exact h.of_settles (.refl _ _) (fun _ hfact => hfact) h.retrying
  | restarted =>
    exact h.of_settles (.refl _ _) (fun _ hfact => hfact) fun _ _ _ hphase => nomatch hphase

/-- **Completed rows are settled in every run whose steps meet the condition:** they carry no error, their orders
are gone, and from any moment of the run to its end they stay completed since the same time. -/
theorem completed_cancellations_settled {before after : List CancellationEvent}
    (hmeets : Machine.meetsThroughout (cancellationStepMeets setup) (cancellationStep setup config) .start
      (before ++ after) = true) :
    LawfulRows (Machine.run (cancellationStep setup config) .start (before ++ after)).rows
        (Machine.run (cancellationStep setup config) .start (before ++ after)).facts ∧
      KeepsCompleted (Machine.run (cancellationStep setup config) .start before).rows
        (Machine.run (cancellationStep setup config) .start (before ++ after)).rows := by
  obtain ⟨hbefore, hafter⟩ := Machine.meetsThroughout_append.mp hmeets
  have hreached : CancellationInv (Machine.run (cancellationStep setup config) .start before) :=
    Machine.run_invariant_of_meets (fun w _ (h : CancellationInv w) hok => (cancellationStep_inv h hok).1) .start hbefore
  rw [Machine.run_append]
  generalize Machine.run (cancellationStep setup config) .start before = w at hreached hafter
  -- what the rest of the run does to the rows of this moment
  have hrest : CancellationInv (Machine.run (cancellationStep setup config) w after) ∧
      KeepsCompleted w.rows (Machine.run (cancellationStep setup config) w after).rows :=
    Machine.run_invariant_of_meets (fun w' _ (h : CancellationInv w' ∧ KeepsCompleted w.rows w'.rows) hok =>
        (cancellationStep_inv h.1 hok).imp id fun hkeeps => h.2.trans hkeeps)
      ⟨hreached, .refl w.rows⟩ hafter
  exact ⟨hrest.1.lawful, hrest.2⟩

/-- A write to the row of a job, at this time. -/
def writeAt (isoTime : String) : RowWrite := ⟨some ⟨1, 1⟩, isoTime, none⟩

/-- Every row is listed. -/
def openView : CancellationView := ⟨fun _ => some 0, fun _ => some ⟨"0xc0", none, false⟩⟩

def recoveryConfig : RecoveryConfig := ⟨1, 10, false⟩

/-- An offer is cancelled in vain, and the recovery finds it active and cancels it again while the bidder does
too. -/
def cancelledTwice : List CancellationEvent :=
  [.requested tokenJob (tokenOffer "0xaa" 5 none) (writeAt "t1"), .answered 0 (.error "timeout") (writeAt "t2"),
    .batchListed openView "t3", .lookedUp (.answered (rawOfferWith 2 (.object []))) 0 (writeAt "t4"),
    .requested tokenJob (tokenOffer "0xaa" 5 none) (writeAt "t5"), .retried (.ok ()) (writeAt "t6") (writeAt "t6")]

/-- An offer without a protocol address cannot be cancelled, and the recovery has nothing to look up. -/
def neverCancelled : List CancellationEvent :=
  [.requested tokenJob { tokenOffer "0xaa" 5 none with protocolAddress := none } (writeAt "t1"),
    .answered 0 (.error "Missing protocolAddress for offchain cancellation") (writeAt "t2"),
    .batchListed openView "t3", .lookedUp (.failed false) 0 (writeAt "t4")]

theorem completed_after_cancellation :
    LawfulRows (Machine.run (cancellationStep makerSetup recoveryConfig) .start (cancelledTwice ++ [])).rows
        (Machine.run (cancellationStep makerSetup recoveryConfig) .start (cancelledTwice ++ [])).facts ∧
      KeepsCompleted (Machine.run (cancellationStep makerSetup recoveryConfig) .start cancelledTwice).rows
        (Machine.run (cancellationStep makerSetup recoveryConfig) .start (cancelledTwice ++ [])).rows :=
  completed_cancellations_settled rfl

/-- **A completed row takes an error, or moves, when the bidder waits for the same cancellation;** and an order
that nothing is known of is completed when it has no protocol address. -/
theorem completed_row_breaks : (∃ row, (Machine.run (cancellationStep makerSetup recoveryConfig) .start
        (cancelledTwice ++ [.answered 0 (.error "gone") (writeAt "t7")])).rows.get? "0xaa" = some row ∧
      row.completedAt = some "t6" ∧ row.cancellationError = some "gone") ∧
    (∃ row row', (Machine.run (cancellationStep makerSetup recoveryConfig) .start cancelledTwice).rows.get? "0xaa" =
        some row ∧ row.completedAt = some "t6" ∧
      (Machine.run (cancellationStep makerSetup recoveryConfig) .start
        (cancelledTwice ++ [.answered 0 (.ok ()) (writeAt "t7")])).rows.get? "0xaa" = some row' ∧
      row'.completedAt = some "t7") ∧
    ∃ row, (Machine.run (cancellationStep makerSetup recoveryConfig) .start neverCancelled).rows.get? "0xaa" = some row ∧
      row.completedAt = some "t4" ∧
      ¬ ProvenGone (Machine.run (cancellationStep makerSetup recoveryConfig) .start neverCancelled).facts "0xaa" := by
  have hfacts : (Machine.run (cancellationStep makerSetup recoveryConfig) .start neverCancelled).facts = [] := rfl
  refine ⟨⟨_, rfl, rfl, rfl⟩, ⟨_, _, rfl, rfl, rfl, rfl⟩, _, rfl, rfl, ?_⟩
  rw [hfacts]
  decide

end Artgod.Trading
