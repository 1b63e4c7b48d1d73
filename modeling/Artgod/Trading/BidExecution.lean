/-
# Executing a bidding job

One run of the strategy reads the market for a job, works out the bid it wants, and keeps one of the job's own
offers, replaces them, or takes them down; a new offer is placed and stored before the old ones are cancelled.
A run asks the marketplace, the database and the clock, and its events are what it asked for.
-/
import Artgod.Machine.Attempts
import Artgod.Trading.BidPricing
import Artgod.Trading.OfferRecognition

namespace Artgod.Trading

open Js Machine

/-! ## 1. The bidder and what it asks -/

/-- `RuntimeJobOverride`, while it has not expired. -/
structure RuntimeOverride where
  floor : Int
  ceiling : Int

/-- What the bidder holds besides the job. -/
structure BidderSetup where
  engine : OfferEngine
  makerAddress : String
  isDryRun : Bool
  scanSleepMs : Rat
  cachedMakerWethBalance : Option Int
  runtimeOverride : Option RuntimeOverride
  hasRuntimeStatePort : Bool

/-- The offers that a read of the market gives: every order has a name and stands there once. -/
structure MarketOffers where
  offers : List Order
  named : ∀ offer ∈ offers, offer.id ≠ ""
  distinct : (offers.map Order.id).Nodup

/-- An offer that is not there yet. -/
def MarketOffers.addUniqueOffer (market : MarketOffers) (offer : Order) (hid : offer.id ≠ "") : MarketOffers :=
  if h : offer.id ∈ market.offers.map Order.id then market
  else {
    offers := market.offers ++ [offer]
    named := by
      intro o ho
      rcases List.mem_append.mp ho with ho | ho
      · exact market.named o ho
      · exact List.mem_singleton.mp ho ▸ hid
    distinct := by
      rw [List.map_append, List.nodup_append]
      refine ⟨market.distinct, List.nodup_singleton _, fun a ha b hb => ?_⟩
      rw [List.map_singleton, List.mem_singleton] at hb
      rintro rfl
      exact h (hb ▸ ha) }

theorem nonBlank_ne_empty {value : Value} {text : String} (h : nonBlank value = some text) : text ≠ "" := by
  cases value with
  | string s =>
    unfold nonBlank at h
    dsimp only at h
    split at h
    · cases h
    next hblank =>
    cases h
    rintro rfl
    exact hblank (by decide)
  | _ => cases h

theorem getOpenSeaOrderHash_ne_empty {raw : Value} {orderHash : String}
    (h : getOpenSeaOrderHash raw = some orderHash) : orderHash ≠ "" := by
  unfold getOpenSeaOrderHash at h
  split at h
  · next hash hhash => exact Option.some.inj h ▸ nonBlank_ne_empty hhash
  · exact nonBlank_ne_empty h

theorem parseRawOffer_named {engine : OfferEngine} {raw : Value} {collectionAddress : String}
    {source : OfferDiscoverySource} {order : Order}
    (h : parseRawOffer engine raw collectionAddress source = .ok (some order)) : order.id ≠ "" := by
  unfold parseRawOffer at h
  split at h
  · cases h
  split at h
  · next orderHash maker price hhash _ _ =>
    obtain ⟨scope, -, h⟩ := bind_eq_ok.mp h
    obtain ⟨criteria, -, h⟩ := bind_eq_ok.mp h
    obtain ⟨traits, -, h⟩ := bind_eq_ok.mp h
    cases h
    exact getOpenSeaOrderHash_ne_empty hhash
  · cases h

/-- `BiddingOrderRecoveryResult`. -/
inductive OrderRecovery
  | active (order : Order) (named : order.id ≠ "")
  | inactiveOrMissing
  | inconclusive (reason : String)

/-- What the marketplace says of a placed offer. -/
structure PlacedOrder where
  orderHash : String
  protocolAddress : String
  placedAt : String
  expirationTime : Option Rat

/-- The answers of the outside; those that are asked for several times are given by the number of events before. -/
structure MarketAnswers where
  activeOffers : Except String MarketOffers
  recovery : Except String OrderRecovery
  placement : Except String PlacedOrder
  cancellation : Nat → Except String Unit
  persistence : Nat → Except String Unit
  recording : Nat → Except String Unit
  clock : Nat → Int
  isoTime : Nat → String

/-- The times and the error of a cancellation record. -/
structure CancellationState where
  requestedAt : String
  completedAt : Option String
  cancellationError : Option String

/-- `BiddingJobRuntimeStateSnapshot`. -/
structure RuntimeStateSnapshot where
  jobId : String
  jobRevision : Int
  currentPriceWei : Option Int
  activeOrderId : Option String
  activeProtocolAddress : Option String
  activeOrderPlacedAt : Option String
  activeOrderVerifiedAt : Option String
  activeExpirationTimeMs : Option Rat
  bidPosition : Option BidPosition
  bidConstraints : List BidConstraint
  competitorPriceWei : Option Int
  lastRunAt : Option Int
  lastError : Option String

/-- What a run asked for, and what came of it. -/
inductive BidEvent
  | placed (amount : Int) (answer : Except String PlacedOrder)
  | cancelled (order : Order) (answer : Except String Unit)
  | recorded (order : Order) (state : CancellationState) (answer : Except String Unit)
  | persisted (snapshot : RuntimeStateSnapshot) (required : Bool) (answer : Except String Unit)

/-- A run underway: its job, and what it did. -/
structure JobRun where
  job : ScheduledJob
  events : List BidEvent

abbrev Bidding := EStateM String JobRun

section Execution

variable (setup : BidderSetup) (answers : MarketAnswers)

/-- What the outside says at this moment. -/
def ask {α : Type} (answer : Nat → α) : Bidding α := do
  return answer (← get).events.length

def emit (event : BidEvent) : Bidding PUnit := modify fun run => { run with events := run.events ++ [event] }

def setState (change : BidderState → BidderState) : Bidding PUnit :=
  modify fun run => { run with job := { run.job with state := change run.job.state } }

/-! ## 2. Tracking -/

/-- A time that an order can expire at, in milliseconds. -/
def toExpirationTimeMs : Option Rat → Option Rat
  | some expirationTime => if expirationTime ≤ 0 then none else some ⌊expirationTime * 1000⌋
  | none => none

def resolveKnownExpirationTimeMs (state : BidderState) (order : Order) : Option Rat :=
  match toExpirationTimeMs order.expirationTime with
  | some expirationTimeMs => some expirationTimeMs
  | none => if state.activeOrderId.get = some order.id then state.activeExpirationTimeMs.get else none

inductive RenewalReason
  | expirationUnknown
  | withinRenewalWindow (remainingMs renewalWindowMs : Rat)

def getBidRenewalReason (state : BidderState) (now : Int) (order : Order) : Option RenewalReason :=
  match resolveKnownExpirationTimeMs state order with
  | none => some .expirationUnknown
  | some expirationTimeMs =>
    if setup.scanSleepMs * 2 ≤ expirationTimeMs - now then none
    else some (.withinRenewalWindow (expirationTimeMs - now) (setup.scanSleepMs * 2))

variable (job : ScheduledJob)

def runtimeStateSnapshot (lastError : Option String) : RuntimeStateSnapshot where
  jobId := job.id
  jobRevision := job.revision
  currentPriceWei := job.state.currentPrice.get
  activeOrderId := job.state.activeOrderId.get
  activeProtocolAddress := job.state.activeProtocolAddress.get
  activeOrderPlacedAt := job.state.activeOrderPlacedAt.get
  activeOrderVerifiedAt := job.state.activeOrderVerifiedAt.get
  activeExpirationTimeMs := job.state.activeExpirationTimeMs.get
  bidPosition := job.state.bidPosition.get
  bidConstraints := job.state.bidConstraints.get.getD []
  competitorPriceWei := job.state.competitorPrice.get
  lastRunAt := job.state.lastRun.get.bind fun lastRun => if lastRun = 0 then none else some lastRun
  lastError := lastError

/-- A state that cannot be stored only fails the run where it is required. -/
def persistJobRuntimeState (lastError : Option String) (required : Bool) : Bidding PUnit := do
  if setup.hasRuntimeStatePort then
    let answer ← ask answers.persistence
    emit (.persisted (runtimeStateSnapshot (← get).job lastError) required answer)
    if required then
      answered answer

def recordJobOfferCancellation (order : Order) (state : CancellationState) : Bidding PUnit := do
  if setup.hasRuntimeStatePort then
    let answer ← ask answers.recording
    emit (.recorded order state answer)

def resolveRuntimeBidPosition (ownPrice competitorPrice : Int) : BidPosition :=
  if ownPrice > competitorPrice then .winning
  else if ownPrice = competitorPrice then .draw
  else .losing

def resolveRuntimeBidConstraints (position : BidPosition) (ownPrice floor ceiling : Int) : List BidConstraint :=
  let isAtCeiling : Bool := ceiling > 0 ∧ ownPrice ≥ ceiling
  let isAtFloor : Bool := floor > 0 ∧ ownPrice ≤ floor
  if position ≠ .winning ∧ isAtCeiling then [.ceiling]
  else if isAtFloor then [.floor]
  else if isAtCeiling then [.ceiling] else []

def trackRuntimeBidDecision (ownPrice competitorPrice floor ceiling : Int) : Bidding PUnit :=
  let position := resolveRuntimeBidPosition ownPrice competitorPrice
  setState fun state => { state with
    bidPosition := .own (some position)
    bidConstraints := .own (some (resolveRuntimeBidConstraints position ownPrice floor ceiling))
    competitorPrice := .own (some competitorPrice) }

def clearRuntimeBidDecision : Bidding PUnit :=
  setState fun state => { state with
    bidPosition := .own none
    bidConstraints := .own none
    competitorPrice := .own none }

def trackCurrentOrder (order : Order) : Bidding PUnit := do
  let verifiedAt ← ask answers.isoTime
  setState fun state => { state with
    activeOrderId := .own (some order.id)
    activeProtocolAddress := .own order.protocolAddress
    activeOrderPlacedAt := .own (match order.placedAt with
      | some placedAt => some placedAt
      | none => if state.activeOrderId.get = some order.id then state.activeOrderPlacedAt.get else none)
    activeOrderVerifiedAt := .own (some verifiedAt)
    currentPrice := .own (some order.price)
    activeExpirationTimeMs := .own (resolveKnownExpirationTimeMs state order) }
  persistJobRuntimeState setup answers none false

def clearTrackedOrder : Bidding PUnit := do
  setState fun state => { state with
    activeOrderId := .own none
    activeProtocolAddress := .own none
    activeOrderPlacedAt := .own none
    activeOrderVerifiedAt := .own none
    currentPrice := .own none
    activeExpirationTimeMs := .own none }
  clearRuntimeBidDecision
  persistJobRuntimeState setup answers none false

/-! ## 3. Placing and cancelling -/

/-- `performPlaceAndTrack`; the context of the decision is always there. -/
def placeAndTrack (amount competitorPrice floor ceiling : Int) : Bidding PUnit := do
  let startedAt ← ask answers.clock
  setState fun state => { state with lastRun := .own (some startedAt) }
  if !setup.isDryRun then
    emit (.placed amount answers.placement)
    let placed ← answered answers.placement
    let verifiedAt ← ask answers.isoTime
    setState fun state => { state with
      activeOrderId := .own (some placed.orderHash)
      activeProtocolAddress := .own (some placed.protocolAddress)
      activeOrderPlacedAt := .own (some placed.placedAt)
      activeOrderVerifiedAt := .own (some verifiedAt)
      currentPrice := .own (some amount)
      activeExpirationTimeMs := .own (toExpirationTimeMs placed.expirationTime) }
    trackRuntimeBidDecision amount competitorPrice floor ceiling
    persistJobRuntimeState setup answers none true

/-- `performCancelAndTrack`. -/
def cancelAndTrack (order : Order) : Bidding PUnit := do
  if !setup.isDryRun then
    let requestedAt ← ask answers.isoTime
    recordJobOfferCancellation setup answers order ⟨requestedAt, none, none⟩
    let answer ← ask answers.cancellation
    emit (.cancelled order answer)
    match answer with
    | .error message =>
      recordJobOfferCancellation setup answers order ⟨requestedAt, none, some message⟩
      throw message
    | .ok () =>
      let completedAt ← ask answers.isoTime
      recordJobOfferCancellation setup answers order ⟨requestedAt, some completedAt, none⟩

/-- Nothing is kept under an empty name. -/
def isKept (keepOrderId : Option String) (offer : Order) : Bool :=
  match keepOrderId with
  | some orderId => orderId ≠ "" ∧ offer.id = orderId
  | none => false

def cancelMakerOffers (keepOrderId : Option String) : List Order → Bidding PUnit
  | [] => pure ⟨⟩
  | offer :: rest => do
    if !isKept keepOrderId offer then
      cancelAndTrack setup answers offer
    cancelMakerOffers keepOrderId rest

/-! ## 4. Evaluation -/

/-- A text that is there and not empty. -/
def truthyText (text : Option String) : Option String := text.filter (· ≠ "")

/-- The tracked order, from the market or looked up by its name; one that is not active any more is dropped. -/
def resolveTrackedActiveOrder (market : MarketOffers) : Bidding MarketOffers := do
  let job := (← get).job
  match truthyText job.state.activeOrderId.get with
  | none => return market
  | some activeId =>
    match market.offers.find? (fun offer => offer.id = activeId) with
    | some foundInMarket =>
      adoptProtocolAddress foundInMarket
      return market
    | none =>
      match ← answered answers.recovery with
      | .active order named =>
        adoptProtocolAddress order
        return market.addUniqueOffer order named
      | .inconclusive reason => throw (
          s!"[Bidder] Unable to prove tracked active order status: jobId={job.id}, orderId={activeId}, " ++
            s!"reason={reason}")
      | .inactiveOrMissing =>
        clearTrackedOrder setup answers
        return market
where
  adoptProtocolAddress (order : Order) : Bidding PUnit :=
    setState fun state =>
      match truthyText state.activeProtocolAddress.get, truthyText order.protocolAddress with
      | none, some address => { state with activeProtocolAddress := .own (some address) }
      | _, _ => state

def isMakerOffer (offer : Order) : Bool :=
  toLowerCase setup.engine.platform offer.maker = toLowerCase setup.engine.platform setup.makerAddress

/-- The highest first, and offers of one price in the order they stand in. -/
def sortByPrice (offers : List Order) : List Order := offers.insertionSort fun left right => left.price ≥ right.price

/-- The offers that the job takes for its own. -/
def managedOffers (job : ScheduledJob) : List Order → Except String (List Order)
  | [] => .ok []
  | offer :: rest => do
    let isManaged ← isOfferManagedByJob setup.engine job offer
    let managed ← managedOffers job rest
    return if isManaged then offer :: managed else managed

/-- What a run makes of the market. -/
structure Evaluation where
  offers : List Order
  myOffers : List Order
  competitorPrice : Int
  prices : PriceRange
  renewalReason : Option RenewalReason

def configuredFloor : Int := (setup.runtimeOverride.map (·.floor)).getD job.config.floor

def configuredCeiling : Int := (setup.runtimeOverride.map (·.ceiling)).getD job.config.ceiling

/-- The price of the best offer that is not the maker's, or nothing. -/
def bestCompetitorPrice (sortedOffers : List Order) : Int :=
  match (sortedOffers.filter fun offer => !isMakerOffer setup offer).head? with
  | some competitorHighest => competitorHighest.price
  | none => 0

/-- `executeJob`, up to its decision. -/
def evaluateJob : Bidding Evaluation := do
  let market ← answered answers.activeOffers
  let market ← resolveTrackedActiveOrder setup answers market
  let job := (← get).job
  let sortedOffers := sortByPrice market.offers
  let myOffers ← answered (managedOffers setup job (sortedOffers.filter (isMakerOffer setup)))
  let competitorPrice := bestCompetitorPrice setup sortedOffers
  let prices ← answered (resolvePrices setup.cachedMakerWethBalance (configuredFloor setup job)
    (configuredCeiling setup job) competitorPrice job.config.delta)
  let now ← ask answers.clock
  return {
    offers := sortedOffers
    myOffers := myOffers
    competitorPrice := competitorPrice
    prices := prices
    renewalReason := myOffers.head?.bind (getBidRenewalReason setup job.state now) }

/-! ## 5. The run -/

variable (evaluation : Evaluation)

def placeTarget : Bidding PUnit := do
  clearRuntimeBidDecision
  placeAndTrack setup answers evaluation.prices.desiredPrice evaluation.competitorPrice evaluation.prices.floor
    evaluation.prices.ceiling

/-- A new offer at the price that is wanted, and then the old ones taken down. -/
def replaceOffers : Bidding PUnit := do
  placeTarget setup answers evaluation
  cancelMakerOffers setup answers none evaluation.myOffers

/-- `executeJob`, from its decision on. -/
def settleJob : Bidding PUnit := do
  if evaluation.prices.desiredPrice ≤ 0 then
    if evaluation.myOffers ≠ [] then
      cancelMakerOffers setup answers none evaluation.myOffers
      clearTrackedOrder setup answers
    else
      clearRuntimeBidDecision
      persistJobRuntimeState setup answers none false
  else if evaluation.myOffers = [] then
    placeTarget setup answers evaluation
  else if evaluation.renewalReason.isSome then
    replaceOffers setup answers evaluation
  else
    match evaluation.myOffers.find? (fun offer => offer.price = evaluation.prices.desiredPrice) with
    | some matchingMakerOffer =>
      trackRuntimeBidDecision matchingMakerOffer.price evaluation.competitorPrice evaluation.prices.floor
        evaluation.prices.ceiling
      trackCurrentOrder setup answers matchingMakerOffer
      cancelMakerOffers setup answers (some matchingMakerOffer.id) evaluation.myOffers
    | none => replaceOffers setup answers evaluation

/-- How a run ended. -/
structure JobOutcome where
  job : ScheduledJob
  events : List BidEvent
  error : Option String

/-- `executeJob`.  A failure is stored with the state, as far as that can be. -/
def executeJob : JobOutcome :=
  match (evaluateJob setup answers >>= settleJob setup answers) ⟨job, []⟩ with
  | .ok _ run => ⟨run.job, run.events, none⟩
  | .error message run =>
    match persistJobRuntimeState setup answers (some message) false run with
    | .ok _ stored | .error _ stored => ⟨stored.job, stored.events, some message⟩

end Execution

section Specification

variable {setup : BidderSetup} {answers : MarketAnswers}

/-! ## 6. What the steps do -/

variable {run run' : JobRun} {R : String → JobRun → Prop} {P : BidEvent → Prop} {event : BidEvent}
  {order : Order}

@[simp] theorem ends_ask {α : Type} {answer : Nat → α} {Q : α → JobRun → Prop}
    : Ends (ask answer) run Q R ↔ Q (answer run.events.length) run := Iff.rfl

@[simp] theorem ends_emit {Q : PUnit → JobRun → Prop}
    : Ends (emit event) run Q R ↔ Q ⟨⟩ ⟨run.job, run.events ++ [event]⟩ := Iff.rfl

@[simp] theorem ends_setState {change : BidderState → BidderState} {Q : PUnit → JobRun → Prop}
    :
    Ends (setState change) run Q R ↔ Q ⟨⟩ ⟨{ run.job with state := change run.job.state }, run.events⟩ := Iff.rfl

/-- The event is a failure that a run does not survive. -/
def BidEvent.Fails : BidEvent → Prop
  | .placed _ answer => ∃ message, answer = .error message
  | .cancelled _ answer => ∃ message, answer = .error message
  | .persisted _ required answer => required = true ∧ ∃ message, answer = .error message
  | .recorded _ _ _ => False

/-- From one moment of a run to a later one: the declaration is the same, and only such things happened. -/
structure Did (P : BidEvent → Prop) (run run' : JobRun) : Prop where
  declaration : run'.job = { run.job with state := run'.job.state }
  events : ∃ tail, run'.events = run.events ++ tail ∧ ∀ event ∈ tail, P event

theorem Did.refl (P : BidEvent → Prop) (run : JobRun) : Did P run run :=
  ⟨rfl, [], (List.append_nil _).symm, fun _ h => absurd h List.not_mem_nil⟩

theorem Did.trans {a b c : JobRun} (h : Did P a b) (h' : Did P b c) : Did P a c := by
  obtain ⟨hdeclared, tail, htail, hP⟩ := h
  obtain ⟨hdeclared', tail', htail', hP'⟩ := h'
  refine ⟨by rw [hdeclared', hdeclared], tail ++ tail', by rw [htail', htail, List.append_assoc], fun event hevent => ?_⟩
  exact (List.mem_append.mp hevent).elim (hP event) (hP' event)

theorem Did.mono {P' : BidEvent → Prop} (h : Did P run run') (hP : ∀ event, P event → P' event) :
    Did P' run run' :=
  ⟨h.declaration, h.events.imp fun _ htail => ⟨htail.1, fun event hevent => hP event (htail.2 event hevent)⟩⟩

theorem Did.mem (h : Did P run run') (hevent : event ∈ run.events) : event ∈ run'.events := by
  obtain ⟨tail, htail, -⟩ := h.events
  exact htail ▸ List.mem_append_left _ hevent

theorem Did.mem_or (h : Did P run run') (hevent : event ∈ run'.events) : event ∈ run.events ∨ P event := by
  obtain ⟨tail, htail, hP⟩ := h.events
  exact (List.mem_append.mp (htail ▸ hevent)).imp_right (hP event)

theorem Did.emit (h : P event) : Did P run ⟨run.job, run.events ++ [event]⟩ :=
  ⟨rfl, [event], rfl, fun _ hevent => List.mem_singleton.mp hevent ▸ h⟩

theorem Did.setState {state : BidderState} : Did P run ⟨{ run.job with state := state }, run.events⟩ :=
  ⟨rfl, [], (List.append_nil _).symm, fun _ h => absurd h List.not_mem_nil⟩

def BidEvent.IsStateWrite : BidEvent → Prop
  | .persisted _ _ _ => True
  | _ => False

theorem persistJobRuntimeState_spec {lastError : Option String} {required : Bool} :
    Ends (persistJobRuntimeState setup answers lastError required) run
      (fun _ run' => run'.job = run.job ∧ Did BidEvent.IsStateWrite run run')
      (fun _ run' => run'.job = run.job ∧ Did BidEvent.IsStateWrite run run' ∧ required = true ∧
        ∃ event ∈ run'.events, event.Fails) := by
  unfold persistJobRuntimeState
  cases setup.hasRuntimeStatePort with
  | false => exact ⟨rfl, .refl _ run⟩
  | true =>
    cases required with
    | false => exact ⟨rfl, .emit trivial⟩
    | true =>
      refine ends_answered.mpr ⟨fun _ _ => ⟨rfl, .emit trivial⟩, fun message hanswer => ⟨rfl, .emit trivial, rfl, ?_⟩⟩
      exact ⟨_, List.mem_append_right _ (List.mem_singleton.mpr rfl), rfl, message, hanswer⟩

theorem recordJobOfferCancellation_spec {state : CancellationState}
    :
    Ends (recordJobOfferCancellation setup answers order state) run
      (fun _ run' => run'.job = run.job ∧ Did (fun event => ∃ answer, event = .recorded order state answer) run run')
      R := by
  unfold recordJobOfferCancellation
  cases setup.hasRuntimeStatePort with
  | false => exact ⟨rfl, .refl _ run⟩
  | true => exact ⟨rfl, .emit ⟨_, rfl⟩⟩

/-- The event belongs to the cancellation of the order. -/
def BidEvent.Cancels (order : Order) (event : BidEvent) : Prop :=
  (∃ answer, event = .cancelled order answer) ∨ ∃ state answer, event = .recorded order state answer

theorem cancelAndTrack_spec : Ends (cancelAndTrack setup answers order) run
      (fun _ run' => run'.job = run.job ∧ Did (BidEvent.Cancels order) run run' ∧
        (setup.isDryRun = false → .cancelled order (.ok ()) ∈ run'.events))
      (fun _ run' => run'.job = run.job ∧ Did (BidEvent.Cancels order) run run' ∧
        ∃ event ∈ run'.events, event.Fails) := by
  have hrecord : ∀ {state : CancellationState} {run run' : JobRun},
      Did (fun event => ∃ answer, event = .recorded order state answer) run run' →
        Did (BidEvent.Cancels order) run run' := fun h => h.mono fun _ hevent => .inr ⟨_, hevent⟩
  unfold cancelAndTrack
  cases setup.isDryRun with
  | true => exact ⟨rfl, .refl _ run, fun hdry => nomatch hdry⟩
  | false =>
    simp only [Bool.not_false, if_true, ends_bind, ends_ask, ends_emit]
    refine (recordJobOfferCancellation_spec (R := fun _ _ => False)).mono (fun _ requested hrequested => ?_)
      fun _ _ hfalse => hfalse.elim
    obtain ⟨hjob, hdid⟩ := hrequested
    have hasked := (hrecord hdid).trans (Did.emit (.inl ⟨answers.cancellation requested.events.length, rfl⟩))
    have hmem : BidEvent.cancelled order (answers.cancellation requested.events.length) ∈
        requested.events ++ [.cancelled order (answers.cancellation requested.events.length)] :=
      List.mem_append_right _ (List.mem_singleton.mpr rfl)
    cases hanswer : answers.cancellation requested.events.length with
    | ok u =>
      rw [hanswer] at hasked hmem
      simp only [ends_bind, ends_ask]
      refine (recordJobOfferCancellation_spec (R := fun _ _ => False)).mono (fun _ completed hcompleted => ?_)
        fun _ _ hfalse => hfalse.elim
      exact ⟨hcompleted.1.trans hjob, hasked.trans (hrecord hcompleted.2), fun _ => hcompleted.2.mem hmem⟩
    | error message =>
      rw [hanswer] at hasked hmem
      simp only [ends_bind, ends_throw]
      refine (recordJobOfferCancellation_spec (R := fun _ _ => False)).mono (fun _ failed hfailed => ?_)
        fun _ _ hfalse => hfalse.elim
      exact ⟨hfailed.1.trans hjob, hasked.trans (hrecord hfailed.2), _, hfailed.2.mem hmem, message, rfl⟩

/-- The event belongs to the cancellation of one of the offers that are not kept. -/
def BidEvent.CancelsAmong (keepOrderId : Option String) (offers : List Order) (event : BidEvent) : Prop :=
  ∃ order ∈ offers, isKept keepOrderId order = false ∧ event.Cancels order

/-- **Every offer that is not kept is cancelled,** unless a cancellation fails. -/
theorem cancelMakerOffers_spec {keepOrderId : Option String} {offers : List Order} :
    Ends (cancelMakerOffers setup answers keepOrderId offers) run
      (fun _ run' => run'.job = run.job ∧ Did (BidEvent.CancelsAmong keepOrderId offers) run run' ∧
        (setup.isDryRun = false → ∀ order ∈ offers, isKept keepOrderId order = false →
          .cancelled order (.ok ()) ∈ run'.events))
      (fun _ run' => run'.job = run.job ∧ Did (BidEvent.CancelsAmong keepOrderId offers) run run' ∧
        ∃ event ∈ run'.events, event.Fails) := by
  induction offers generalizing run with
  | nil => exact ⟨rfl, .refl _ run, fun _ _ h => absurd h List.not_mem_nil⟩
  | cons offer rest ih =>
    have hrest : ∀ event, BidEvent.CancelsAmong keepOrderId rest event →
        BidEvent.CancelsAmong keepOrderId (offer :: rest) event := by
      rintro event ⟨order, horder, hevent⟩
      exact ⟨order, List.mem_cons_of_mem _ horder, hevent⟩
    unfold cancelMakerOffers
    cases hkept : isKept keepOrderId offer with
    | true =>
      refine (@ih run).mono (fun _ run' h => ⟨h.1, h.2.1.mono hrest, fun hdry order horder hnot => ?_⟩)
        fun _ run' h => ⟨h.1, h.2.1.mono hrest, h.2.2⟩
      rcases List.mem_cons.mp horder with rfl | horder
      · rw [hkept] at hnot
        cases hnot
      · exact h.2.2 hdry order horder hnot
    | false =>
      have hfirst : ∀ event, BidEvent.Cancels offer event →
          BidEvent.CancelsAmong keepOrderId (offer :: rest) event :=
        fun event hevent => ⟨offer, List.mem_cons_self, hkept, hevent⟩
      refine Ends.bind cancelAndTrack_spec (fun _ mid hmid => ?_)
        fun _ run' h => ⟨h.1, h.2.1.mono hfirst, h.2.2⟩
      refine ih.mono (fun _ run' h => ⟨h.1.trans hmid.1, (hmid.2.1.mono hfirst).trans (h.2.1.mono hrest),
          fun hdry order horder hnot => ?_⟩)
        fun _ run' h => ⟨h.1.trans hmid.1, (hmid.2.1.mono hfirst).trans (h.2.1.mono hrest), h.2.2⟩
      rcases List.mem_cons.mp horder with rfl | horder
      · exact h.2.1.mem (hmid.2.2 hdry)
      · exact h.2.2 hdry order horder hnot

/-- The state names this order, and this price. -/
def BidderState.Tracks (state : BidderState) (orderId : String) (price : Int) : Prop :=
  state.activeOrderId.get = some orderId ∧ state.currentPrice.get = some price

/-- The event belongs to the placement of an offer at this price. -/
def BidEvent.Places (answers : MarketAnswers) (amount : Int) (event : BidEvent) : Prop :=
  event = .placed amount answers.placement ∨ event.IsStateWrite

/-- **A placed offer is tracked;** where it could not be placed the state names the order it did before. -/
theorem placeAndTrack_spec {amount competitorPrice floor ceiling : Int} :
    Ends (placeAndTrack setup answers amount competitorPrice floor ceiling) run
      (fun _ run' => Did (BidEvent.Places answers amount) run run' ∧
        (setup.isDryRun = false → ∃ placed, answers.placement = .ok placed ∧
          .placed amount answers.placement ∈ run'.events ∧ run'.job.state.Tracks placed.orderHash amount))
      (fun _ run' => Did (BidEvent.Places answers amount) run run' ∧
        .placed amount answers.placement ∈ run'.events ∧ (∃ event ∈ run'.events, event.Fails) ∧
        ∀ message, answers.placement = .error message →
          run'.job.state.activeOrderId = run.job.state.activeOrderId) := by
  unfold placeAndTrack
  cases setup.isDryRun with
  | true => exact ⟨.setState, fun hdry => nomatch hdry⟩
  | false =>
    simp only [Bool.not_false, if_true, ends_bind, ends_ask, ends_setState, ends_emit]
    have hplaced : ∀ {state : BidderState}, Did (BidEvent.Places answers amount) run
        ⟨{ run.job with state := state }, run.events ++ [.placed amount answers.placement]⟩ :=
      fun {state} => ⟨rfl, _, rfl, fun event hevent => .inl (List.mem_singleton.mp hevent)⟩
    have hmem : BidEvent.placed amount answers.placement ∈ run.events ++ [.placed amount answers.placement] :=
      List.mem_append_right _ (List.mem_singleton.mpr rfl)
    refine ends_answered.mpr ⟨fun placed hanswer => ?_, fun message hanswer => ?_⟩
    · simp only [ends_setState, trackRuntimeBidDecision]
      refine persistJobRuntimeState_spec.mono (fun _ run' h => ?_) fun _ run' h => ?_
      · obtain ⟨hjob, hdid⟩ := h
        refine ⟨hplaced.trans (hdid.mono fun _ => .inr), fun _ => ⟨placed, hanswer, hdid.mem hmem, ?_⟩⟩
        exact ⟨by rw [hjob]; rfl, by rw [hjob]; rfl⟩
      obtain ⟨-, hdid, -, hfails⟩ := h
      refine ⟨hplaced.trans (hdid.mono fun _ => .inr), hdid.mem hmem, hfails, fun message herror => ?_⟩
      rw [hanswer] at herror
      cases herror
    · exact ⟨hplaced, hmem, ⟨_, hmem, message, hanswer⟩, fun _ _ => rfl⟩

theorem clearTrackedOrder_spec : Ends (clearTrackedOrder setup answers) run
      (fun _ run' => Did BidEvent.IsStateWrite run run' ∧ run'.job.state.activeOrderId.get = none) R := by
  unfold clearTrackedOrder clearRuntimeBidDecision
  simp only [ends_bind, ends_setState]
  refine persistJobRuntimeState_spec.mono (fun _ run' h => ?_) fun _ _ h => by cases h.2.2.1
  obtain ⟨hjob, hdid⟩ := h
  exact ⟨Did.trans (b := ⟨_, run.events⟩) .setState hdid, by rw [hjob]; rfl⟩

theorem trackCurrentOrder_spec : Ends (trackCurrentOrder setup answers order) run
      (fun _ run' => Did BidEvent.IsStateWrite run run' ∧ run'.job.state.Tracks order.id order.price) R := by
  unfold trackCurrentOrder
  simp only [ends_bind, ends_ask, ends_setState]
  refine persistJobRuntimeState_spec.mono (fun _ run' h => ?_) fun _ _ h => by cases h.2.2.1
  obtain ⟨hjob, hdid⟩ := h
  exact ⟨Did.trans (b := ⟨_, run.events⟩) .setState hdid, by rw [hjob]; rfl, by rw [hjob]; rfl⟩

theorem resolveTrackedActiveOrder_spec {market : MarketOffers} :
    Ends (resolveTrackedActiveOrder setup answers market) run
      (fun market' run' => Did BidEvent.IsStateWrite run run' ∧
        (run'.job.state.activeOrderId = run.job.state.activeOrderId ∨
          ∀ offer ∈ market'.offers, run.job.state.activeOrderId.get ≠ some offer.id))
      (fun _ run' => Did BidEvent.IsStateWrite run run') := by
  have hadopt : ∀ (order : Order) (market' : MarketOffers),
      Ends (resolveTrackedActiveOrder.adoptProtocolAddress order >>= fun _ => pure market') run
        (fun market' run' => Did BidEvent.IsStateWrite run run' ∧
          (run'.job.state.activeOrderId = run.job.state.activeOrderId ∨
            ∀ offer ∈ market'.offers, run.job.state.activeOrderId.get ≠ some offer.id))
        (fun _ run' => Did BidEvent.IsStateWrite run run') := by
    intro order market'
    unfold resolveTrackedActiveOrder.adoptProtocolAddress
    simp only [ends_bind, ends_setState, ends_pure]
    refine ⟨.setState, .inl ?_⟩
    split <;> rfl
  unfold resolveTrackedActiveOrder
  simp only [ends_bind, ends_get]
  obtain ⟨active, hactive⟩ : ∃ active, truthyText run.job.state.activeOrderId.get = active := ⟨_, rfl⟩
  rw [hactive]
  cases active with
  | none => exact ⟨.refl _ run, .inl rfl⟩
  | some activeId =>
    have hid : run.job.state.activeOrderId.get = some activeId := (Option.filter_eq_some_iff.mp hactive).1
    dsimp only
    obtain ⟨found, hfound⟩ : ∃ found, market.offers.find? (fun offer => decide (offer.id = activeId)) = found := ⟨_, rfl⟩
    rw [hfound]
    cases found with
    | some order => exact hadopt order market
    | none =>
      simp only [ends_bind]
      refine ends_answered.mpr ⟨fun recovery _ => ?_, fun _ _ => .refl _ run⟩
      cases recovery with
      | active order named => exact hadopt order (market.addUniqueOffer order named)
      | inconclusive reason => exact .refl _ run
      | inactiveOrMissing =>
        simp only [ends_bind, ends_pure]
        refine (clearTrackedOrder_spec (R := fun _ run' => Did BidEvent.IsStateWrite run run')).mono
          (fun _ run' h => ⟨h.1, .inr fun offer hoffer heq => ?_⟩) fun _ _ h => h
        rw [hid] at heq
        have hne := List.find?_eq_none.mp hfound offer hoffer
        exact hne (decide_eq_true (Option.some.inj heq).symm)

/-! ## 7. Evaluation -/

theorem managedOffers_sublist {job : ScheduledJob} {offers managed : List Order}
    (h : managedOffers setup job offers = .ok managed) : managed.Sublist offers := by
  induction offers generalizing managed with
  | nil =>
    cases h
    exact List.Sublist.slnil
  | cons offer rest ih =>
    obtain ⟨isManaged, -, h⟩ := bind_eq_ok.mp h
    obtain ⟨mine, hmine, h⟩ := bind_eq_ok.mp h
    cases h
    cases isManaged with
    | true => exact (ih hmine).cons_cons offer
    | false => exact (ih hmine).cons offer

theorem sortByPrice_perm (offers : List Order) : (sortByPrice offers).Perm offers := List.perm_insertionSort _ offers

theorem sortByPrice_sorted (offers : List Order) :
    (sortByPrice offers).Pairwise fun left right => left.price ≥ right.price := by
  have htotal : Std.Total fun left right : Order => left.price ≥ right.price := ⟨fun a b => le_total b.price a.price⟩
  have htrans : IsTrans Order fun left right => left.price ≥ right.price := ⟨fun a b c hab hbc => le_trans hbc hab⟩
  exact List.pairwise_insertionSort _ offers

/-- **The best competitor:** no offer of another maker is higher, and it is the price of one unless there is
none. -/
theorem bestCompetitorPrice_spec (offers : List Order) :
    (∀ offer ∈ offers, isMakerOffer setup offer = false → offer.price ≤ bestCompetitorPrice setup (sortByPrice offers)) ∧
      ((∃ offer ∈ offers, isMakerOffer setup offer = false ∧
          bestCompetitorPrice setup (sortByPrice offers) = offer.price) ∨
        ((∀ offer ∈ offers, isMakerOffer setup offer = true) ∧ bestCompetitorPrice setup (sortByPrice offers) = 0)) := by
  have hmem : ∀ offer, offer ∈ (sortByPrice offers).filter (fun offer => !isMakerOffer setup offer) ↔
      offer ∈ offers ∧ isMakerOffer setup offer = false := by
    intro offer
    rw [List.mem_filter, (sortByPrice_perm offers).mem_iff, Bool.not_eq_true']
  have hsorted := (sortByPrice_sorted offers).filter (fun offer => !isMakerOffer setup offer)
  unfold bestCompetitorPrice
  generalize (sortByPrice offers).filter (fun offer => !isMakerOffer setup offer) = rivals at hmem hsorted
  cases rivals with
  | nil =>
    have hnone : ∀ offer ∈ offers, isMakerOffer setup offer = true := fun offer hoffer =>
      Bool.not_eq_false _ ▸ fun hrival => List.not_mem_nil ((hmem offer).mpr ⟨hoffer, hrival⟩)
    refine ⟨fun offer hoffer hrival => ?_, .inr ⟨hnone, rfl⟩⟩
    rw [hnone offer hoffer] at hrival
    cases hrival
  | cons best rest =>
    obtain ⟨hbest, -⟩ := List.pairwise_cons.mp hsorted
    refine ⟨fun offer hoffer hrival => ?_, .inl ⟨best, ((hmem best).mp List.mem_cons_self).1,
      ((hmem best).mp List.mem_cons_self).2, rfl⟩⟩
    rcases List.mem_cons.mp ((hmem offer).mpr ⟨hoffer, hrival⟩) with rfl | hrest
    · exact le_refl _
    · exact hbest offer hrest

/-- What a run finds, up to its decision: the market it reads and the run so far, the job's own offers with the
highest first, and the prices that the job wants. -/
structure Surveyed (setup : BidderSetup) (answers : MarketAnswers) (job : ScheduledJob) (market : MarketOffers)
    (run : JobRun) (myOffers : List Order) (prices : PriceRange) : Prop where
  read : ∃ read, answers.activeOffers = .ok read ∧
    resolveTrackedActiveOrder setup answers read ⟨job, []⟩ = .ok market run
  managed : managedOffers setup run.job ((sortByPrice market.offers).filter (isMakerOffer setup)) = .ok myOffers
  priced : resolvePrices setup.cachedMakerWethBalance (configuredFloor setup run.job) (configuredCeiling setup run.job)
    (bestCompetitorPrice setup (sortByPrice market.offers)) run.job.config.delta = .ok prices

def evaluationOf (setup : BidderSetup) (answers : MarketAnswers) (market : MarketOffers) (run : JobRun)
    (myOffers : List Order) (prices : PriceRange) : Evaluation where
  offers := sortByPrice market.offers
  myOffers := myOffers
  competitorPrice := bestCompetitorPrice setup (sortByPrice market.offers)
  prices := prices
  renewalReason := myOffers.head?.bind (getBidRenewalReason setup run.job.state (answers.clock run.events.length))

theorem evaluateJob_eq_ok_iff {job : ScheduledJob} {evaluation : Evaluation} :
    evaluateJob setup answers ⟨job, []⟩ = .ok evaluation run ↔ ∃ market myOffers prices,
      Surveyed setup answers job market run myOffers prices ∧
        evaluation = evaluationOf setup answers market run myOffers prices := by
  unfold evaluateJob
  constructor
  · intro h
    obtain ⟨read, s, hread, h⟩ := Machine.bind_eq_ok_iff.mp h
    obtain ⟨hactive, rfl⟩ := answered_eq_ok_iff.mp hread
    obtain ⟨market, s, hmarket, h⟩ := Machine.bind_eq_ok_iff.mp h
    obtain ⟨_, s', hget, h⟩ := Machine.bind_eq_ok_iff.mp h
    cases hget
    obtain ⟨myOffers, s', hmine, h⟩ := Machine.bind_eq_ok_iff.mp h
    obtain ⟨hmine, rfl⟩ := answered_eq_ok_iff.mp hmine
    obtain ⟨prices, s'', hprices, h⟩ := Machine.bind_eq_ok_iff.mp h
    obtain ⟨hprices, rfl⟩ := answered_eq_ok_iff.mp hprices
    cases h
    exact ⟨market, myOffers, prices, ⟨⟨read, hactive, hmarket⟩, hmine, hprices⟩, rfl⟩
  · rintro ⟨market, myOffers, prices, ⟨⟨read, hread, hmarket⟩, hmine, hprices⟩, rfl⟩
    refine Machine.bind_eq_ok_iff.mpr ⟨read, _, answered_eq_ok_iff.mpr ⟨hread, rfl⟩, ?_⟩
    refine Machine.bind_eq_ok_iff.mpr ⟨market, run, hmarket, ?_⟩
    refine Machine.bind_eq_ok_iff.mpr ⟨run, run, rfl, ?_⟩
    refine Machine.bind_eq_ok_iff.mpr ⟨myOffers, run, answered_eq_ok_iff.mpr ⟨hmine, rfl⟩, ?_⟩
    refine Machine.bind_eq_ok_iff.mpr ⟨prices, run, answered_eq_ok_iff.mpr ⟨hprices, rfl⟩, ?_⟩
    rfl

end Specification

end Artgod.Trading
