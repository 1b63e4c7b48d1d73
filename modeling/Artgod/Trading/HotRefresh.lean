/-
# The backpressure of hot refreshes

`HotRefreshBackpressure` turns market events into refresh passes.  Events gather in lanes, one for each
collection and one for each token; a lane runs one pass at a time and then cools down, and the events that wait
are bounded for each kind of lane.  Lanes, pending events, timers and passes have numbers, and `lane` and
`pending` hold the objects.  An event is one run of JavaScript code, in which the clock stands still.
-/
import Artgod.Js.OrderedMap
import Artgod.Machine.Runs
import Artgod.Store.IndexedHeap
import Artgod.Trading.TraitCriteria

namespace Artgod.Trading

open Store Js

/-! ## 1. Market events -/

inductive Scope
  | collection
  | item
  | trait
  | unknown
  deriving DecidableEq

structure MarketEvent where
  scope : Scope
  collectionSlug : String
  itemId : String
  traitCriteria : List BiddingTraitCriterion
  totalPrice : Int
  quantity : Int
  deriving DecidableEq

variable (e : MarketEvent)

def MarketEvent.getUnitPrice : Int :=
  if e.quantity ≤ 0 then 0 else e.totalPrice.tdiv e.quantity

def isBroadHotRefreshEvent : Bool := e.scope = .collection || e.scope = .trait

def isSupportedHotRefreshEvent : Bool := isBroadHotRefreshEvent e || e.scope = .item

def selectConservativeEvent (existingEvent incomingEvent : MarketEvent) : MarketEvent :=
  if incomingEvent.getUnitPrice ≥ existingEvent.getUnitPrice then incomingEvent else existingEvent

def createLaneKey : String :=
  if e.scope = .item then "item:" ++ e.collectionSlug ++ ":" ++ e.itemId
  else "collection:" ++ e.collectionSlug

/-- A range has no `value`: the template writes `undefined`. -/
def criterionSignature (criterion : BiddingTraitCriterion) : String :=
  criterion.type ++ "=" ++ criterion.value.getD "undefined"

def formatTraitCriteriaSignature : String :=
  String.intercalate "|" (sortTexts (e.traitCriteria.map criterionSignature))

def createEventSignature : String :=
  if e.scope = .item then "item:" ++ e.itemId
  else if e.scope = .trait then "trait:" ++ formatTraitCriteriaSignature e
  else "collection"

/-! ## 2. The scheduler -/

inductive HotRefreshLaneKind
  | broad
  | item
  deriving DecidableEq

/-- What the constructor accepts. -/
structure HotRefreshBackpressureOptions where
  broadCooldownMs : Nat
  broadMaxPendingSignatures : Nat
  itemCooldownMs : Nat
  itemMaxPendingSignatures : Nat
  maxConcurrentPasses : Nat
  broadCooldownMs_pos : 0 < broadCooldownMs
  broadMaxPendingSignatures_pos : 0 < broadMaxPendingSignatures
  itemCooldownMs_pos : 0 < itemCooldownMs
  itemMaxPendingSignatures_pos : 0 < itemMaxPendingSignatures
  maxConcurrentPasses_pos : 0 < maxConcurrentPasses

structure PendingHotRefreshEvent where
  event : MarketEvent
  signalCount : Nat

structure HotRefreshLane where
  running : Bool
  pendingEvents : OrderedMap String Nat
  pendingSignalCount : Nat
  nextRunAt : Nat
  timer : Option Nat
  kind : HotRefreshLaneKind

structure PendingEventReference where
  laneKey : String
  lane : Nat
  signature : String
  pending : Nat

structure ReadyHotRefreshLane where
  lane : Nat
  callback : Nat

/-- A timer of `scheduleLane`, with what its callback refers to. -/
structure LaneTimer where
  dueAt : Nat
  laneKey : String
  lane : Nat
  callback : Nat

/-- A pass that runs, with what its closure refers to. -/
structure HotRefreshPass where
  laneKey : String
  lane : Nat
  callback : Nat
  events : List MarketEvent

structure HotRefreshLaneState where
  activeLanes : Nat
  knownLanes : Nat
  pendingEvents : Nat
  pendingSignals : Nat

/-- A pass that was started, with the deadline that its lane key had. -/
structure PassStart where
  laneKey : String
  at' : Nat
  deadline : Option Nat

structure HotRefreshBackpressure where
  options : HotRefreshBackpressureOptions
  now : Nat
  lanes : OrderedMap String Nat
  readyLanes : OrderedMap String ReadyHotRefreshLane
  passes : OrderedMap Nat HotRefreshPass
  cooldownLaneDeadlinesByKind : HotRefreshLaneKind → OrderedMap String Nat
  /-- When the cleanup timer of a kind runs, if it is set. -/
  cooldownCleanupTimersByKind : HotRefreshLaneKind → Option Nat
  pendingEventsByLaneKind : HotRefreshLaneKind → IndexedHeap PendingEventReference Nat
  stateByLaneKind : HotRefreshLaneKind → HotRefreshLaneState
  activePassCount : Nat
  stopped : Bool
  /-- The lanes and the pending events that were made, the timers that are set, and the next numbers. -/
  lane : Nat → HotRefreshLane
  pending : Nat → PendingHotRefreshEvent
  timers : OrderedMap Nat LaneTimer
  nextLane : Nat
  nextPending : Nat
  nextTimer : Nat
  nextPass : Nat
  /-- The passes that were started, the latest first. -/
  starts : List PassStart
  /-- The deadline that the last pass of a lane key set, until the bound of the retained cooldowns takes
  it away. -/
  deadlines : String → Option Nat

namespace HotRefreshBackpressure

/-- The constructor. -/
def create (options : HotRefreshBackpressureOptions) (now : Nat) : HotRefreshBackpressure where
  options := options
  now := now
  lanes := .empty
  readyLanes := .empty
  passes := .empty
  cooldownLaneDeadlinesByKind := fun _ => .empty
  cooldownCleanupTimersByKind := fun _ => none
  pendingEventsByLaneKind := fun _ => ⟨[], fun _ => none⟩
  stateByLaneKind := fun _ => ⟨0, 0, 0, 0⟩
  activePassCount := 0
  stopped := false
  lane := fun _ => ⟨false, .empty, 0, 0, none, .broad⟩
  pending := fun _ => ⟨⟨.unknown, "", "", [], 0, 0⟩, 0⟩
  timers := .empty
  nextLane := 0
  nextPending := 0
  nextTimer := 0
  nextPass := 0
  starts := []
  deadlines := fun _ => none

variable (s : HotRefreshBackpressure)

def updateLane (l : Nat) (f : HotRefreshLane → HotRefreshLane) : HotRefreshBackpressure :=
  { s with lane := Function.update s.lane l (f (s.lane l)) }

def updateState (kind : HotRefreshLaneKind)
    (f : HotRefreshLaneState → HotRefreshLaneState) : HotRefreshBackpressure :=
  { s with stateByLaneKind := Function.update s.stateByLaneKind kind (f (s.stateByLaneKind kind)) }

def updateQueue (kind : HotRefreshLaneKind)
    (f : IndexedHeap PendingEventReference Nat → IndexedHeap PendingEventReference Nat) :
    HotRefreshBackpressure :=
  { s with
    pendingEventsByLaneKind :=
      Function.update s.pendingEventsByLaneKind kind (f (s.pendingEventsByLaneKind kind)) }

def updateCooldowns (kind : HotRefreshLaneKind)
    (f : OrderedMap String Nat → OrderedMap String Nat) : HotRefreshBackpressure :=
  { s with
    cooldownLaneDeadlinesByKind :=
      Function.update s.cooldownLaneDeadlinesByKind kind (f (s.cooldownLaneDeadlinesByKind kind)) }

def getCooldownMs : HotRefreshLaneKind → Nat
  | .broad => s.options.broadCooldownMs
  | .item => s.options.itemCooldownMs

def getMaxPendingSignatures : HotRefreshLaneKind → Nat
  | .broad => s.options.broadMaxPendingSignatures
  | .item => s.options.itemMaxPendingSignatures

/-- `isWeaker` of the priority queues, at the prices of now. -/
def isWeaker (left right : PendingEventReference) : Bool :=
  (s.pending left.pending).event.getUnitPrice < (s.pending right.pending).event.getUnitPrice

/-! ### Retained cooldowns -/

def scheduleRetainedCooldownCleanup (kind : HotRefreshLaneKind) : HotRefreshBackpressure :=
  if s.stopped ∨ (s.cooldownCleanupTimersByKind kind).isSome then s
  else
    match (s.cooldownLaneDeadlinesByKind kind).first? with
    | none => s
    | some (_, deadline) =>
      { s with
        cooldownCleanupTimersByKind :=
          Function.update s.cooldownCleanupTimersByKind kind (some (s.now + (deadline - s.now))) }

/-- One retained cooldown is given up. -/
def forgetCooldown (kind : HotRefreshLaneKind) (laneKey : String) : HotRefreshBackpressure :=
  { (s.updateCooldowns kind (·.delete laneKey)).updateState kind
      (fun state => { state with knownLanes := state.knownLanes - 1 }) with
    deadlines := Function.update s.deadlines laneKey none }

/-- The loop of `retainLaneCooldown` that keeps the map within its bound. -/
def forgetOldestCooldowns (kind : HotRefreshLaneKind) :
    Nat → HotRefreshBackpressure → HotRefreshBackpressure
  | 0, s => s
  | n + 1, s =>
    if (s.cooldownLaneDeadlinesByKind kind).size > s.getMaxPendingSignatures kind then
      match (s.cooldownLaneDeadlinesByKind kind).first? with
      | none => s
      | some (oldestLaneKey, _) => forgetOldestCooldowns kind n (s.forgetCooldown kind oldestLaneKey)
    else s

def retainLaneCooldown (laneKey : String) (l : Nat) : HotRefreshBackpressure :=
  if s.lanes.get laneKey ≠ some l then s
  else
    let kind := (s.lane l).kind
    let s := { s with lanes := s.lanes.delete laneKey, readyLanes := s.readyLanes.delete laneKey }
    let s := s.updateCooldowns kind fun m => (m.delete laneKey).set laneKey (s.lane l).nextRunAt
    (forgetOldestCooldowns kind (s.cooldownLaneDeadlinesByKind kind).size
      s).scheduleRetainedCooldownCleanup kind

/-- `takeRetainedCooldown`, with the state it leaves. -/
def takeRetainedCooldown (kind : HotRefreshLaneKind) (laneKey : String) :
    Option Nat × HotRefreshBackpressure :=
  match (s.cooldownLaneDeadlinesByKind kind).get laneKey with
  | none => (none, s)
  | some deadline =>
    let s := s.updateCooldowns kind (·.delete laneKey)
    if (s.cooldownLaneDeadlinesByKind kind).size = 0 then
      (some deadline,
        { s with cooldownCleanupTimersByKind := Function.update s.cooldownCleanupTimersByKind kind none })
    else (some deadline, s)

/-- The keys that the loop of `expireRetainedCooldowns` deletes. -/
def expiredKeys (kind : HotRefreshLaneKind) : List String :=
  ((s.cooldownLaneDeadlinesByKind kind).entries.takeWhile fun e => e.2 ≤ s.now).map Prod.fst

def expireRetainedCooldowns (kind : HotRefreshLaneKind) : HotRefreshBackpressure :=
  let expired := s.expiredKeys kind
  ((s.updateCooldowns kind fun m => expired.foldl (fun m laneKey => m.delete laneKey) m).updateState kind
    fun state => { state with knownLanes := state.knownLanes - expired.length }).scheduleRetainedCooldownCleanup
      kind

/-! ### Lanes -/

def removeLaneIfIdle (laneKey : String) (l : Nat) : HotRefreshBackpressure :=
  if (s.lane l).running ∨ (s.lane l).timer.isSome ∨ (s.lane l).pendingEvents.size > 0 ∨
      s.lanes.get laneKey ≠ some l then s
  else if (s.lane l).nextRunAt > s.now then s.retainLaneCooldown laneKey l
  else
    { s with lanes := s.lanes.delete laneKey, readyLanes := s.readyLanes.delete laneKey }.updateState
      (s.lane l).kind fun state => { state with knownLanes := state.knownLanes - 1 }

def clearLanePending (l : Nat) : HotRefreshBackpressure :=
  let lane := s.lane l
  let s := s.updateState lane.kind fun state =>
    { state with
      pendingEvents := state.pendingEvents - lane.pendingEvents.size
      pendingSignals := state.pendingSignals - lane.pendingSignalCount }
  let s := s.updateQueue lane.kind fun queue =>
    lane.pendingEvents.values.foldl (fun queue p => queue.remove (·.pending) s.isWeaker p) queue
  s.updateLane l fun lane => { lane with pendingEvents := .empty, pendingSignalCount := 0 }

def scheduleLane (laneKey : String) (l callback delayMs : Nat) : HotRefreshBackpressure :=
  { s with
    timers := s.timers.set s.nextTimer ⟨s.now + delayMs, laneKey, l, callback⟩
    nextTimer := s.nextTimer + 1 }.updateLane l fun lane => { lane with timer := some s.nextTimer }

/-- The lane runs, and a pass with its events is there. -/
def beginPass (laneKey : String) (l callback : Nat) (events : List MarketEvent) : HotRefreshBackpressure :=
  { (s.updateLane l fun lane => { lane with running := true }).updateState (s.lane l).kind
      fun state => { state with activeLanes := state.activeLanes + 1 } with
    activePassCount := s.activePassCount + 1
    passes := s.passes.set s.nextPass ⟨laneKey, l, callback, events⟩
    nextPass := s.nextPass + 1
    starts := ⟨laneKey, s.now, s.deadlines laneKey⟩ :: s.starts }

/-- The pass that `startLane` starts when there is room. -/
def startPass (laneKey : String) (l callback : Nat) : HotRefreshBackpressure :=
  let events := (s.lane l).pendingEvents.values.map fun p => (s.pending p).event
  ({ s with readyLanes := s.readyLanes.delete laneKey }.clearLanePending l).beginPass laneKey l callback events

def startLane (laneKey : String) (l callback : Nat) : HotRefreshBackpressure :=
  if s.stopped then s
  else if (s.lane l).pendingEvents.size = 0 then s
  else if s.activePassCount ≥ s.options.maxConcurrentPasses then
    { s with readyLanes := s.readyLanes.set laneKey ⟨l, callback⟩ }
  else s.startPass laneKey l callback

/-- The loop of `startReadyLanes`, which takes a lane off in every round. -/
def startReadyLanes : Nat → HotRefreshBackpressure → HotRefreshBackpressure
  | 0, s => s
  | n + 1, s =>
    if s.stopped ∨ s.activePassCount ≥ s.options.maxConcurrentPasses then s
    else
      match s.readyLanes.first? with
      | none => s
      | some (laneKey, ready) =>
        let s := { s with readyLanes := s.readyLanes.delete laneKey }
        if (s.lane ready.lane).running ∨ (s.lane ready.lane).timer.isSome ∨
            (s.lane ready.lane).pendingEvents.size = 0 then
          startReadyLanes n (s.removeLaneIfIdle laneKey ready.lane)
        else startReadyLanes n (s.startLane laneKey ready.lane ready.callback)

/-! ### Events -/

/-- A pending event is taken out of its lane and of the queue. -/
def takeOutPending (kind : HotRefreshLaneKind)
    (reference : PendingEventReference) : HotRefreshBackpressure :=
  let signalCount := (s.pending reference.pending).signalCount
  let s := s.updateLane reference.lane fun lane =>
    { lane with
      pendingEvents := lane.pendingEvents.delete reference.signature
      pendingSignalCount := lane.pendingSignalCount - signalCount }
  let s := s.updateQueue kind fun queue => queue.remove (·.pending) s.isWeaker reference.pending
  s.updateState kind fun state =>
    { state with
      pendingEvents := state.pendingEvents - 1
      pendingSignals := state.pendingSignals - signalCount }

/-- A lane that lost a pending event to another lane gives up its timer, and is dropped, if it is idle. -/
def releaseLane (laneKey : String) (l : Nat) : HotRefreshBackpressure :=
  match (s.lane l).timer with
  | none => s.removeLaneIfIdle laneKey l
  | some timer =>
    if (s.lane l).pendingEvents.size = 0 ∧ (s.lane l).running = false then
      ({ s with timers := s.timers.delete timer }.updateLane l fun lane =>
        { lane with timer := none }).removeLaneIfIdle laneKey l
    else s.removeLaneIfIdle laneKey l

/-- The eviction of `reservePendingSignature`: the weakest pending event makes room for another. -/
def evictWeakest (kind : HotRefreshLaneKind) (laneKey : String)
    (weakest : PendingEventReference) : HotRefreshBackpressure :=
  if weakest.laneKey = laneKey then s.takeOutPending kind weakest
  else (s.takeOutPending kind weakest).releaseLane weakest.laneKey weakest.lane

/-- `reservePendingSignature`: the state with room for one more, or none when the event is dropped. -/
def reservePendingSignature (kind : HotRefreshLaneKind) (laneKey : String)
    (event : MarketEvent) : Option HotRefreshBackpressure :=
  if (s.stateByLaneKind kind).pendingEvents < s.getMaxPendingSignatures kind then some s
  else
    match (s.pendingEventsByLaneKind kind).peek with
    | none => none
    | some weakest =>
      if event.getUnitPrice ≤ (s.pending weakest.pending).event.getUnitPrice then none
      else some (s.evictWeakest kind laneKey weakest)

/-- The kind of an event's lane. -/
def laneKind (event : MarketEvent) : HotRefreshLaneKind :=
  if isBroadHotRefreshEvent event then .broad else .item

/-- A new lane. -/
def makeLane (laneKey : String) (kind : HotRefreshLaneKind) (nextRunAt : Nat) : HotRefreshBackpressure :=
  { s with
    lanes := s.lanes.set laneKey s.nextLane
    nextLane := s.nextLane + 1
    lane := Function.update s.lane s.nextLane ⟨false, .empty, 0, nextRunAt, none, kind⟩ }

/-- `getLane`, with the state it leaves. -/
def getLane (event : MarketEvent) : Nat × HotRefreshBackpressure :=
  let laneKey := createLaneKey event
  match s.lanes.get laneKey with
  | some l => (l, s)
  | none =>
    let (deadline, s) := s.takeRetainedCooldown (laneKind event) laneKey
    let made := s.makeLane laneKey (laneKind event) (deadline.getD 0)
    match deadline with
    | some _ => (s.nextLane, made)
    | none =>
      (s.nextLane,
        made.updateState (laneKind event) fun state => { state with knownLanes := state.knownLanes + 1 })

/-- One more signal of a lane. -/
def countSignal (l : Nat) : HotRefreshBackpressure :=
  (s.updateState (s.lane l).kind fun state =>
    { state with pendingSignals := state.pendingSignals + 1 }).updateLane l fun lane =>
      { lane with pendingSignalCount := lane.pendingSignalCount + 1 }

/-- The end of `queueEvent`: the lane is left as it is, scheduled or started. -/
def wakeLane (laneKey : String) (l callback : Nat) : HotRefreshBackpressure :=
  if (s.lane l).running ∨ (s.lane l).timer.isSome then s
  else if (s.lane l).nextRunAt - s.now > 0 then
    s.scheduleLane laneKey l callback ((s.lane l).nextRunAt - s.now)
  else s.startLane laneKey l callback

/-- An event whose signature is pending joins it. -/
def coalesce (l p : Nat) (event : MarketEvent) : HotRefreshBackpressure :=
  let s :=
    { s with
      pending := Function.update s.pending p
        ⟨selectConservativeEvent (s.pending p).event event, (s.pending p).signalCount + 1⟩ }
  s.updateQueue (s.lane l).kind fun queue => queue.update (·.pending) s.isWeaker p

/-- An event with a new signature. -/
def addPending (laneKey : String) (l : Nat) (signature : String)
    (event : MarketEvent) : HotRefreshBackpressure :=
  let p := s.nextPending
  let kind := (s.lane l).kind
  let s := { s with pending := Function.update s.pending p ⟨event, 1⟩, nextPending := p + 1 }
  let s := s.updateLane l fun lane => { lane with pendingEvents := lane.pendingEvents.set signature p }
  let s := s.updateQueue kind fun queue => queue.add (·.pending) s.isWeaker ⟨laneKey, l, signature, p⟩
  s.updateState kind fun state => { state with pendingEvents := state.pendingEvents + 1 }

def queueEvent (event : MarketEvent) (callback : Nat) : HotRefreshBackpressure :=
  if s.stopped then s
  else
    let laneKey := createLaneKey event
    let signature := createEventSignature event
    match s.lanes.get laneKey with
    | some l =>
      match (s.lane l).pendingEvents.get signature with
      | some p => ((s.coalesce l p event).countSignal l).wakeLane laneKey l callback
      | none =>
        match s.reservePendingSignature (laneKind event) laneKey event with
        | none => s
        | some s => ((s.addPending laneKey l signature event).countSignal l).wakeLane laneKey l callback
    | none =>
      match s.reservePendingSignature (laneKind event) laneKey event with
      | none => s
      | some s =>
        let (l, s) := s.getLane event
        ((s.addPending laneKey l signature event).countSignal l).wakeLane laneKey l callback

/-! ### Timers, passes and the end -/

/-- The callback of a lane's timer. -/
def fireTimer (timer : LaneTimer) : HotRefreshBackpressure :=
  let s := s.updateLane timer.lane fun lane => { lane with timer := none }
  if s.stopped ∨ (s.lane timer.lane).running then s
  else if (s.lane timer.lane).pendingEvents.size > 0 then
    s.startLane timer.laneKey timer.lane timer.callback
  else s.removeLaneIfIdle timer.laneKey timer.lane

/-- The lane of a pass that ended no longer runs. -/
def releasePass (id : Nat) (pass : HotRefreshPass) : HotRefreshBackpressure :=
  { (s.updateLane pass.lane fun lane => { lane with running := false }).updateState (s.lane pass.lane).kind
      fun state => { state with activeLanes := state.activeLanes - 1 } with
    activePassCount := s.activePassCount - 1
    passes := s.passes.delete id }

/-- The pass sets the cooldown of its lane. -/
def coolDown (pass : HotRefreshPass) (nextRunAt : Nat) : HotRefreshBackpressure :=
  { s.updateLane pass.lane fun lane => { lane with nextRunAt := nextRunAt } with
    deadlines := Function.update s.deadlines pass.laneKey (some nextRunAt) }

/-- The `finally` of a pass. -/
def finishPass (id : Nat) (pass : HotRefreshPass) : HotRefreshBackpressure :=
  let cooldownMs := s.getCooldownMs (s.lane pass.lane).kind
  let s := s.releasePass id pass
  if s.stopped then (s.clearLanePending pass.lane).updateLane pass.lane fun lane => { lane with timer := none }
  else
    let s := s.coolDown pass (s.now + cooldownMs)
    let s :=
      if (s.lane pass.lane).pendingEvents.size > 0 then
        s.scheduleLane pass.laneKey pass.lane pass.callback cooldownMs
      else s.retainLaneCooldown pass.laneKey pass.lane
    startReadyLanes s.readyLanes.size s

def clearRetainedCooldownLanes : HotRefreshBackpressure :=
  { s with
    cooldownCleanupTimersByKind := fun _ => none
    stateByLaneKind := fun kind =>
      { s.stateByLaneKind kind with
        knownLanes := (s.stateByLaneKind kind).knownLanes - (s.cooldownLaneDeadlinesByKind kind).size }
    cooldownLaneDeadlinesByKind := fun _ => .empty }

/-- What `stop` does to one lane. -/
def stopLane (l : Nat) : HotRefreshBackpressure :=
  let s :=
    match (s.lane l).timer with
    | none => s
    | some timer => { s with timers := s.timers.delete timer }
  (s.updateLane l fun lane => { lane with timer := none }).clearLanePending l

/-- `stop`, up to where it waits for the passes. -/
def stop : HotRefreshBackpressure :=
  let s := { s with stopped := true, readyLanes := .empty }.clearRetainedCooldownLanes
  s.lanes.values.foldl stopLane s

/-- The rest of `stop`. -/
def stopped' : HotRefreshBackpressure :=
  { s with
    lanes := .empty
    activePassCount := 0
    pendingEventsByLaneKind := fun _ => ⟨[], fun _ => none⟩
    stateByLaneKind := fun _ => ⟨0, 0, 0, 0⟩ }

end HotRefreshBackpressure

/-- What can happen to the scheduler. -/
inductive HotRefreshEvent
  /-- An event of the stream. -/
  | event (event : MarketEvent) (callback : Nat)
  | elapse (ms : Nat)
  /-- The timer of a lane. -/
  | timer (id : Nat)
  /-- The cleanup timer of a kind. -/
  | cleanup (kind : HotRefreshLaneKind)
  /-- A pass ends, when its callbacks succeeded or one failed. -/
  | passSettled (id : Nat) (succeeded : Bool)
  | stop
  /-- All passes that `stop` waits for have settled. -/
  | stopSettled

namespace HotRefreshBackpressure

def step (s : HotRefreshBackpressure) : HotRefreshEvent → HotRefreshBackpressure
  | .event event callback => if isSupportedHotRefreshEvent event then s.queueEvent event callback else s
  | .elapse ms => { s with now := s.now + ms }
  | .timer id =>
    match s.timers.get id with
    | none => s
    | some timer =>
      if timer.dueAt ≤ s.now then { s with timers := s.timers.delete id }.fireTimer timer else s
  | .cleanup kind =>
    match s.cooldownCleanupTimersByKind kind with
    | none => s
    | some dueAt =>
      if dueAt ≤ s.now then
        { s with
          cooldownCleanupTimersByKind :=
            Function.update s.cooldownCleanupTimersByKind kind none }.expireRetainedCooldowns kind
      else s
  | .passSettled id _ =>
    match s.passes.get id with
    | none => s
    | some pass => s.finishPass id pass
  | .stop => s.stop
  | .stopSettled => if s.stopped ∧ s.passes.size = 0 then s.stopped' else s

end HotRefreshBackpressure

end Artgod.Trading
