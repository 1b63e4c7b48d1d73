/-
# Refreshes of the bidder

The refresh side of `Bidder`: background requests, one refresh loop for each job, immediate refreshes of
commands and activations, the locks they run under, and the closing of background admission.  A request that
finds the loop `running` is coalesced into the pending request of the job.  The loop ends in two steps: it sees
that nothing is pending, and a microtask later `.finally` clears `running` and whatever is pending by then;
between the two the job is in its finishing window (`JobEntry.finishing`).  A request has a number.
-/
import Mathlib.Logic.Function.Basic
import Artgod.Js.OrderedMap
import Artgod.Machine.Runs

namespace Artgod.Trading

open Js

/-! ## 1. Requests, loops and states -/

inductive BidderRefreshTrigger
  | fullScan
  | hotStream
  | userCommand
  | runtimeActivation
  | internal
  deriving DecidableEq

structure ProgressContext where
  sequence : Nat
  total : Nat
  deriving DecidableEq

/-- A background request: its number, and whether it has an `onCompleted`. -/
structure RefreshRequest where
  id : Nat
  observed : Bool
  deriving DecidableEq

/-- `JobExecutionOptions`; `requests` are the requests that `onCompleted` answers. -/
structure JobExecutionOptions where
  throwOnFailure : Bool
  trigger : BidderRefreshTrigger
  requestedAt : Int
  requests : List RefreshRequest
  deriving DecidableEq

structure JobExecutionState where
  running : Bool
  executing : Bool
  pending : Bool
  inFlightPromise : Option Nat
  pendingContext : Option ProgressContext
  pendingThrowOnFailure : Bool
  pendingRequestedAt : Option Int
  pendingTrigger : Option BidderRefreshTrigger
  pendingRequests : List RefreshRequest
  deriving DecidableEq

/-- Where `runJobRefreshLoop` stands. -/
inductive LoopPhase
  /-- Waiting for a slot of `jobExecutionSemaphore`. -/
  | slot
  /-- Waiting for the job's mutex, with a slot. -/
  | mutex
  /-- In `executeJob`, with both. -/
  | executing
  /-- Past both, before it looks at `state.pending`. -/
  | released
  /-- Returned or thrown, before the `.finally` callback. -/
  | returned (fulfilled : Bool)
  deriving DecidableEq

structure JobLoop where
  promise : Nat
  context : Option ProgressContext
  options : JobExecutionOptions
  phase : LoopPhase
  deriving DecidableEq

/-- What the bidder holds for a job: its `JobExecutionState`, and the loop that runs for it. -/
structure JobEntry where
  state : JobExecutionState
  loop : Option JobLoop
  deriving DecidableEq

/-- `refreshJobImmediately` in the queue of the job's mutex, or in `executeJob`. -/
structure ImmediateRefresh where
  jobId : String
  trigger : BidderRefreshTrigger
  executing : Bool

/-- Who holds a job's mutex; `elsewhere` is `cancelActiveOffersForJob`. -/
inductive MutexHolder
  | loop
  | immediate (promise : Nat)
  | elsewhere
  deriving DecidableEq

/-- A call of `executeJob`: the promise it is part of, the requests it answers, the step it began in, and
whether the job was scheduled then. -/
structure StrategyExecution where
  jobId : String
  promise : Nat
  background : Bool
  requests : List Nat
  startedTick : Nat
  scheduled : Bool

/-- A background request as it was made: what its caller awaits, or nothing when it was refused. -/
structure RequestRecord where
  jobId : String
  observed : Bool
  requestedTick : Nat
  promise : Option Nat

structure BidderRefreshes where
  scheduled : String → Bool
  acceptingRefreshes : Bool
  acceptingBackgroundRefreshes : Bool
  entries : OrderedMap String JobEntry
  immediates : OrderedMap Nat ImmediateRefresh
  freeSlots : Nat
  mutexes : String → Option MutexHolder
  waitingRefreshCount : Nat
  activeRefreshCount : Nat
  pendingRefreshCount : Nat
  nextPromise : Nat
  /-- The promises that have settled, and whether they were fulfilled. -/
  settled : Nat → Option Bool
  nextRequest : Nat
  requested : Nat → Option RequestRecord
  /-- The calls of `onCompleted`, for each request. -/
  completions : Nat → List Bool
  executions : List StrategyExecution
  tick : Nat

/-- The state that `getJobExecutionState` makes. -/
def JobExecutionState.idle : JobExecutionState :=
  ⟨false, false, false, none, none, false, none, none, []⟩

def JobEntry.idle : JobEntry := ⟨.idle, none⟩

/-- The bidder after its constructor. -/
def BidderRefreshes.initial (maxConcurrentJobs : Nat) : BidderRefreshes where
  scheduled := fun _ => false
  acceptingRefreshes := true
  acceptingBackgroundRefreshes := true
  entries := .empty
  immediates := .empty
  freeSlots := maxConcurrentJobs
  mutexes := fun _ => none
  waitingRefreshCount := 0
  activeRefreshCount := 0
  pendingRefreshCount := 0
  nextPromise := 0
  settled := fun _ => none
  nextRequest := 0
  requested := fun _ => none
  completions := fun _ => []
  executions := []
  tick := 0

/-! ## 2. The state of one job -/

variable (state : JobExecutionState)

/-- `setRefreshPending(state, true)` and the merge of a request into the pending one. -/
def JobExecutionState.coalesce (context : Option ProgressContext)
    (options : JobExecutionOptions) : JobExecutionState :=
  { state with
    pending := true
    pendingContext := context.or state.pendingContext
    pendingThrowOnFailure := state.pendingThrowOnFailure || options.throwOnFailure
    pendingRequestedAt :=
      some (min (state.pendingRequestedAt.getD options.requestedAt) options.requestedAt)
    pendingTrigger := some options.trigger
    pendingRequests := state.pendingRequests ++ options.requests }

/-- `clearPendingRefresh`. -/
def JobExecutionState.clearPending : JobExecutionState :=
  { state with
    pending := false
    pendingContext := none
    pendingThrowOnFailure := false
    pendingRequestedAt := none
    pendingTrigger := none
    pendingRequests := [] }

/-- The options that the loop makes of the pending request. -/
def JobExecutionState.takenOptions (now : Int) : JobExecutionOptions :=
  ⟨state.pendingThrowOnFailure, state.pendingTrigger.getD .internal, state.pendingRequestedAt.getD now,
    state.pendingRequests⟩

/-- The loop waits for one of its locks. -/
def JobLoop.waiting (loop : JobLoop) : Bool := loop.phase = .slot || loop.phase = .mutex

/-- The requests that the loop is still to answer. -/
def JobLoop.carried (loop : JobLoop) : List RefreshRequest :=
  if loop.waiting || loop.phase = .executing then loop.options.requests else []

def JobEntry.waiting (entry : JobEntry) : Bool := entry.loop.any JobLoop.waiting

def JobEntry.executing (entry : JobEntry) : Bool := entry.loop.any (·.phase = .executing)

def JobEntry.pending (entry : JobEntry) : Bool := entry.state.pending

/-- The finishing window: the loop has returned, and its `.finally` callback has not run. -/
def JobEntry.finishing (entry : JobEntry) : Bool :=
  entry.loop.any fun loop => loop.phase = .returned true || loop.phase = .returned false

/-- The requests that are not answered yet. -/
def JobEntry.held (entry : JobEntry) : List RefreshRequest :=
  entry.state.pendingRequests ++ (entry.loop.map JobLoop.carried).getD []

/-- The completion callbacks of the requests are called. -/
def callObservers (requests : List RefreshRequest) (succeeded : Bool) (completions : Nat → List Bool) :
    Nat → List Bool :=
  fun r => completions r ++
    (requests.filter fun request => request.observed && request.id = r).map fun _ => succeeded

namespace BidderRefreshes

variable (s : BidderRefreshes)

/-- `getJobExecutionState`, and the loop of the job. -/
def entry (jobId : String) : JobEntry := (s.entries.get jobId).getD .idle

def putEntry (jobId : String) (entry : JobEntry) : BidderRefreshes :=
  { s with entries := s.entries.set jobId entry }

/-- `pendingRefreshCount` after the pending flag of a job goes down. -/
def countCleared (jobId : String) : Nat :=
  if (s.entry jobId).pending then s.pendingRefreshCount - 1 else s.pendingRefreshCount

/-! ## 3. Background requests -/

/-- A request is numbered, with what its caller will await. -/
def record (jobId : String) (observed : Bool) (promise : Option Nat) : BidderRefreshes :=
  { s with
    requested := Function.update s.requested s.nextRequest (some ⟨jobId, observed, s.tick, promise⟩)
    nextRequest := s.nextRequest + 1 }

/-- The request finds the loop running. -/
def coalesce (s : BidderRefreshes) (jobId : String) (context : Option ProgressContext)
    (options : JobExecutionOptions) : BidderRefreshes :=
  { s.putEntry jobId { s.entry jobId with state := (s.entry jobId).state.coalesce context options } with
    pendingRefreshCount :=
      if (s.entry jobId).pending then s.pendingRefreshCount else s.pendingRefreshCount + 1 }

/-- The request starts a loop. -/
def startLoop (jobId : String) (context : Option ProgressContext)
    (options : JobExecutionOptions) : BidderRefreshes :=
  { s.putEntry jobId
      { state :=
          { (s.entry jobId).state.clearPending with running := true, inFlightPromise := some s.nextPromise }
        loop := some ⟨s.nextPromise, context, options, .slot⟩ } with
    pendingRefreshCount := s.countCleared jobId
    waitingRefreshCount := s.waitingRefreshCount + 1
    nextPromise := s.nextPromise + 1 }

/-- `refreshJobWithOptions`, up to what its caller awaits. -/
def refreshJobWithOptions (jobId : String) (context : Option ProgressContext)
    (throwOnFailure : Bool) (trigger : BidderRefreshTrigger) (now : Int) (observed : Bool) :
    BidderRefreshes :=
  let options := JobExecutionOptions.mk throwOnFailure trigger now [⟨s.nextRequest, observed⟩]
  if !s.acceptingBackgroundRefreshes then
    { s.record jobId observed none with completions := callObservers options.requests false s.completions }
  else if (s.entry jobId).state.running then
    (s.coalesce jobId context options).record jobId observed (s.entry jobId).state.inFlightPromise
  else (s.startLoop jobId context options).record jobId observed (some s.nextPromise)

def refreshJob (s : BidderRefreshes) (jobId : String) (context : Option ProgressContext)
    (trigger : BidderRefreshTrigger) (now : Int) : BidderRefreshes :=
  s.refreshJobWithOptions jobId context false trigger now false

/-- `refreshJobForScan`, which passes an `onCompleted`. -/
def refreshJobForScan (jobId : String) (context : ProgressContext) (now : Int) : BidderRefreshes :=
  s.refreshJobWithOptions jobId (some context) false .fullScan now true

/-! ## 4. The loop -/

/-- The semaphore gives the loop a slot. -/
def grantSlot (jobId : String) : BidderRefreshes :=
  match (s.entry jobId).loop with
  | none => s
  | some loop =>
    if loop.phase = .slot ∧ 0 < s.freeSlots then
      { s.putEntry jobId { s.entry jobId with loop := some { loop with phase := .mutex } } with
        freeSlots := s.freeSlots - 1 }
    else s

/-- The body under both locks when admission was closed meanwhile: the requests are told, and the locks
are given back. -/
def discardLoop (jobId : String) (loop : JobLoop) : BidderRefreshes :=
  { s.putEntry jobId { s.entry jobId with loop := some { loop with phase := .released } } with
    waitingRefreshCount := s.waitingRefreshCount - 1
    freeSlots := s.freeSlots + 1
    completions := callObservers loop.options.requests false s.completions }

/-- The body under both locks up to `executeJob`. -/
def enterLoop (jobId : String) (loop : JobLoop) : BidderRefreshes :=
  { s.putEntry jobId
      { state := { (s.entry jobId).state with executing := true }
        loop := some { loop with phase := .executing } } with
    waitingRefreshCount := s.waitingRefreshCount - 1
    activeRefreshCount := s.activeRefreshCount + 1
    mutexes := Function.update s.mutexes jobId (some .loop)
    executions := s.executions ++
      [⟨jobId, loop.promise, true, loop.options.requests.map RefreshRequest.id, s.tick,
        s.scheduled jobId⟩] }

/-- The job's mutex is given to the loop. -/
def grantMutex (jobId : String) : BidderRefreshes :=
  match (s.entry jobId).loop with
  | none => s
  | some loop =>
    if loop.phase = .mutex ∧ s.mutexes jobId = none then
      if !s.acceptingBackgroundRefreshes then s.discardLoop jobId loop else s.enterLoop jobId loop
    else s

/-- `executeJob` ends; `succeeded` is `!failed`.  It throws when it failed and has to. -/
def finishExecution (jobId : String) (succeeded : Bool) : BidderRefreshes :=
  match (s.entry jobId).loop with
  | none => s
  | some loop =>
    if loop.phase = .executing then
      { s.putEntry jobId
          { state := { (s.entry jobId).state with executing := false }
            loop := some { loop with
                phase :=
                  if !succeeded && loop.options.throwOnFailure then .returned false else .released } } with
        activeRefreshCount := s.activeRefreshCount - 1
        mutexes := Function.update s.mutexes jobId none
        freeSlots := s.freeSlots + 1
        completions := callObservers loop.options.requests succeeded s.completions }
    else s

/-- The loop takes up the pending request. -/
def takePending (jobId : String) (loop : JobLoop) (now : Int) : BidderRefreshes :=
  { s.putEntry jobId
      { state := (s.entry jobId).state.clearPending
        loop := some { loop with
            context := (s.entry jobId).state.pendingContext
            options := (s.entry jobId).state.takenOptions now
            phase := .slot } } with
    pendingRefreshCount := s.countCleared jobId
    waitingRefreshCount := s.waitingRefreshCount + 1 }

/-- The loop goes on after its locks: it returns when nothing is pending. -/
def continueLoop (jobId : String) (now : Int) : BidderRefreshes :=
  match (s.entry jobId).loop with
  | none => s
  | some loop =>
    if loop.phase = .released then
      if (s.entry jobId).pending then s.takePending jobId loop now
      else s.putEntry jobId { s.entry jobId with loop := some { loop with phase := .returned true } }
    else s

/-- The `.finally` callback, with the value of the loop's promise. -/
def finishLoop (jobId : String) (loop : JobLoop) (fulfilled : Bool) : BidderRefreshes :=
  { s.putEntry jobId
      { state := { (s.entry jobId).state.clearPending with running := false, inFlightPromise := none }
        loop := none } with
    pendingRefreshCount := s.countCleared jobId
    settled := Function.update s.settled loop.promise (some fulfilled) }

def runFinally (jobId : String) : BidderRefreshes :=
  match (s.entry jobId).loop with
  | none => s
  | some loop =>
    match loop.phase with
    | .returned fulfilled => s.finishLoop jobId loop fulfilled
    | _ => s

/-! ## 5. Immediate refreshes -/

/-- `refreshJobImmediately` up to the queue of the job's mutex. -/
def refreshJobImmediately (jobId : String) (trigger : BidderRefreshTrigger) : BidderRefreshes :=
  if !s.acceptingRefreshes then s
  else if !s.acceptingBackgroundRefreshes && trigger ≠ .userCommand then s
  else
    { s with
      immediates := s.immediates.set s.nextPromise ⟨jobId, trigger, false⟩
      waitingRefreshCount := s.waitingRefreshCount + 1
      nextPromise := s.nextPromise + 1 }

/-- The immediate refresh has the mutex, and is not wanted any more. -/
def discardImmediate (promise : Nat) : BidderRefreshes :=
  { s with
    immediates := s.immediates.delete promise
    waitingRefreshCount := s.waitingRefreshCount - 1
    settled := Function.update s.settled promise (some true) }

/-- The immediate refresh has the mutex, and calls `executeJob`. -/
def enterImmediate (promise : Nat) (immediate : ImmediateRefresh) : BidderRefreshes :=
  { s with
    immediates := s.immediates.set promise { immediate with executing := true }
    waitingRefreshCount := s.waitingRefreshCount - 1
    activeRefreshCount := s.activeRefreshCount + 1
    mutexes := Function.update s.mutexes immediate.jobId (some (.immediate promise))
    executions := s.executions ++
      [⟨immediate.jobId, promise, decide (immediate.trigger ≠ .userCommand), [], s.tick,
        s.scheduled immediate.jobId⟩] }

def grantImmediate (promise : Nat) : BidderRefreshes :=
  match s.immediates.get promise with
  | none => s
  | some immediate =>
    if immediate.executing = false ∧ s.mutexes immediate.jobId = none then
      if !s.acceptingBackgroundRefreshes && immediate.trigger ≠ .userCommand then s.discardImmediate promise
      else s.enterImmediate promise immediate
    else s

/-- `executeJob` ends for an immediate refresh; only a command is told of a failure. -/
def finishImmediate (promise : Nat) (succeeded : Bool) : BidderRefreshes :=
  match s.immediates.get promise with
  | none => s
  | some immediate =>
    if immediate.executing then
      { s with
        immediates := s.immediates.delete promise
        activeRefreshCount := s.activeRefreshCount - 1
        mutexes := Function.update s.mutexes immediate.jobId none
        settled := Function.update s.settled promise
          (some (succeeded || decide (immediate.trigger ≠ .userCommand))) }
    else s

/-- `cancelActiveOffersForJob` has the job's mutex. -/
def lockElsewhere (jobId : String) : BidderRefreshes :=
  { s with
    mutexes :=
      if s.mutexes jobId = none then Function.update s.mutexes jobId (some .elsewhere) else s.mutexes }

def unlockElsewhere (jobId : String) : BidderRefreshes :=
  { s with
    mutexes :=
      if s.mutexes jobId = some .elsewhere then Function.update s.mutexes jobId none else s.mutexes }

/-! ## 6. Closing -/

/-- `closeBackgroundRefreshAdmission`: the pending requests of all jobs are told and dropped. -/
def closeBackgroundRefreshAdmission : BidderRefreshes :=
  { s with
    acceptingBackgroundRefreshes := false
    completions :=
      callObservers (s.entries.values.flatMap fun entry => entry.state.pendingRequests) false s.completions
    pendingRefreshCount :=
      s.entries.values.foldl (fun count entry => if entry.pending then count - 1 else count)
        s.pendingRefreshCount
    entries := s.entries.map fun entry => { entry with state := entry.state.clearPending } }

/-- `stop`, up to what it awaits. -/
def stop : BidderRefreshes :=
  { s with acceptingRefreshes := false }.closeBackgroundRefreshAdmission

end BidderRefreshes

/-- What can happen to the bidder: calls, and continuations after an `await`. -/
inductive RefreshEvent
  | addJob (jobId : String)
  | removeJob (jobId : String)
  | refreshJob (jobId : String) (context : Option ProgressContext) (trigger : BidderRefreshTrigger)
      (now : Int)
  | refreshJobForScan (jobId : String) (context : ProgressContext) (now : Int)
  | refreshJobImmediately (jobId : String) (trigger : BidderRefreshTrigger)
  | grantSlot (jobId : String)
  | grantMutex (jobId : String)
  | finishExecution (jobId : String) (succeeded : Bool)
  | continueLoop (jobId : String) (now : Int)
  | runFinally (jobId : String)
  | grantImmediate (promise : Nat)
  | finishImmediate (promise : Nat) (succeeded : Bool)
  | lockElsewhere (jobId : String)
  | unlockElsewhere (jobId : String)
  | closeBackgroundRefreshAdmission
  | stop

namespace BidderRefreshes

def handle (s : BidderRefreshes) : RefreshEvent → BidderRefreshes
  | .addJob jobId => { s with scheduled := Function.update s.scheduled jobId true }
  | .removeJob jobId => { s with scheduled := Function.update s.scheduled jobId false }
  | .refreshJob jobId context trigger now => s.refreshJob jobId context trigger now
  | .refreshJobForScan jobId context now => s.refreshJobForScan jobId context now
  | .refreshJobImmediately jobId trigger => s.refreshJobImmediately jobId trigger
  | .grantSlot jobId => s.grantSlot jobId
  | .grantMutex jobId => s.grantMutex jobId
  | .finishExecution jobId succeeded => s.finishExecution jobId succeeded
  | .continueLoop jobId now => s.continueLoop jobId now
  | .runFinally jobId => s.runFinally jobId
  | .grantImmediate promise => s.grantImmediate promise
  | .finishImmediate promise succeeded => s.finishImmediate promise succeeded
  | .lockElsewhere jobId => s.lockElsewhere jobId
  | .unlockElsewhere jobId => s.unlockElsewhere jobId
  | .closeBackgroundRefreshAdmission => s.closeBackgroundRefreshAdmission
  | .stop => s.stop

def step (s : BidderRefreshes) (e : RefreshEvent) : BidderRefreshes :=
  { s.handle e with tick := (s.handle e).tick + 1 }

/-- The bidder after the events. -/
def after (maxConcurrentJobs : Nat) (es : List RefreshEvent) : BidderRefreshes :=
  Machine.run step (.initial maxConcurrentJobs) es

end BidderRefreshes

end Artgod.Trading
