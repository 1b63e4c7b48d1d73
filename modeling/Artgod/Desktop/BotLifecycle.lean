/-
# The bot lifecycle coordinator

`BotLifecycleCoordinator` fences the start, the stop and the wallet mutation of a bot.  Every method takes one
mutex, so a run of the desktop application is a list of whole method calls; every turn of a stop's loop is one.
The flags that cancel a start are shared and read outside the mutex: they are named by their allocation.
-/
import Mathlib.Data.List.Nodup
import Mathlib.Logic.Function.Basic
import Artgod.Machine.Runs

namespace Artgod.Desktop

/-! ## 1. The coordinator -/

inductive BotKind
  | bidding
  | sniping
  deriving DecidableEq

/-- A cancellation flag, by the position of its allocation. -/
abbrev BotStartCancellation := Nat

inductive BotLifecycleOperation
  | starting (generation coreGeneration : Nat) (cancellation : BotStartCancellation)
  | stopping (generation : Nat)
  | mutating (generation : Nat)

def BotLifecycleOperation.generation : BotLifecycleOperation → Nat
  | .starting generation _ _ => generation
  | .stopping generation => generation
  | .mutating generation => generation

structure ActiveBotLifecycle where
  generation : Nat
  cancellation : BotStartCancellation
  deriving DecidableEq

structure BotLifecycleSlot where
  operation : Option BotLifecycleOperation
  active : Option ActiveBotLifecycle

/-- Neither changing state nor active. -/
def BotLifecycleSlot.empty : BotLifecycleSlot := ⟨none, none⟩

def BotLifecycleSlot.occupied (slot : BotLifecycleSlot) : Bool :=
  slot.operation.isSome || slot.active.isSome

/-- What the mutex guards.  A bot without an entry has the empty slot. -/
structure BotLifecycleState where
  nextGeneration : Nat
  coreGeneration : Nat
  bots : BotKind → BotLifecycleSlot

/-- The coordinator: the guarded state, whether its mutex is poisoned, and the flags allocated so far. -/
structure BotLifecycleCoordinator where
  state : BotLifecycleState
  poisoned : Bool
  flags : List Bool

/-- How a method ends.  A panic while the mutex is held poisons it. -/
inductive Outcome (α : Type)
  | ok (value : α)
  | err (text : String)
  | panics

structure BotStartReservation where
  botKind : BotKind
  generation : Nat
  coreGeneration : Nat
  cancellation : BotStartCancellation

/-- The lease of a worker: its generation, and the flag it shares with the reservation. -/
structure BotWorkerLifecycleLease where
  generation : Nat
  cancellation : BotStartCancellation
  deriving DecidableEq

structure BotStopReservation where
  botKind : BotKind
  generation : Nat

structure BotMutationReservation where
  botKind : BotKind
  generation : Nat

def BotStartReservation.workerLease (r : BotStartReservation) : BotWorkerLifecycleLease :=
  ⟨r.generation, r.cancellation⟩

/-- The largest `u64`. -/
def generationMax : Nat := 18446744073709551615

/-- `checked_add(1)` on the counter of generations. -/
def BotLifecycleState.checkedNext (state : BotLifecycleState) : Option Nat :=
  if state.nextGeneration < generationMax then some (state.nextGeneration + 1) else none

def lockError : String := "Failed to lock bot lifecycle state"

namespace BotLifecycleCoordinator

section

variable (c : BotLifecycleCoordinator)

def slot (botKind : BotKind) : BotLifecycleSlot := c.state.bots botKind

def setSlot (botKind : BotKind) (slot : BotLifecycleSlot) : BotLifecycleCoordinator :=
  { c with state := { c.state with bots := Function.update c.state.bots botKind slot } }

def isCancelled (cancellation : BotStartCancellation) : Bool :=
  c.flags.getD cancellation false

def cancel (cancellation : BotStartCancellation) : BotLifecycleCoordinator :=
  { c with flags := c.flags.set cancellation true }

/-- The slot of `botKind` changes to an operation of the generation `generation`, the last one drawn. -/
def begin (botKind : BotKind) (generation : Nat)
    (operation : BotLifecycleOperation) : BotLifecycleCoordinator :=
  { c with state :=
    { c.state with
      nextGeneration := generation
      bots := Function.update c.state.bots botKind ⟨some operation, (c.slot botKind).active⟩ } }

def poison : BotLifecycleCoordinator := { c with poisoned := true }

def reserveStart (botKind : BotKind) : BotLifecycleCoordinator × Outcome BotStartReservation :=
  if c.poisoned then (c, .err lockError)
  else if (c.slot botKind).occupied then (c, .err "Bot is already active or changing state.")
  else
    match c.state.checkedNext with
    | none => (c.poison, .panics)
    | some generation =>
      let cancellation := c.flags.length
      let c' := { c with flags := c.flags ++ [false] }
      (c'.begin botKind generation (.starting generation c.state.coreGeneration cancellation),
        .ok ⟨botKind, generation, c.state.coreGeneration, cancellation⟩)

/-- Where a stop is in its loop: not yet waiting, or woken from waiting for what it found. -/
inductive StopTurn
  | entered
  | wokenFromStart
  | wokenFromStop
  | wokenFromUpdate

/-- The error of a stop that finds the mutex poisoned. -/
def StopTurn.lockError : StopTurn → String
  | .entered => Desktop.lockError
  | .wokenFromStart => "Failed to wait for bot start cancellation"
  | .wokenFromStop => "Failed to wait for the active bot stop"
  | .wokenFromUpdate => "Failed to wait for the active bot update"

/-- What a turn of a stop comes to: another wait, or the reservation. -/
inductive StopResult
  | waits (next : StopTurn)
  | reserved (reservation : BotStopReservation)

/-- One turn of the loop of `reserve_stop`.  A pending start is cancelled and waited for. -/
def reserveStopTurn (botKind : BotKind) (turn : StopTurn) : BotLifecycleCoordinator × Outcome StopResult :=
  if c.poisoned then (c, .err turn.lockError)
  else
    match (c.slot botKind).operation with
    | some (.starting _ _ cancellation) => (c.cancel cancellation, .ok (.waits .wokenFromStart))
    | some (.stopping _) => (c, .ok (.waits .wokenFromStop))
    | some (.mutating _) => (c, .ok (.waits .wokenFromUpdate))
    | none =>
      let c' := match (c.slot botKind).active with
        | some active => c.cancel active.cancellation
        | none => c
      match c'.state.checkedNext with
      | none => (c'.poison, .panics)
      | some generation =>
        (c'.begin botKind generation (.stopping generation), .ok (.reserved ⟨botKind, generation⟩))

def reserveMutation (botKind : BotKind) : BotLifecycleCoordinator × Outcome BotMutationReservation :=
  if c.poisoned then (c, .err lockError)
  else if (c.slot botKind).occupied then
    (c, .err "Stop the bot before changing its wallet assignment.")
  else
    match c.state.checkedNext with
    | none => (c.poison, .panics)
    | some generation =>
      (c.begin botKind generation (.mutating generation), .ok ⟨botKind, generation⟩)

/-- The flags that `invalidate_core` sets for one slot. -/
def BotLifecycleSlot.cancellations (slot : BotLifecycleSlot) : List BotStartCancellation :=
  (match slot.operation with
    | some (.starting _ _ cancellation) => [cancellation]
    | _ => []) ++
  match slot.active with
  | some active => [active.cancellation]
  | none => []

def invalidateCore : BotLifecycleCoordinator :=
  if c.poisoned then c
  else if c.state.coreGeneration < generationMax then
    let c' := { c with state := { c.state with coreGeneration := c.state.coreGeneration + 1 } }
    (BotLifecycleSlot.cancellations (c.slot .bidding) ++
      BotLifecycleSlot.cancellations (c.slot .sniping)).foldl cancel c'
  else c.poison

def validateStartState (r : BotStartReservation) : Outcome Unit :=
  if c.isCancelled r.cancellation || c.state.coreGeneration != r.coreGeneration then
    .err "Bot start was cancelled because the desktop runtime changed."
  else
    match (c.slot r.botKind).operation with
    | some (.starting generation coreGeneration _) =>
      if generation = r.generation ∧ coreGeneration = r.coreGeneration then .ok ()
      else .err "Bot start no longer owns the active lifecycle generation."
    | _ => .err "Bot start no longer owns the active lifecycle generation."

/-- Whether the closure of `with_current_start` or `commit_start` is run. -/
def startIsCurrent (r : BotStartReservation) : Bool :=
  !c.poisoned && match c.validateStartState r with
    | .ok () => true
    | _ => false

/-- The slot of `botKind` without its active worker, when that has the generation. -/
def clearActive (botKind : BotKind) (generation : Nat) : BotLifecycleCoordinator :=
  match (c.slot botKind).active with
  | some active =>
    if active.generation = generation then c.setSlot botKind ⟨(c.slot botKind).operation, none⟩ else c
  | none => c

/-- `commit_start`; `publish` is what the closure returns: done, or an error. -/
def commitStart (r : BotStartReservation) (publish : Except String Unit) :
    BotLifecycleCoordinator × Outcome Unit :=
  if c.poisoned then (c, .err lockError)
  else
    match c.validateStartState r with
    | .err text => (c, .err text)
    | .panics => (c, .panics)
    | .ok () =>
      let c' := c.setSlot r.botKind ⟨(c.slot r.botKind).operation, some ⟨r.generation, r.cancellation⟩⟩
      match publish with
      | .ok () => (c', .ok ())
      | .error text => (c'.clearActive r.botKind r.generation, .err text)

def finishController (botKind : BotKind) (generation : Nat) : BotLifecycleCoordinator :=
  if c.poisoned then c else c.clearActive botKind generation

def finishStart (botKind : BotKind) (generation : Nat) : BotLifecycleCoordinator :=
  if c.poisoned then c
  else
    match (c.slot botKind).operation with
    | some (.starting current _ _) =>
      if current = generation then c.setSlot botKind ⟨none, (c.slot botKind).active⟩ else c
    | _ => c

def finishStop (botKind : BotKind) (generation : Nat) : BotLifecycleCoordinator :=
  if c.poisoned then c
  else
    match (c.slot botKind).operation with
    | some (.stopping current) => if current = generation then c.setSlot botKind .empty else c
    | _ => c

def finishMutation (botKind : BotKind) (generation : Nat) : BotLifecycleCoordinator :=
  if c.poisoned then c
  else
    match (c.slot botKind).operation with
    | some (.mutating current) =>
      if current = generation then c.setSlot botKind ⟨none, (c.slot botKind).active⟩ else c
    | _ => c

end

end BotLifecycleCoordinator

/-! ## 2. The application around it -/

/-- A reservation that somebody holds.  `committed` is whether `start_bot_runtime` was called with it. -/
inductive Reservation
  | start (reservation : BotStartReservation) (committed : Bool)
  | stop (reservation : BotStopReservation)
  | mutation (reservation : BotMutationReservation)

namespace Reservation

def botKind : Reservation → BotKind
  | .start r _ => r.botKind
  | .stop r => r.botKind
  | .mutation r => r.botKind

/-- The operation that the reservation put into the slot. -/
def operation : Reservation → BotLifecycleOperation
  | .start r _ => .starting r.generation r.coreGeneration r.cancellation
  | .stop r => .stopping r.generation
  | .mutation r => .mutating r.generation

def generation (r : Reservation) : Nat := r.operation.generation

end Reservation

/-- A worker whose controller was published and has not finished, with its lease. -/
structure BotWorker where
  botKind : BotKind
  lease : BotWorkerLifecycleLease
  deriving DecidableEq

/-- The application: the coordinator, the reservations held, the workers that run, and every generation
handed out, the newest first. -/
structure DesktopState where
  lifecycle : BotLifecycleCoordinator
  held : List Reservation
  workers : List BotWorker
  issued : List Nat

/-- A fresh coordinator, with nothing held and nothing running. -/
def DesktopState.initial : DesktopState where
  lifecycle := ⟨⟨0, 0, fun _ => .empty⟩, false, []⟩
  held := []
  workers := []
  issued := []

inductive LifecycleEvent
  | reserveStart (botKind : BotKind)
  /-- A turn of the loop of some `reserve_stop`. -/
  | stopTurn (botKind : BotKind) (turn : BotLifecycleCoordinator.StopTurn)
  /-- `with_idle_bot_mutation` reserves the bot; its mutation runs until `drop`. -/
  | beginMutation (botKind : BotKind)
  | invalidateCore
  /-- `with_current_start` with the start of that generation. -/
  | withCurrentStart (generation : Nat)
  /-- `start_bot_runtime` with the start of that generation. -/
  | commitStart (generation : Nat) (publish : Except String Unit)
  /-- A controller exits, in whatever generation. -/
  | finishController (botKind : BotKind) (generation : Nat)
  /-- The holder drops the reservation of that generation. -/
  | drop (generation : Nat)

namespace DesktopState

open BotLifecycleCoordinator

variable (s : DesktopState)

/-- A reservation was handed out. -/
def hold (c : BotLifecycleCoordinator) (r : Reservation) : DesktopState :=
  { s with lifecycle := c, held := r :: s.held, issued := r.generation :: s.issued }

/-- The start that is held in a generation and was not committed yet. -/
def pendingStart (generation : Nat) : Option BotStartReservation :=
  s.held.findSome? fun r => match r with
    | .start r false => if r.generation = generation then some r else none
    | _ => none

/-- Its reservation is used up by the commit, whatever that returns. -/
def markCommitted (generation : Nat) : List Reservation :=
  s.held.map fun r => match r with
    | .start r committed => .start r (committed || r.generation == generation)
    | r => r

/-- The destructor of a reservation. -/
def dropReservation (c : BotLifecycleCoordinator) : Reservation → BotLifecycleCoordinator
  | .start r _ => c.finishStart r.botKind r.generation
  | .stop r => c.finishStop r.botKind r.generation
  | .mutation r => c.finishMutation r.botKind r.generation

/-- Whether a commit of the start would publish its controller. -/
def publishes (generation : Nat) : Bool :=
  match s.pendingStart generation with
  | some r => s.lifecycle.startIsCurrent r
  | none => false

def step : LifecycleEvent → DesktopState
  | .reserveStart botKind =>
    match s.lifecycle.reserveStart botKind with
    | (c, .ok r) => s.hold c (.start r false)
    | (c, _) => { s with lifecycle := c }
  | .stopTurn botKind turn =>
    match s.lifecycle.reserveStopTurn botKind turn with
    | (c, .ok (.reserved r)) => s.hold c (.stop r)
    | (c, _) => { s with lifecycle := c }
  | .beginMutation botKind =>
    match s.lifecycle.reserveMutation botKind with
    | (c, .ok r) => s.hold c (.mutation r)
    | (c, _) => { s with lifecycle := c }
  | .invalidateCore => { s with lifecycle := s.lifecycle.invalidateCore }
  | .withCurrentStart _ => s
  | .commitStart generation publish =>
    match s.pendingStart generation with
    | none => s
    | some r =>
      match s.lifecycle.commitStart r publish with
      | (c, .ok ()) =>
        { s with
          lifecycle := c
          held := s.markCommitted generation
          workers := ⟨r.botKind, r.workerLease⟩ :: s.workers }
      | (c, _) => { s with lifecycle := c, held := s.markCommitted generation }
  | .finishController botKind generation =>
    { s with
      lifecycle := s.lifecycle.finishController botKind generation
      workers := s.workers.filter fun w => !(w.botKind == botKind && w.lease.generation == generation) }
  | .drop generation =>
    match s.held.find? fun r => r.generation == generation with
    | none => s
    | some r =>
      { s with
        lifecycle := dropReservation s.lifecycle r
        held := s.held.filter fun r => r.generation != generation }

/-- The state after the events, from a fresh application. -/
def after (es : List LifecycleEvent) : DesktopState := Machine.run step initial es

end DesktopState

/-! ## 3. What a method can change -/

namespace BotLifecycleCoordinator

variable {c : BotLifecycleCoordinator} {b : BotKind} {t : BotStartCancellation} {g : Nat}

@[simp] theorem slot_setSlot_same {slot : BotLifecycleSlot} :
    (c.setSlot b slot).slot b = slot := by
  simp [setSlot, BotLifecycleCoordinator.slot]

variable {b' : BotKind} {op : BotLifecycleOperation} {t' : BotStartCancellation}

@[simp] theorem slot_setSlot_ne {slot : BotLifecycleSlot}
    (h : b' ≠ b) : (c.setSlot b slot).slot b' = c.slot b' := by
  simp [setSlot, BotLifecycleCoordinator.slot, h]

@[simp] theorem slot_begin_same : (c.begin b g op).slot b = ⟨some op, (c.slot b).active⟩ := by
  simp [begin, BotLifecycleCoordinator.slot]

@[simp] theorem slot_begin_ne (h : b' ≠ b) : (c.begin b g op).slot b' = c.slot b' := by
  simp [begin, BotLifecycleCoordinator.slot, h]

theorem isCancelled_cancel :
    (c.cancel t).isCancelled t' = (c.isCancelled t' || (t' == t && decide (t < c.flags.length))) := by
  unfold isCancelled cancel
  rw [List.getD_eq_getElem?_getD, List.getD_eq_getElem?_getD, List.getElem?_set]
  by_cases ht : t = t'
  · subst ht
    by_cases hlt : t < c.flags.length
    · simp [hlt]
    · simp [hlt]
  · have ht' : ¬ t' = t := fun h => ht h.symm
    simp [ht, ht']

theorem isCancelled_cancel_of (h : c.isCancelled t' = true) : (c.cancel t).isCancelled t' = true := by
  rw [isCancelled_cancel, h, Bool.true_or]

theorem isCancelled_cancel_self (h : t < c.flags.length) : (c.cancel t).isCancelled t = true := by
  rw [isCancelled_cancel]
  simp [h]

theorem isCancelled_alloc :
    BotLifecycleCoordinator.isCancelled { c with flags := c.flags ++ [false] } t = c.isCancelled t := by
  unfold isCancelled
  rw [List.getD_eq_getElem?_getD, List.getD_eq_getElem?_getD, List.getElem?_append]
  by_cases hlt : t < c.flags.length
  · rw [if_pos hlt]
  rw [if_neg hlt, List.getElem?_eq_none (Nat.le_of_not_lt hlt)]
  cases t - c.flags.length with
  | zero => rfl
  | succ n => rfl

theorem checkedNext_eq_some {state : BotLifecycleState} (h : state.checkedNext = some g) :
    g = state.nextGeneration + 1 := by
  unfold BotLifecycleState.checkedNext at h
  split at h
  · exact (Option.some.inj h).symm
  · cases h

/-- The destructor of a reservation whose operation is in the slot clears that operation; a stop clears
the active worker with it. -/
theorem dropReservation_eq {r : Reservation}
    (h : (c.slot r.botKind).operation = some r.operation) :
    DesktopState.dropReservation c r =
      if c.poisoned then c
      else c.setSlot r.botKind ⟨none, match r with
        | .stop _ => none
        | _ => (c.slot r.botKind).active⟩ := by
  cases r with
  | start r committed =>
    have hop : (c.slot r.botKind).operation
        = some (.starting r.generation r.coreGeneration r.cancellation) := h
    simp [DesktopState.dropReservation, finishStart, Reservation.botKind, hop]
  | stop r =>
    have hop : (c.slot r.botKind).operation = some (.stopping r.generation) := h
    simp [DesktopState.dropReservation, finishStop, Reservation.botKind, hop, BotLifecycleSlot.empty]
  | mutation r =>
    have hop : (c.slot r.botKind).operation = some (.mutating r.generation) := h
    simp [DesktopState.dropReservation, finishMutation, Reservation.botKind, hop]

end BotLifecycleCoordinator

end Artgod.Desktop
