/-
# The bid-book projection scheduler

`BiddingBidBookProjectionScheduler` writes snapshots of a collection's offers into the bid book.  For each
collection it keeps the latest snapshot that has not been taken up, a timer that delays the next run, and the
versions requested and published.  A run ends published, skipped or failed; a request that comes while one is
in flight or a timer armed only leaves its snapshot.  The clock comes with each event and need not advance.
-/
import Artgod.Js.OrderedMap
import Artgod.Machine.Runs
import Artgod.Trading.OfferSnapshots

namespace Artgod.Trading

open Js

/-! ## 1. The scheduler -/

/-- `BIDDING_BID_BOOK_PROJECTION_OUTCOME`. -/
inductive BidBookProjectionOutcome
  | published
  | skipped
  | failed

structure ProjectionState where
  running : Bool
  latestSnapshot : Option CollectionOfferSnapshot
  pendingReason : Option String
  timer : Option Nat
  lastCompletedAt : Int
  firstRequestedAt : Option Int
  requestedVersion : Nat
  publishedVersion : Nat

/-- What `getState` puts in for a collection that has no state. -/
def ProjectionState.initial : ProjectionState := ⟨false, none, none, none, 0, none, 0, 0⟩

/-- An armed `setTimeout`. -/
structure ProjectionTimer where
  collectionSlug : String
  delayMs : Int

/-- A run in flight; `recording` after the port threw, while the error is being recorded. -/
structure ProjectionRun where
  collectionSlug : String
  snapshot : CollectionOfferSnapshot
  version : Nat
  reason : String
  startedAt : Int
  queueWaitMs : Int
  recording : Bool

/-- A run that ended. -/
structure FinishedProjection where
  collectionSlug : String
  version : Nat
  outcome : BidBookProjectionOutcome

structure BidBookProjectionScheduler where
  throttleMs : Int
  states : OrderedMap String ProjectionState
  timers : OrderedMap Nat ProjectionTimer
  nextTimer : Nat
  activeRuns : OrderedMap Nat ProjectionRun
  nextRun : Nat
  activeProjectionCount : Nat
  pendingProjectionCount : Nat
  reported : Nat × Nat
  stopped : Bool
  finished : List FinishedProjection

/-- `mergeReasons`. -/
def mergeProjectionReasons (existing : Option String) (incoming : String) : String :=
  match existing with
  | none => incoming
  | some existing =>
    if existing = "" then incoming
    else if incoming ∈ existing.splitOn " || " then existing
    else existing ++ " || " ++ incoming

namespace BidBookProjectionScheduler

/-- The constructor. -/
def create (throttleMs : Int) : BidBookProjectionScheduler where
  throttleMs := throttleMs
  states := .empty
  timers := .empty
  nextTimer := 0
  activeRuns := .empty
  nextRun := 0
  activeProjectionCount := 0
  pendingProjectionCount := 0
  reported := (0, 0)
  stopped := false
  finished := []

/-- `getState`. -/
def state (s : BidBookProjectionScheduler) (slug : String) : ProjectionState :=
  (s.states.get slug).getD .initial

section

variable (s : BidBookProjectionScheduler)

def setState (slug : String) (st : ProjectionState) : BidBookProjectionScheduler :=
  { s with states := s.states.set slug st }

def reportState : BidBookProjectionScheduler :=
  { s with reported := (s.activeProjectionCount, s.pendingProjectionCount) }

/-- The delay of `schedule`. -/
def delayMs (st : ProjectionState) (now : Int) : Int :=
  if st.lastCompletedAt = 0 then 0 else max 0 (s.throttleMs - (now - st.lastCompletedAt))

def schedule (slug : String) (now : Int) : BidBookProjectionScheduler :=
  let st := s.state slug
  { s.setState slug { st with timer := some s.nextTimer } with
    timers := s.timers.set s.nextTimer ⟨slug, s.delayMs st now⟩
    nextTimer := s.nextTimer + 1 }

/-- The state of a collection after a request. -/
def ProjectionState.request (st : ProjectionState) (snapshot : CollectionOfferSnapshot) (reason : String)
    (now : Int) : ProjectionState :=
  { st with
    latestSnapshot := some snapshot
    requestedVersion := st.requestedVersion + 1
    pendingReason := some (mergeProjectionReasons st.pendingReason reason)
    firstRequestedAt := some (st.firstRequestedAt.getD now) }

/-- A request is noted in the state of its collection. -/
def noteRequest (snapshot : CollectionOfferSnapshot) (reason : String)
    (now : Int) : BidBookProjectionScheduler :=
  let slug := snapshot.collectionSlug
  reportState { s.setState slug (ProjectionState.request (s.state slug) snapshot reason now) with
    pendingProjectionCount :=
      if (s.state slug).latestSnapshot.isNone then s.pendingProjectionCount + 1
      else s.pendingProjectionCount }

def requestProjection (snapshot : CollectionOfferSnapshot)
    (reason : String) (now : Int) : BidBookProjectionScheduler :=
  if s.stopped then s
  else
    let st := s.state snapshot.collectionSlug
    let s := s.noteRequest snapshot reason now
    if st.running || st.timer.isSome then s else s.schedule snapshot.collectionSlug now

/-- The state of a collection when its run starts. -/
def ProjectionState.take (st : ProjectionState) : ProjectionState :=
  { st with latestSnapshot := none, pendingReason := none, firstRequestedAt := none, running := true }

/-- `run`, until it waits for the port. -/
def startRun (slug : String) (now : Int) : BidBookProjectionScheduler :=
  let st := s.state slug
  match st.latestSnapshot with
  | none => s
  | some snapshot =>
    if s.stopped || st.running then s
    else
      reportState { s.setState slug (ProjectionState.take st) with
        pendingProjectionCount := s.pendingProjectionCount - 1
        activeProjectionCount := s.activeProjectionCount + 1
        activeRuns := s.activeRuns.set s.nextRun
          ⟨slug, snapshot, st.requestedVersion, st.pendingReason.getD "unspecified", now,
            max 0 (now - st.firstRequestedAt.getD now), false⟩
        nextRun := s.nextRun + 1 }

/-- The callback of a timer takes it off its state and starts a run. -/
def fireTimer (id : Nat) (now : Int) : BidBookProjectionScheduler :=
  match s.timers.get id with
  | none => s
  | some timer =>
    let slug := timer.collectionSlug
    startRun { s.setState slug { s.state slug with timer := none } with timers := s.timers.delete id }
      slug now

/-- The `finally` of `run`. -/
def endRun (id : Nat) (run : ProjectionRun)
    (outcome : BidBookProjectionOutcome) : BidBookProjectionScheduler :=
  let slug := run.collectionSlug
  reportState { s.setState slug { s.state slug with running := false } with
    activeProjectionCount := s.activeProjectionCount - 1
    activeRuns := s.activeRuns.delete id
    finished := s.finished ++ [⟨slug, run.version, outcome⟩] }

/-- The last lines of `run`: a snapshot that came in the meantime is scheduled. -/
def rearm (slug : String) (now : Int) : BidBookProjectionScheduler :=
  let st := s.state slug
  if !s.stopped && st.latestSnapshot.isSome && st.timer.isNone then s.schedule slug now else s

/-- What the port answers: it published, it skipped the write, or it threw. -/
inductive ProjectionResult
  | published
  | skipped
  | threw

/-- The port's answer reaches `run`. -/
def settleRun (id : Nat) (result : ProjectionResult) (now : Int) : BidBookProjectionScheduler :=
  match s.activeRuns.get id with
  | none => s
  | some run =>
    let slug := run.collectionSlug
    let st := s.state slug
    if run.recording then s
    else match result with
      | .published =>
        ((s.setState slug { st with lastCompletedAt := now, publishedVersion := run.version }).endRun id run
          .published).rearm slug now
      | .skipped =>
        ((s.setState slug { st with lastCompletedAt := now }).endRun id run .skipped).rearm slug now
      | .threw =>
        { s.setState slug { st with lastCompletedAt := now } with
          activeRuns := s.activeRuns.set id { run with recording := true } }

/-- `recordCollectionBidBookError` has settled, whether it recorded the error or failed itself. -/
def settleRecord (id : Nat) (now : Int) : BidBookProjectionScheduler :=
  match s.activeRuns.get id with
  | none => s
  | some run => if run.recording then (s.endRun id run .failed).rearm run.collectionSlug now else s

/-- The state of a collection after `stop`. -/
def ProjectionState.drop (st : ProjectionState) : ProjectionState :=
  { st with timer := none, latestSnapshot := none, pendingReason := none, firstRequestedAt := none }

/-- `stop`, until it waits for the runs in flight. -/
def stop : BidBookProjectionScheduler :=
  reportState { s with
    stopped := true
    states := s.states.map ProjectionState.drop
    timers := (s.states.values.filterMap (·.timer)).foldl OrderedMap.delete s.timers
    pendingProjectionCount := 0 }

end

end BidBookProjectionScheduler

open BidBookProjectionScheduler

inductive ProjectionEvent
  | request (snapshot : CollectionOfferSnapshot) (reason : String) (now : Int)
  | fire (timer : Nat) (now : Int)
  | settle (run : Nat) (result : ProjectionResult) (now : Int)
  | recorded (run : Nat) (now : Int)
  | stop

namespace BidBookProjectionScheduler

def step (s : BidBookProjectionScheduler) : ProjectionEvent → BidBookProjectionScheduler
  | .request snapshot reason now => s.requestProjection snapshot reason now
  | .fire timer now => s.fireTimer timer now
  | .settle run result now => s.settleRun run result now
  | .recorded run now => s.settleRecord run now
  | .stop => s.stop

/-! ## 2. What holds between the operations -/

/-- A snapshot waits to be taken up. -/
def Waits (st : ProjectionState) : Bool := st.latestSnapshot.isSome

/-- The run of the version has ended without publishing it. -/
def EndedUnpublished (s : BidBookProjectionScheduler) (slug : String) (version : Nat) : Prop :=
  ∃ outcome, outcome ≠ .published ∧ ⟨slug, version, outcome⟩ ∈ s.finished

/-- What holds of the state of one collection. -/
structure StateInv (s : BidBookProjectionScheduler) (slug : String) (st : ProjectionState) : Prop where
  versions : st.publishedVersion ≤ st.requestedVersion
  exclusive : st.running = true → st.timer = none
  covered : s.stopped = false → st.publishedVersion < st.requestedVersion →
    st.latestSnapshot.isSome ∨ st.running = true ∨ s.EndedUnpublished slug st.requestedVersion
  dropped : s.stopped = true → st.latestSnapshot = none ∧ st.timer = none

/-- What holds of a run in flight; `stop` drops a snapshot that came after it. -/
structure RunInv (stopped : Bool) (st : ProjectionState) (run : ProjectionRun) : Prop where
  running : st.running = true
  above : st.publishedVersion ≤ run.version
  below : run.version ≤ st.requestedVersion
  latest : stopped = false → st.latestSnapshot = none → run.version = st.requestedVersion

/-- Each run belongs to a state that is marked `running`, each timer to a state that holds it, and the
counters count the states. -/
structure Consistent (s : BidBookProjectionScheduler) : Prop where
  state : ∀ slug, StateInv s slug (s.state slug)
  run : ∀ id run, s.activeRuns.get id = some run → RunInv s.stopped (s.state run.collectionSlug) run
  run_bound : ∀ id run, s.activeRuns.get id = some run → id < s.nextRun
  run_unique : ∀ id run id' run', s.activeRuns.get id = some run → s.activeRuns.get id' = some run' →
    run.collectionSlug = run'.collectionSlug → id = id'
  running : ∀ slug, (s.state slug).running = true →
    ∃ id run, s.activeRuns.get id = some run ∧ run.collectionSlug = slug
  timer : ∀ id timer, s.timers.get id = some timer → (s.state timer.collectionSlug).timer = some id
  timer_bound : ∀ id timer, s.timers.get id = some timer → id < s.nextTimer
  armed : ∀ slug id, (s.state slug).timer = some id →
    ∃ timer, s.timers.get id = some timer ∧ timer.collectionSlug = slug
  active : s.activeProjectionCount = s.states.count (·.running)
  pending : s.pendingProjectionCount = s.states.count Waits
  reported : s.reported = (s.activeProjectionCount, s.pendingProjectionCount)

/-- A snapshot that waits has a run before it or a timer. -/
def Awake (s : BidBookProjectionScheduler) (slug : String) : Prop :=
  s.stopped = false → Waits (s.state slug) = true →
    (s.state slug).running = true ∨ (s.state slug).timer.isSome

structure ProjectionInv (s : BidBookProjectionScheduler) : Prop extends Consistent s where
  awake : ∀ slug, s.Awake slug

theorem state_set {s : BidBookProjectionScheduler} {states : OrderedMap String ProjectionState}
    {slug slug' : String} {st : ProjectionState} (h : s.states = states.set slug st) :
    s.state slug' = if slug = slug' then st else (states.get slug').getD .initial := by
  rw [state, h, OrderedMap.get_set]
  by_cases heq : slug = slug'
  · rw [if_pos heq, if_pos heq.symm, Option.getD_some]
  · rw [if_neg heq, if_neg fun h' => heq h'.symm]

variable {s s' : BidBookProjectionScheduler} {slug : String} {id : Nat} {run : ProjectionRun}

theorem count_setState {p : ProjectionState → Bool}
    (hinitial : p .initial = false) (slug : String) (st : ProjectionState) :
    (s.states.set slug st).count p + (if p (s.state slug) then 1 else 0) =
      s.states.count p + (if p st then 1 else 0) := by
  have hcount := OrderedMap.count_set (m := s.states) (p := p) (k := slug) (v := st)
  rw [OrderedMap.tally_some] at hcount
  rw [← hcount, state]
  cases s.states.get slug with
  | none => rw [OrderedMap.tally_none, Option.getD_none, hinitial, if_neg Bool.false_ne_true]
  | some old => rw [OrderedMap.tally_some, Option.getD_some]

variable {st : ProjectionState}

theorem state_kept {α : Type} (f : ProjectionState → α) (hstates : s'.states = s.states.set slug st)
    (hst : f st = f (s.state slug)) (slug' : String) : f (s'.state slug') = f (s.state slug') := by
  rw [state_set hstates]
  split
  · next heq => exact heq ▸ hst
  · rfl

theorem count_kept {p : ProjectionState → Bool} (hinitial : p .initial = false)
    (hst : p st = p (s.state slug)) : s.states.count p = (s.states.set slug st).count p := by
  have hcount := count_setState (s := s) hinitial slug st
  rw [hst] at hcount
  exact (Nat.add_right_cancel hcount).symm

theorem EndedUnpublished.mono {version : Nat}
    (h : s.EndedUnpublished slug version) (hfinished : ∀ f ∈ s.finished, f ∈ s'.finished) :
    s'.EndedUnpublished slug version := by
  obtain ⟨outcome, hne, hmem⟩ := h
  exact ⟨outcome, hne, hfinished _ hmem⟩

variable {now : Int} {timer : ProjectionTimer} {published : Nat}

theorem StateInv.keep (h : StateInv s slug st) (hstopped : s'.stopped = s.stopped)
    (hfinished : ∀ f ∈ s.finished, f ∈ s'.finished) : StateInv s' slug st where
  versions := h.versions
  exclusive := h.exclusive
  covered := by
    intro hrunning hlag
    rw [hstopped] at hrunning
    rcases h.covered hrunning hlag with hw | hr | he
    · exact .inl hw
    · exact .inr (.inl hr)
    · exact .inr (.inr (he.mono hfinished))
  dropped := by
    intro h'
    exact h.dropped (hstopped ▸ h')

theorem Awake.keep (h : s.Awake slug)
    (hstate : s'.state slug = s.state slug) (hstopped : s'.stopped = s.stopped) : s'.Awake slug := by
  unfold Awake
  rw [hstate, hstopped]
  exact h

theorem projectionInv_create (throttleMs : Int) : ProjectionInv (create throttleMs) where
  state := fun _ => ⟨Nat.le_refl _, fun _ => rfl, fun _ h => absurd h (Nat.lt_irrefl _),
    fun _ => ⟨rfl, rfl⟩⟩
  run := fun _ _ h => nomatch h
  run_bound := fun _ _ h => nomatch h
  run_unique := fun _ _ _ _ h => nomatch h
  running := fun _ h => nomatch h
  timer := fun _ _ h => nomatch h
  timer_bound := fun _ _ h => nomatch h
  armed := fun _ _ h => nomatch h
  active := rfl
  pending := rfl
  reported := rfl
  awake := fun _ _ h => nomatch h

/-! ## 3. Requests -/

theorem states_noteRequest {snapshot : CollectionOfferSnapshot} {reason : String} :
    (s.noteRequest snapshot reason now).states = s.states.set snapshot.collectionSlug
      (ProjectionState.request (s.state snapshot.collectionSlug) snapshot reason now) := rfl

theorem state_noteRequest {s : BidBookProjectionScheduler} {snapshot : CollectionOfferSnapshot}
    {reason : String} {now : Int} (slug : String) :
    (s.noteRequest snapshot reason now).state slug =
      if snapshot.collectionSlug = slug then
        ProjectionState.request (s.state snapshot.collectionSlug) snapshot reason now
      else s.state slug :=
  state_set states_noteRequest

theorem Consistent.noteRequest (h : Consistent s)
    (hstopped : s.stopped = false) (snapshot : CollectionOfferSnapshot) (reason : String) (now : Int) :
    Consistent (s.noteRequest snapshot reason now) where
  state := by
    intro slug
    rw [state_noteRequest]
    split
    · next heq =>
      subst heq
      have hst := h.state snapshot.collectionSlug
      refine ⟨Nat.le_succ_of_le hst.versions, hst.exclusive, fun _ _ => .inl rfl, fun h' => ?_⟩
      rw [show (s.noteRequest snapshot reason now).stopped = s.stopped from rfl, hstopped] at h'
      cases h'
    · exact (h.state slug).keep rfl fun _ hf => hf
  run := by
    intro id run hrun
    have hold := h.run id run hrun
    rw [state_noteRequest]
    split
    · next heq =>
      rw [← heq] at hold
      exact ⟨hold.running, hold.above, Nat.le_succ_of_le hold.below, fun _ hnone => nomatch hnone⟩
    · exact hold
  run_bound := h.run_bound
  run_unique := h.run_unique
  running := fun slug hr => h.running slug ((state_kept (·.running) states_noteRequest rfl slug).symm.trans hr)
  timer := fun id timer hget => (state_kept (·.timer) states_noteRequest rfl _).trans (h.timer id timer hget)
  timer_bound := h.timer_bound
  armed := fun slug id hid => h.armed slug id ((state_kept (·.timer) states_noteRequest rfl slug).symm.trans hid)
  active := h.active.trans (count_kept rfl rfl)
  pending := by
    have hcount := count_setState (s := s) (p := Waits) rfl snapshot.collectionSlug
      (ProjectionState.request (s.state snapshot.collectionSlug) snapshot reason now)
    have hpending := h.pending
    show (if (s.state snapshot.collectionSlug).latestSnapshot.isNone then s.pendingProjectionCount + 1
      else s.pendingProjectionCount) = (s.states.set _ _).count Waits
    rw [if_pos (show Waits (ProjectionState.request _ snapshot reason now) = true from rfl)] at hcount
    cases hlatest : (s.state snapshot.collectionSlug).latestSnapshot with
    | none =>
      rw [if_neg (by rw [Waits, hlatest]; exact Bool.false_ne_true)] at hcount
      rw [if_pos (by rfl)]
      omega
    | some _ =>
      rw [if_pos (by rw [Waits, hlatest]; rfl)] at hcount
      rw [if_neg (by exact Bool.false_ne_true)]
      omega
  reported := rfl

theorem states_schedule : (s.schedule slug now).states =
    s.states.set slug { s.state slug with timer := some s.nextTimer } := rfl

theorem state_schedule (slug' : String) : (s.schedule slug now).state slug' =
      if slug = slug' then { s.state slug with timer := some s.nextTimer } else s.state slug' :=
  state_set states_schedule

theorem Consistent.schedule (h : Consistent s)
    (hstopped : s.stopped = false) (hrunning : (s.state slug).running = false)
    (htimer : (s.state slug).timer = none) (now : Int) : Consistent (s.schedule slug now) where
  state := by
    intro slug'
    rw [state_schedule]
    split
    · next heq =>
      subst heq
      have hst := h.state slug
      refine ⟨hst.versions, fun h' => ?_, (hst.keep rfl fun _ hf => hf).covered, fun h' => ?_⟩
      · rw [hrunning] at h'
        cases h'
      · rw [show (s.schedule slug now).stopped = s.stopped from rfl, hstopped] at h'
        cases h'
    · exact (h.state slug').keep rfl fun _ hf => hf
  run := by
    intro id run hrun
    have hold := h.run id run hrun
    rw [state_schedule]
    split
    · next heq =>
      rw [← heq] at hold
      exact ⟨hold.running, hold.above, hold.below, hold.latest⟩
    · exact hold
  run_bound := h.run_bound
  run_unique := h.run_unique
  running := fun slug' hr => h.running slug' ((state_kept (·.running) states_schedule rfl slug').symm.trans hr)
  timer := by
    intro id timer hget
    rw [state_schedule]
    rw [show (s.schedule slug now).timers = s.timers.set s.nextTimer _ from rfl, OrderedMap.get_set] at hget
    split at hget
    · next hid =>
      cases hget
      rw [if_pos rfl, hid]
    have hold := h.timer id timer hget
    rw [if_neg]
    · exact hold
    · intro heq
      rw [← heq, htimer] at hold
      cases hold
  timer_bound := by
    intro id timer hget
    rw [show (s.schedule slug now).timers = s.timers.set s.nextTimer _ from rfl, OrderedMap.get_set] at hget
    split at hget
    · next hid => exact hid ▸ Nat.lt_succ_self _
    · exact Nat.lt_succ_of_lt (h.timer_bound id timer hget)
  armed := by
    intro slug' id hid
    rw [state_schedule] at hid
    rw [show (s.schedule slug now).timers = s.timers.set s.nextTimer _ from rfl]
    split at hid
    · next heq =>
      cases hid
      exact ⟨_, by rw [OrderedMap.get_set, if_pos rfl], heq⟩
    obtain ⟨timer, hget, hslug⟩ := h.armed slug' id hid
    refine ⟨timer, ?_, hslug⟩
    rw [OrderedMap.get_set, if_neg]
    · exact hget
    · exact fun heq => absurd (h.timer_bound id timer hget) (heq ▸ Nat.lt_irrefl _)
  active := h.active.trans (count_kept rfl rfl)
  pending := h.pending.trans (count_kept rfl rfl)
  reported := h.reported

theorem ProjectionInv.requestProjection (h : ProjectionInv s)
    (snapshot : CollectionOfferSnapshot) (reason : String) (now : Int) :
    ProjectionInv (s.requestProjection snapshot reason now) := by
  unfold BidBookProjectionScheduler.requestProjection
  split
  · exact h
  next hstopped =>
  rw [Bool.not_eq_true] at hstopped
  have hnoted := h.toConsistent.noteRequest hstopped snapshot reason now
  have hstate := @state_noteRequest s snapshot reason now snapshot.collectionSlug
  rw [if_pos rfl] at hstate
  have hothers : ∀ slug, snapshot.collectionSlug ≠ slug →
      (s.noteRequest snapshot reason now).state slug = s.state slug :=
    fun slug hne => (state_noteRequest slug).trans (if_neg hne)
  dsimp only
  split
  · next hbusy =>
    refine ⟨hnoted, fun slug => ?_⟩
    by_cases heq : snapshot.collectionSlug = slug
    · subst heq
      intro _ _
      rw [hstate]
      rw [Bool.or_eq_true] at hbusy
      exact hbusy
    · exact (h.awake slug).keep (hothers slug heq) rfl
  · next hidle =>
    rw [Bool.not_eq_true, Bool.or_eq_false_iff, Option.isSome_eq_false_iff, Option.isNone_iff_eq_none]
      at hidle
    refine ⟨hnoted.schedule hstopped ?_ ?_ now, fun slug => ?_⟩
    · rw [hstate]
      exact hidle.1
    · rw [hstate]
      exact hidle.2
    by_cases heq : snapshot.collectionSlug = slug
    · intro _ _
      rw [state_schedule, if_pos heq]
      exact .inr rfl
    · refine (h.awake slug).keep ?_ rfl
      rw [state_schedule, if_neg heq, hothers slug heq]

/-! ## 4. Runs start -/

theorem Consistent.unsetTimer (h : Consistent s) (hget : s.timers.get id = some timer)
    (hs' : s' = { s.setState timer.collectionSlug { s.state timer.collectionSlug with timer := none } with
      timers := s.timers.delete id }) : Consistent s' := by
  have hstates : s'.states = s.states.set timer.collectionSlug
      { s.state timer.collectionSlug with timer := none } := by rw [hs']; rfl
  have hself := h.timer id timer hget
  subst hs'
  constructor
  case state =>
    intro slug
    rw [state_set hstates]
    split
    · next heq =>
      subst heq
      have hst : StateInv { s.setState timer.collectionSlug
          { s.state timer.collectionSlug with timer := none } with timers := s.timers.delete id }
          timer.collectionSlug (s.state timer.collectionSlug) :=
        (h.state timer.collectionSlug).keep rfl fun _ hf => hf
      exact ⟨hst.versions, fun _ => rfl, hst.covered, fun h' => ⟨(hst.dropped h').1, rfl⟩⟩
    · exact (h.state slug).keep rfl fun _ hf => hf
  case run =>
    intro id' run hrun
    have hold := h.run id' run hrun
    rw [state_set hstates]
    split
    · next heq =>
      rw [← heq] at hold
      exact ⟨hold.running, hold.above, hold.below, hold.latest⟩
    · exact hold
  case run_bound => exact h.run_bound
  case run_unique => exact h.run_unique
  case running => exact fun slug hr => h.running slug ((state_kept (·.running) hstates rfl slug).symm.trans hr)
  case timer =>
    intro id' timer' hget'
    rw [show OrderedMap.get _ id' = (s.timers.delete id).get id' from rfl, OrderedMap.get_delete] at hget'
    split at hget'
    · cases hget'
    next hne =>
    have hold := h.timer id' timer' hget'
    rw [state_set hstates, if_neg]
    · exact hold
    intro heq
    rw [← heq, hself] at hold
    cases hold
    exact hne rfl
  case timer_bound =>
    intro id' timer' hget'
    rw [show OrderedMap.get _ id' = (s.timers.delete id).get id' from rfl, OrderedMap.get_delete] at hget'
    split at hget'
    · cases hget'
    · exact h.timer_bound id' timer' hget'
  case armed =>
    intro slug id' hid
    rw [state_set hstates] at hid
    split at hid
    · cases hid
    next hne =>
    obtain ⟨timer', hget', hslug⟩ := h.armed slug id' hid
    refine ⟨timer', ?_, hslug⟩
    rw [show OrderedMap.get _ id' = (s.timers.delete id).get id' from rfl, OrderedMap.get_delete, if_neg]
    · exact hget'
    intro heq
    subst heq
    rw [hget] at hget'
    cases hget'
    exact hne hslug
  case active => exact h.active.trans (count_kept rfl rfl)
  case pending => exact h.pending.trans (count_kept rfl rfl)
  case reported => exact h.reported

theorem Consistent.startRun (h : Consistent s)
    (htimer : (s.state slug).timer = none) (now : Int) : Consistent (s.startRun slug now) := by
  unfold BidBookProjectionScheduler.startRun
  dsimp only
  split
  · exact h
  next snapshot hlatest =>
  split
  · exact h
  next hidle =>
  rw [Bool.not_eq_true, Bool.or_eq_false_iff] at hidle
  obtain ⟨hstopped, hrunning⟩ := hidle
  generalize hrun : (⟨slug, snapshot, _, _, now, _, false⟩ : ProjectionRun) = run
  have hslug : run.collectionSlug = slug := by rw [← hrun]
  have hversion : run.version = (s.state slug).requestedVersion := by rw [← hrun]
  obtain ⟨s', hs'⟩ : ∃ s', reportState { s.setState slug (ProjectionState.take (s.state slug)) with
      pendingProjectionCount := s.pendingProjectionCount - 1
      activeProjectionCount := s.activeProjectionCount + 1
      activeRuns := s.activeRuns.set s.nextRun run
      nextRun := s.nextRun + 1 } = s' := ⟨_, rfl⟩
  have hstates : s'.states = s.states.set slug (ProjectionState.take (s.state slug)) := by rw [← hs']; rfl
  have hstate : ∀ slug', s'.state slug' =
      if slug = slug' then ProjectionState.take (s.state slug) else s.state slug' := fun slug' => state_set hstates
  have hruns : ∀ id, s'.activeRuns.get id = if id = s.nextRun then some run else s.activeRuns.get id := by
    intro id
    rw [← hs']
    exact OrderedMap.get_set
  have hno : ∀ id run', s.activeRuns.get id = some run' → slug ≠ run'.collectionSlug := by
    intro id run' hget heq
    have hr := (h.run id run' hget).running
    rw [← heq, hrunning] at hr
    cases hr
  rw [hs']
  constructor
  case state =>
    intro slug'
    rw [hstate]
    split
    · next heq =>
      subst heq
      have hst := h.state slug
      refine ⟨hst.versions, fun _ => htimer, fun _ _ => .inr (.inl rfl), fun h' => ⟨rfl, htimer⟩⟩
    · refine (h.state slug').keep ?_ ?_
      · rw [← hs']
        rfl
      · rw [← hs']
        exact fun _ hf => hf
  case run =>
    intro id run' hget
    rw [hruns] at hget
    rw [hstate]
    split at hget
    · cases hget
      rw [if_pos hslug.symm]
      refine ⟨rfl, ?_, ?_, fun _ _ => hversion⟩
      · rw [hversion]
        exact (h.state slug).versions
      · exact hversion.le
    · rw [if_neg (hno id run' hget), ← hs']
      exact h.run id run' hget
  case run_bound =>
    intro id run' hget
    have hnext : s'.nextRun = s.nextRun + 1 := by rw [← hs']; rfl
    rw [hruns] at hget
    rw [hnext]
    split at hget
    · next hid => exact hid ▸ Nat.lt_succ_self _
    · exact Nat.lt_succ_of_lt (h.run_bound id run' hget)
  case run_unique =>
    intro id run₁ id' run₂ hget hget' heq
    rw [hruns] at hget hget'
    split at hget
    · cases hget
      split at hget'
      · next hid hid' => rw [hid, hid']
      · exact absurd (hslug.symm.trans heq) (hno id' run₂ hget')
    · split at hget'
      · cases hget'
        exact absurd (hslug.symm.trans heq.symm) (hno id run₁ hget)
      · exact h.run_unique id run₁ id' run₂ hget hget' heq
  case running =>
    intro slug' hr
    rw [hstate] at hr
    split at hr
    · next heq => exact ⟨s.nextRun, run, by rw [hruns, if_pos rfl], hslug.trans heq⟩
    obtain ⟨id, run', hget, hslug'⟩ := h.running slug' hr
    refine ⟨id, run', ?_, hslug'⟩
    rw [hruns, if_neg]
    · exact hget
    · exact fun heq => absurd (h.run_bound id run' hget) (heq ▸ Nat.lt_irrefl _)
  case timer =>
    intro id timer hget
    rw [← hs'] at hget
    exact (state_kept (·.timer) hstates rfl _).trans (h.timer id timer hget)
  case timer_bound =>
    rw [← hs']
    exact h.timer_bound
  case armed =>
    intro slug' id hid
    have hold := (state_kept (·.timer) hstates rfl slug').symm.trans hid
    rw [← hs']
    exact h.armed slug' id hold
  case active =>
    have hcount := count_setState (s := s) (p := (·.running)) rfl slug (ProjectionState.take (s.state slug))
    have hactive := h.active
    rw [← hs']
    show s.activeProjectionCount + 1 = (s.states.set _ _).count _
    rw [if_neg (by rw [hrunning]; exact Bool.false_ne_true), if_pos (by rfl)] at hcount
    omega
  case pending =>
    have hcount := count_setState (s := s) (p := Waits) rfl slug (ProjectionState.take (s.state slug))
    have hpending := h.pending
    rw [← hs']
    show s.pendingProjectionCount - 1 = (s.states.set _ _).count _
    rw [if_pos (by rw [Waits, hlatest]; rfl), if_neg (by exact Bool.false_ne_true)] at hcount
    omega
  case reported =>
    rw [← hs']
    rfl

theorem ProjectionInv.fireTimer (h : ProjectionInv s) (id : Nat)
    (now : Int) : ProjectionInv (s.fireTimer id now) := by
  unfold BidBookProjectionScheduler.fireTimer
  split
  · exact h
  next timer hget =>
  obtain ⟨s', hs'⟩ : ∃ s', s' =
      { s.setState timer.collectionSlug { s.state timer.collectionSlug with timer := none } with
        timers := s.timers.delete id } := ⟨_, rfl⟩
  have hunset := h.toConsistent.unsetTimer hget hs'
  have hstate : ∀ slug, s'.state slug =
      if timer.collectionSlug = slug then { s.state timer.collectionSlug with timer := none }
      else s.state slug := fun slug => state_set (by rw [hs']; rfl)
  have hself : s'.state timer.collectionSlug = { s.state timer.collectionSlug with timer := none } :=
    (hstate _).trans (if_pos rfl)
  have hrunning : (s.state timer.collectionSlug).running = false := by
    rw [← Bool.not_eq_true]
    intro hr
    have hnone := (h.state timer.collectionSlug).exclusive hr
    rw [h.timer id timer hget] at hnone
    cases hnone
  dsimp only
  rw [← hs']
  refine ⟨hunset.startRun (by rw [hself]) now, fun slug => ?_⟩
  -- the run takes the snapshot that waited for the timer
  by_cases heq : timer.collectionSlug = slug
  · subst heq
    unfold BidBookProjectionScheduler.startRun
    dsimp only
    split
    · next hnone =>
      intro _ hwaits
      rw [Waits, hnone] at hwaits
      cases hwaits
    next snapshot hsome =>
    split
    · next hbusy =>
      intro hstopped _
      rw [hstopped, Bool.false_or, hself] at hbusy
      exact absurd hbusy (by rw [hrunning]; exact Bool.false_ne_true)
    · intro _ hwaits
      have hst : ∀ s'' : BidBookProjectionScheduler,
          s''.states = s'.states.set timer.collectionSlug (ProjectionState.take (s'.state timer.collectionSlug)) →
          s''.state timer.collectionSlug = ProjectionState.take (s'.state timer.collectionSlug) :=
        fun s'' hs'' => (state_set hs'').trans (if_pos rfl)
      left
      rw [hst _ rfl]
      rfl
  · have hkeep : s'.Awake slug := (h.awake slug).keep ((hstate slug).trans (if_neg heq)) (by rw [hs']; rfl)
    unfold BidBookProjectionScheduler.startRun
    dsimp only
    split
    · exact hkeep
    split
    · exact hkeep
    · exact hkeep.keep ((state_set rfl).trans (if_neg heq)) rfl

/-! ## 5. Runs end -/

theorem Consistent.noteResult (h : Consistent s) (hget : s.activeRuns.get id = some run) (now : Int)
    (hpublished : published = (s.state run.collectionSlug).publishedVersion ∨ published = run.version) :
    Consistent (s.setState run.collectionSlug { s.state run.collectionSlug with
      lastCompletedAt := now, publishedVersion := published }) := by
  obtain ⟨s', hs'⟩ : ∃ s', s.setState run.collectionSlug { s.state run.collectionSlug with
      lastCompletedAt := now, publishedVersion := published } = s' := ⟨_, rfl⟩
  have hstates : s'.states = s.states.set run.collectionSlug { s.state run.collectionSlug with
      lastCompletedAt := now, publishedVersion := published } := by rw [← hs']; rfl
  have hinv := h.run id run hget
  have hle : published ≤ run.version := by
    rcases hpublished with rfl | rfl
    · exact hinv.above
    · exact Nat.le_refl _
  rw [hs']
  constructor
  case state =>
    intro slug
    rw [state_set hstates]
    split
    · next heq =>
      subst heq
      have hst := h.state run.collectionSlug
      refine ⟨Nat.le_trans hle hinv.below, hst.exclusive, fun _ _ => .inr (.inl hinv.running), fun h' => ?_⟩
      rw [← hs'] at h'
      exact hst.dropped h'
    · refine (h.state slug).keep ?_ ?_
      · rw [← hs']
        rfl
      · rw [← hs']
        exact fun _ hf => hf
  case run =>
    intro id' run' hget'
    rw [← hs'] at hget'
    have hold := h.run id' run' hget'
    rw [state_set hstates]
    split
    · next heq =>
      -- the run of this collection is the one that answered
      have hid := h.run_unique id run id' run' hget hget' heq
      subst hid
      have hsame : some run = some run' := hget.symm.trans hget'
      cases hsame
      rw [← hs']
      exact ⟨hold.running, hle, hold.below, hold.latest⟩
    · rw [← hs']
      exact hold
  case run_bound =>
    rw [← hs']
    exact h.run_bound
  case run_unique =>
    rw [← hs']
    exact h.run_unique
  case running =>
    intro slug hr
    have hold := (state_kept (·.running) hstates rfl slug).symm.trans hr
    rw [← hs']
    exact h.running slug hold
  case timer =>
    intro id' timer hget'
    rw [← hs'] at hget'
    exact (state_kept (·.timer) hstates rfl _).trans (h.timer id' timer hget')
  case timer_bound =>
    rw [← hs']
    exact h.timer_bound
  case armed =>
    intro slug id' hid
    have hold := (state_kept (·.timer) hstates rfl slug).symm.trans hid
    rw [← hs']
    exact h.armed slug id' hold
  case active =>
    rw [← hs']
    exact h.active.trans (count_kept rfl rfl)
  case pending =>
    rw [← hs']
    exact h.pending.trans (count_kept rfl rfl)
  case reported =>
    rw [← hs']
    exact h.reported

theorem states_endRun {outcome : BidBookProjectionOutcome} : (s.endRun id run outcome).states =
    s.states.set run.collectionSlug { s.state run.collectionSlug with running := false } := rfl

theorem state_endRun {outcome : BidBookProjectionOutcome} (slug : String) :
    (s.endRun id run outcome).state slug =
      if run.collectionSlug = slug then { s.state run.collectionSlug with running := false }
      else s.state slug :=
  state_set states_endRun

theorem Consistent.endRun (h : Consistent s)
    (hget : s.activeRuns.get id = some run) (outcome : BidBookProjectionOutcome)
    (hpublished : outcome = .published → (s.state run.collectionSlug).publishedVersion = run.version) :
    Consistent (s.endRun id run outcome) := by
  have hinv := h.run id run hget
  have hruns : ∀ id', (s.endRun id run outcome).activeRuns.get id' =
      if id' = id then none else s.activeRuns.get id' := fun id' => OrderedMap.get_delete
  have hmono : ∀ f ∈ s.finished, f ∈ (s.endRun id run outcome).finished :=
    fun f hf => List.mem_append_left _ hf
  constructor
  case state =>
    intro slug
    rw [state_endRun]
    split
    · next heq =>
      subst heq
      have hst := h.state run.collectionSlug
      refine ⟨hst.versions, (fun h' => nomatch h'), fun hstopped hlag => ?_, hst.dropped⟩
      -- a request that came in the meantime waits, else the version of the run is the last requested
      cases hlatest : (s.state run.collectionSlug).latestSnapshot with
      | some _ => exact .inl rfl
      | none =>
        have hversion := hinv.latest hstopped hlatest
        refine .inr (.inr ⟨outcome, fun hout => ?_, ?_⟩)
        · have hpub := hpublished hout
          rw [show _ < _ ↔ (s.state run.collectionSlug).publishedVersion <
            (s.state run.collectionSlug).requestedVersion from Iff.rfl] at hlag
          omega
        · refine List.mem_append_right _ (List.mem_singleton.mpr ?_)
          show _ = (⟨run.collectionSlug, run.version, outcome⟩ : FinishedProjection)
          rw [hversion]
    · exact (h.state slug).keep rfl hmono
  case run =>
    intro id' run' hget'
    rw [hruns] at hget'
    split at hget'
    · cases hget'
    next hne =>
    rw [state_endRun, if_neg]
    · exact h.run id' run' hget'
    · exact fun heq => hne (h.run_unique id run id' run' hget hget' heq).symm
  case run_bound =>
    intro id' run' hget'
    rw [hruns] at hget'
    split at hget'
    · cases hget'
    · exact h.run_bound id' run' hget'
  case run_unique =>
    intro id₁ run₁ id₂ run₂ h₁ h₂ heq
    rw [hruns] at h₁ h₂
    split at h₁
    · cases h₁
    split at h₂
    · cases h₂
    exact h.run_unique id₁ run₁ id₂ run₂ h₁ h₂ heq
  case running =>
    intro slug hr
    rw [state_endRun] at hr
    split at hr
    · cases hr
    next hne =>
    obtain ⟨id', run', hget', hslug⟩ := h.running slug hr
    refine ⟨id', run', ?_, hslug⟩
    rw [hruns, if_neg]
    · exact hget'
    intro heq
    subst heq
    rw [hget] at hget'
    cases hget'
    exact hne hslug
  case timer =>
    exact fun id' timer hget' => (state_kept (·.timer) states_endRun rfl _).trans (h.timer id' timer hget')
  case timer_bound => exact h.timer_bound
  case armed =>
    exact fun slug id' hid => h.armed slug id' ((state_kept (·.timer) states_endRun rfl slug).symm.trans hid)
  case active =>
    have hcount := count_setState (s := s) (p := (·.running)) rfl run.collectionSlug
      { s.state run.collectionSlug with running := false }
    have hactive := h.active
    show s.activeProjectionCount - 1 = (s.states.set _ _).count _
    rw [if_pos hinv.running, if_neg Bool.false_ne_true] at hcount
    omega
  case pending => exact h.pending.trans (count_kept rfl rfl)
  case reported => rfl

theorem Consistent.rearm (h : Consistent s)
    (hrunning : (s.state slug).running = false) (hothers : ∀ slug', slug ≠ slug' → s.Awake slug')
    (now : Int) : ProjectionInv (s.rearm slug now) := by
  unfold BidBookProjectionScheduler.rearm
  dsimp only
  split
  · next hcond =>
    simp only [Bool.and_eq_true, Bool.not_eq_true', Option.isNone_iff_eq_none] at hcond
    refine ⟨h.schedule hcond.1.1 hrunning hcond.2 now, fun slug' => ?_⟩
    by_cases heq : slug = slug'
    · intro _ _
      rw [state_schedule, if_pos heq]
      exact .inr rfl
    · exact (hothers slug' heq).keep ((state_schedule slug').trans (if_neg heq)) rfl
  · next hcond =>
    refine ⟨h, fun slug' => ?_⟩
    by_cases heq : slug = slug'
    · subst heq
      intro hstopped hwaits
      refine .inr ?_
      rw [Option.isSome_iff_ne_none]
      intro hnone
      apply hcond
      rw [hstopped, hnone, show (s.state slug).latestSnapshot.isSome = true from hwaits]
      rfl
    · exact hothers slug' heq

theorem ProjectionInv.settleRecord (h : ProjectionInv s) (id : Nat)
    (now : Int) : ProjectionInv (s.settleRecord id now) := by
  unfold BidBookProjectionScheduler.settleRecord
  split
  · exact h
  next run hget =>
  split
  · refine (h.toConsistent.endRun hget .failed (fun hout => nomatch hout)).rearm ?_ (fun slug hne => ?_) now
    · rw [state_endRun, if_pos rfl]
    · exact (h.awake slug).keep ((state_endRun slug).trans (if_neg hne)) rfl
  · exact h

theorem ProjectionInv.settled (h : ProjectionInv s)
    (hget : s.activeRuns.get id = some run) (outcome : BidBookProjectionOutcome)
    (now : Int)
    (hnew : published = (s.state run.collectionSlug).publishedVersion ∨ published = run.version)
    (hpublished : outcome = .published → published = run.version) :
    ProjectionInv (((s.setState run.collectionSlug { s.state run.collectionSlug with
      lastCompletedAt := now, publishedVersion := published }).endRun id run outcome).rearm
      run.collectionSlug now) := by
  obtain ⟨s', hs'⟩ : ∃ s', s.setState run.collectionSlug { s.state run.collectionSlug with
      lastCompletedAt := now, publishedVersion := published } = s' := ⟨_, rfl⟩
  have hnoted : Consistent s' := hs' ▸ h.toConsistent.noteResult hget now hnew
  have hstate : ∀ slug, s'.state slug =
      if run.collectionSlug = slug then { s.state run.collectionSlug with
        lastCompletedAt := now, publishedVersion := published }
      else s.state slug := fun slug => state_set (by rw [← hs']; rfl)
  rw [hs']
  refine (hnoted.endRun (by rw [← hs']; exact hget) outcome fun hout => ?_).rearm ?_ (fun slug hne => ?_) now
  · rw [hstate, if_pos rfl]
    exact hpublished hout
  · rw [state_endRun, if_pos rfl]
  refine (h.awake slug).keep ?_ ?_
  · rw [state_endRun, if_neg hne, hstate, if_neg hne]
  · rw [← hs']
    rfl

theorem ProjectionInv.threw (h : ProjectionInv s) (hget : s.activeRuns.get id = some run)
    (hs' : s' = { s.setState run.collectionSlug { s.state run.collectionSlug with lastCompletedAt := now } with
      activeRuns := s.activeRuns.set id { run with recording := true } }) : ProjectionInv s' := by
  obtain ⟨s₁, hs₁⟩ : ∃ s₁, s.setState run.collectionSlug { s.state run.collectionSlug with
      lastCompletedAt := now, publishedVersion := (s.state run.collectionSlug).publishedVersion } = s₁ :=
    ⟨_, rfl⟩
  have hnoted : Consistent s₁ := hs₁ ▸ h.toConsistent.noteResult hget now (.inl rfl)
  have hget₁ : s₁.activeRuns.get id = some run := by
    rw [← hs₁]
    exact hget
  have hstates : s'.states = s₁.states := by rw [hs', ← hs₁]
  have hstate : ∀ slug, s'.state slug = s₁.state slug := fun slug => by rw [state, hstates, state]
  have hruns : ∀ id', s'.activeRuns.get id' =
      if id' = id then some { run with recording := true } else s₁.activeRuns.get id' := by
    intro id'
    rw [hs', ← hs₁]
    exact OrderedMap.get_set
  -- a run of the new table is a run of the old one, up to the flag
  have hold : ∀ id' run', s'.activeRuns.get id' = some run' →
      ∃ run₁, s₁.activeRuns.get id' = some run₁ ∧ run₁.collectionSlug = run'.collectionSlug ∧
        run₁.version = run'.version := by
    intro id' run' hget'
    rw [hruns] at hget'
    split at hget'
    · next hid =>
      cases hget'
      exact ⟨run, hid ▸ hget₁, rfl, rfl⟩
    · exact ⟨run', hget', rfl, rfl⟩
  have hstopped : s'.stopped = s₁.stopped := by rw [hs', ← hs₁]
  have hfinished : s'.finished = s₁.finished := by rw [hs', ← hs₁]
  have htimers : s'.timers = s₁.timers := by rw [hs', ← hs₁]
  constructor
  · constructor
    case state =>
      intro slug
      rw [hstate]
      exact (hnoted.state slug).keep hstopped fun f hf => hfinished ▸ hf
    case run =>
      intro id' run' hget'
      obtain ⟨run₁, h₁, hslug, hversion⟩ := hold id' run' hget'
      have hinv := hnoted.run id' run₁ h₁
      rw [hstate, ← hslug]
      exact ⟨hinv.running, hversion ▸ hinv.above, hversion ▸ hinv.below, fun h' hnone => hversion ▸ hinv.latest (hstopped ▸ h') hnone⟩
    case run_bound =>
      intro id' run' hget'
      obtain ⟨run₁, h₁, -⟩ := hold id' run' hget'
      have hbound := hnoted.run_bound id' run₁ h₁
      rw [show s₁.nextRun = s'.nextRun by rw [hs', ← hs₁]] at hbound
      exact hbound
    case run_unique =>
      intro id₁ run₁ id₂ run₂ h₁ h₂ heq
      obtain ⟨run₁', h₁', hslug₁, -⟩ := hold id₁ run₁ h₁
      obtain ⟨run₂', h₂', hslug₂, -⟩ := hold id₂ run₂ h₂
      exact hnoted.run_unique id₁ run₁' id₂ run₂' h₁' h₂' (by rw [hslug₁, hslug₂, heq])
    case running =>
      intro slug hr
      rw [hstate] at hr
      obtain ⟨id', run', hget', hslug⟩ := hnoted.running slug hr
      by_cases hid : id' = id
      · refine ⟨id', { run with recording := true }, by rw [hruns, if_pos hid], ?_⟩
        rw [hid, hget₁] at hget'
        cases hget'
        exact hslug
      · exact ⟨id', run', by rw [hruns, if_neg hid]; exact hget', hslug⟩
    case timer =>
      intro id' timer hget'
      rw [hstate]
      exact hnoted.timer id' timer (htimers ▸ hget')
    case timer_bound =>
      intro id' timer hget'
      have hbound := hnoted.timer_bound id' timer (htimers ▸ hget')
      rw [show s₁.nextTimer = s'.nextTimer by rw [hs', ← hs₁]] at hbound
      exact hbound
    case armed =>
      intro slug id' hid
      rw [hstate] at hid
      rw [htimers]
      exact hnoted.armed slug id' hid
    case active =>
      rw [hstates, ← hnoted.active, hs', ← hs₁]
    case pending =>
      rw [hstates, ← hnoted.pending, hs', ← hs₁]
    case reported =>
      rw [hs']
      exact h.reported
  · intro slug hrunning hwaits
    have hsame : (s'.state slug).running = (s.state slug).running ∧
        (s'.state slug).timer = (s.state slug).timer ∧ Waits (s'.state slug) = Waits (s.state slug) := by
      have hset : s'.states = s.states.set run.collectionSlug
          { s.state run.collectionSlug with lastCompletedAt := now } := by rw [hs']; rfl
      exact ⟨state_kept (·.running) hset rfl slug, state_kept (·.timer) hset rfl slug, state_kept Waits hset rfl slug⟩
    rw [hsame.1, hsame.2.1]
    refine h.awake slug ?_ (hsame.2.2 ▸ hwaits)
    rw [hs'] at hrunning
    exact hrunning

theorem ProjectionInv.settleRun (h : ProjectionInv s) (id : Nat)
    (result : ProjectionResult) (now : Int) : ProjectionInv (s.settleRun id result now) := by
  unfold BidBookProjectionScheduler.settleRun
  split
  · exact h
  next run hget =>
  dsimp only
  split
  · exact h
  cases result with
  | published => exact h.settled hget .published now (.inr rfl) fun _ => rfl
  | skipped => exact h.settled hget .skipped now (.inl rfl) fun hout => nomatch hout
  | threw => exact h.threw hget rfl

/-! ## 6. The end of the scheduler -/

theorem state_stop (slug : String) : s.stop.state slug = ProjectionState.drop (s.state slug) := by
  show ((s.states.map ProjectionState.drop).get slug).getD .initial = _
  rw [OrderedMap.get_map, state]
  cases s.states.get slug with
  | none => rfl
  | some st => rfl

theorem Consistent.cleared (h : Consistent s) (hget : s.timers.get id = some timer) :
    id ∈ s.states.values.filterMap (·.timer) := by
  have htimer := h.timer id timer hget
  rw [List.mem_filterMap]
  rw [BidBookProjectionScheduler.state] at htimer
  cases hst : s.states.get timer.collectionSlug with
  | none =>
    rw [hst] at htimer
    cases htimer
  | some st =>
    rw [hst] at htimer
    exact ⟨st, OrderedMap.mem_values.mpr ⟨_, hst⟩, htimer⟩

theorem Consistent.timers_stop (h : Consistent s) (id : Nat) : s.stop.timers.get id = none := by
  show OrderedMap.get (List.foldl _ _ _) id = none
  rw [OrderedMap.get_deleteAll]
  split
  · rfl
  next hnot =>
  cases hget : s.timers.get id with
  | none => rfl
  | some timer => exact absurd (h.cleared hget) hnot

theorem ProjectionInv.stop (h : ProjectionInv s) : ProjectionInv s.stop := by
  constructor
  · constructor
    case state =>
      intro slug
      rw [state_stop]
      exact ⟨(h.state slug).versions, fun _ => rfl, (fun h' => nomatch h'), fun _ => ⟨rfl, rfl⟩⟩
    case run =>
      intro id run hget
      have hold := h.run id run hget
      rw [state_stop]
      exact ⟨hold.running, hold.above, hold.below, fun h' => nomatch h'⟩
    case run_bound => exact h.run_bound
    case run_unique => exact h.run_unique
    case running =>
      intro slug hr
      rw [state_stop] at hr
      exact h.running slug hr
    case timer =>
      intro id timer hget
      rw [h.timers_stop] at hget
      cases hget
    case timer_bound =>
      intro id timer hget
      rw [h.timers_stop] at hget
      cases hget
    case armed =>
      intro slug id hid
      rw [state_stop] at hid
      cases hid
    case active =>
      rw [show s.stop.states = s.states.map ProjectionState.drop from rfl, OrderedMap.count_map]
      exact h.active
    case pending =>
      rw [show s.stop.states = s.states.map ProjectionState.drop from rfl, OrderedMap.count_map]
      show 0 = List.countP (fun _ => false) _
      rw [List.countP_false, Function.const_apply]
    case reported => rfl
  · intro slug h'
    cases h'

/-! ## 7. Runs of the scheduler -/

theorem ProjectionInv.step (h : ProjectionInv s) (event : ProjectionEvent) :
    ProjectionInv (s.step event) := by
  cases event with
  | request snapshot reason now => exact h.requestProjection snapshot reason now
  | fire timer now => exact h.fireTimer timer now
  | settle run result now => exact h.settleRun run result now
  | recorded run now => exact h.settleRecord run now
  | stop => exact h.stop

/-- The scheduler after the events. -/
def after (throttleMs : Int) (events : List ProjectionEvent) : BidBookProjectionScheduler :=
  Machine.run step (create throttleMs) events

theorem projectionInv_after (throttleMs : Int) (events : List ProjectionEvent) :
    ProjectionInv (after throttleMs events) :=
  Machine.run_invariant (fun _ event h => h.step event) (projectionInv_create throttleMs) events

/-- No collection's published version is smaller. -/
def PublishedUpTo (s s' : BidBookProjectionScheduler) : Prop :=
  ∀ slug, (s.state slug).publishedVersion ≤ (s'.state slug).publishedVersion

theorem PublishedUpTo.of_set (h : s'.states = s.states.set slug st)
    (hle : (s.state slug).publishedVersion ≤ st.publishedVersion) : PublishedUpTo s s' := by
  intro slug'
  rw [state_set h]
  split
  · next heq => exact heq ▸ hle
  · exact Nat.le_refl _

theorem PublishedUpTo.refl (s : BidBookProjectionScheduler) : PublishedUpTo s s := fun _ => Nat.le_refl _

theorem PublishedUpTo.trans {s'' : BidBookProjectionScheduler} (h : PublishedUpTo s s')
    (h' : PublishedUpTo s' s'') : PublishedUpTo s s'' :=
  fun slug => Nat.le_trans (h slug) (h' slug)

theorem publishedUpTo_schedule (s : BidBookProjectionScheduler) (slug : String) (now : Int) :
    PublishedUpTo s (s.schedule slug now) := .of_set rfl (Nat.le_refl _)

theorem publishedUpTo_endRun (s : BidBookProjectionScheduler) (id : Nat) (run : ProjectionRun)
    (outcome : BidBookProjectionOutcome) : PublishedUpTo s (s.endRun id run outcome) :=
  .of_set rfl (Nat.le_refl _)

theorem publishedUpTo_rearm (s : BidBookProjectionScheduler) (slug : String) (now : Int) :
    PublishedUpTo s (s.rearm slug now) := by
  unfold rearm
  dsimp only
  split
  · exact publishedUpTo_schedule s slug now
  · exact .refl s

theorem publishedUpTo_startRun (s : BidBookProjectionScheduler) (slug : String) (now : Int) :
    PublishedUpTo s (s.startRun slug now) := by
  unfold startRun
  dsimp only
  split
  · exact .refl s
  split
  · exact .refl s
  · exact .of_set rfl (Nat.le_refl _)

theorem ProjectionInv.publishedUpTo (h : ProjectionInv s)
    (event : ProjectionEvent) : PublishedUpTo s (s.step event) := by
  cases event with
  | request snapshot reason now =>
    show PublishedUpTo s (s.requestProjection snapshot reason now)
    unfold BidBookProjectionScheduler.requestProjection
    dsimp only
    split
    · exact .refl s
    have hnote : PublishedUpTo s (s.noteRequest snapshot reason now) := .of_set rfl (Nat.le_refl _)
    split
    · exact hnote
    · exact hnote.trans (publishedUpTo_schedule _ _ now)
  | fire timer now =>
    show PublishedUpTo s (s.fireTimer timer now)
    unfold BidBookProjectionScheduler.fireTimer
    split
    · exact .refl s
    · refine PublishedUpTo.trans ?_ (publishedUpTo_startRun _ _ now)
      exact .of_set rfl (Nat.le_refl _)
  | settle id result now =>
    show PublishedUpTo s (s.settleRun id result now)
    unfold BidBookProjectionScheduler.settleRun
    split
    · exact .refl s
    next run hget =>
    dsimp only
    split
    · exact .refl s
    cases result with
    | published =>
      refine PublishedUpTo.trans ?_ ((publishedUpTo_endRun _ _ _ _).trans (publishedUpTo_rearm _ _ now))
      exact .of_set rfl (h.run id run hget).above
    | skipped =>
      refine PublishedUpTo.trans ?_ ((publishedUpTo_endRun _ _ _ _).trans (publishedUpTo_rearm _ _ now))
      exact .of_set rfl (Nat.le_refl _)
    | threw => exact .of_set rfl (Nat.le_refl _)
  | recorded id now =>
    show PublishedUpTo s (s.settleRecord id now)
    unfold BidBookProjectionScheduler.settleRecord
    split
    · exact .refl s
    split
    · exact (publishedUpTo_endRun _ _ _ _).trans (publishedUpTo_rearm _ _ now)
    · exact .refl s
  | stop =>
    intro slug
    show _ ≤ (s.stop.state slug).publishedVersion
    rw [state_stop]
    exact Nat.le_refl _

/-- The runs in flight of a collection. -/
def runsOf (s : BidBookProjectionScheduler) (slug : String) : List (Nat × ProjectionRun) :=
  s.activeRuns.entries.filter fun entry => entry.2.collectionSlug = slug

/-- A timer of the collection is armed. -/
def TimerArmed (s : BidBookProjectionScheduler) (slug : String) : Prop :=
  ∃ id timer, s.timers.get id = some timer ∧ timer.collectionSlug = slug

theorem Consistent.runsOf_length (h : Consistent s) (slug : String) : (s.runsOf slug).length ≤ 1 := by
  have hnodup : (s.runsOf slug).Nodup := (s.activeRuns.table.rows_nodup).filter _
  have hall : ∀ a ∈ s.runsOf slug, ∀ b ∈ s.runsOf slug, a = b := by
    rintro ⟨id, run⟩ ha ⟨id', run'⟩ hb
    rw [runsOf, List.mem_filter, OrderedMap.mem_entries, decide_eq_true_eq] at ha hb
    obtain rfl := h.run_unique id run id' run' ha.1 hb.1 (ha.2.trans hb.2.symm)
    rw [ha.1] at hb
    cases hb.1
    rfl
  cases hruns : s.runsOf slug with
  | nil => exact Nat.zero_le _
  | cons a rest =>
    cases rest with
    | nil => exact Nat.le_refl _
    | cons b rest =>
      rw [hruns] at hnodup hall
      have hab := hall a List.mem_cons_self b (List.mem_cons_of_mem _ List.mem_cons_self)
      subst hab
      exact absurd List.mem_cons_self (List.nodup_cons.mp hnodup).1

theorem Consistent.runsOf_ne_nil (h : Consistent s)
    (hr : (s.state slug).running = true) : s.runsOf slug ≠ [] := by
  obtain ⟨id, run, hget, hslug⟩ := h.running slug hr
  refine List.ne_nil_of_mem (a := (id, run)) ?_
  rw [runsOf, List.mem_filter, OrderedMap.mem_entries, decide_eq_true_eq]
  exact ⟨hget, hslug⟩

theorem Consistent.timerArmed (h : Consistent s)
    (ht : (s.state slug).timer.isSome) : s.TimerArmed slug := by
  obtain ⟨id, hid⟩ := Option.isSome_iff_exists.mp ht
  obtain ⟨timer, hget, hslug⟩ := h.armed slug id hid
  exact ⟨id, timer, hget, hslug⟩

/-- **What the scheduler keeps.**  After any events: a collection's published version is at most its
requested one and later events do not lower it; at most one run of the collection is in flight; while the
scheduler is not stopped, a collection whose snapshot waits has a run in flight or a timer armed, and one
whose last request is unpublished has so too, unless the run of that very request has ended, skipped or
failed; the pending count that was reported last is the number of collections whose snapshot waits. -/
theorem projection_scheduler_keeps (throttleMs : Int) (events later : List ProjectionEvent) (slug : String) :
    ((after throttleMs events).state slug).publishedVersion ≤
        ((after throttleMs events).state slug).requestedVersion ∧
      ((after throttleMs events).state slug).publishedVersion ≤
        ((after throttleMs (events ++ later)).state slug).publishedVersion ∧
      ((after throttleMs events).runsOf slug).length ≤ 1 ∧
      ((after throttleMs events).stopped = false →
        ((after throttleMs events).state slug).latestSnapshot.isSome →
          (after throttleMs events).runsOf slug ≠ [] ∨ (after throttleMs events).TimerArmed slug) ∧
      ((after throttleMs events).stopped = false → ((after throttleMs events).state slug).publishedVersion <
          ((after throttleMs events).state slug).requestedVersion →
          (after throttleMs events).runsOf slug ≠ [] ∨ (after throttleMs events).TimerArmed slug ∨
            (after throttleMs events).EndedUnpublished slug
              ((after throttleMs events).state slug).requestedVersion) ∧
      (after throttleMs events).reported.2 =
        (after throttleMs events).states.count (fun st => st.latestSnapshot.isSome) := by
  have h := projectionInv_after throttleMs events
  have hawake : (after throttleMs events).stopped = false →
      ((after throttleMs events).state slug).latestSnapshot.isSome →
        (after throttleMs events).runsOf slug ≠ [] ∨ (after throttleMs events).TimerArmed slug := by
    intro hstopped hwaits
    rcases h.awake slug hstopped hwaits with hr | ht
    · exact .inl (h.runsOf_ne_nil hr)
    · exact .inr (h.timerArmed ht)
  refine ⟨(h.state slug).versions, ?_, h.runsOf_length slug, hawake, fun hstopped hlag => ?_, ?_⟩
  · rw [after, after, Machine.run_append]
    have hinv : ∀ s event, ProjectionInv s → ProjectionInv (s.step event) := fun _ event h => h.step event
    exact Machine.run_related PublishedUpTo.refl PublishedUpTo.trans hinv
      (fun _ event h => h.publishedUpTo event) h later slug
  · rcases (h.state slug).covered hstopped hlag with hw | hr | he
    · rcases hawake hstopped hw with hr | ht
      · exact .inl hr
      · exact .inr (.inl ht)
    · exact .inl (h.runsOf_ne_nil hr)
    · exact .inr (.inr he)
  · rw [h.reported]
    exact h.pending

theorem endRun_of_stopped {outcome : BidBookProjectionOutcome} (id : Nat) (run : ProjectionRun) (h : s.stopped = true) :
    ((s.endRun id run outcome).rearm slug now).stopped = true ∧
      ((s.endRun id run outcome).rearm slug now).nextRun = s.nextRun := by
  rw [show (s.endRun id run outcome).rearm slug now = s.endRun id run outcome from
    if_neg (by simp [endRun, reportState, setState, h])]
  exact ⟨h, rfl⟩

theorem step_of_stopped (h : ProjectionInv s) (hstopped : s.stopped = true) (event : ProjectionEvent) :
    (s.step event).stopped = true ∧ (s.step event).nextRun = s.nextRun := by
  cases event with
  | request snapshot reason now =>
    rw [show s.step (.request snapshot reason now) = s from if_pos hstopped]
    exact ⟨hstopped, rfl⟩
  | fire id now =>
    -- A timer would be held by its state, which has dropped it.
    cases hget : s.timers.get id with
    | none =>
      simp only [BidBookProjectionScheduler.step, fireTimer, hget]
      exact ⟨hstopped, trivial⟩
    | some timer => exact absurd (h.timer id timer hget) (by simp [((h.state _).dropped hstopped).2])
  | settle id result now =>
    simp only [BidBookProjectionScheduler.step, settleRun]
    split
    · exact ⟨hstopped, rfl⟩
    split
    · exact ⟨hstopped, rfl⟩
    cases result with
    | published => exact endRun_of_stopped _ _ hstopped
    | skipped => exact endRun_of_stopped _ _ hstopped
    | threw => exact ⟨hstopped, rfl⟩
  | recorded id now =>
    simp only [BidBookProjectionScheduler.step, settleRecord]
    split
    · exact ⟨hstopped, rfl⟩
    split
    · exact endRun_of_stopped _ _ hstopped
    · exact ⟨hstopped, rfl⟩
  | stop => exact ⟨rfl, rfl⟩

/-- **Stopping is final.**  Whatever happens after a stop, no snapshot waits, none is reported as pending, no timer is
armed and no run starts. -/
theorem projection_stop_is_final (throttleMs : Int) (before later : List ProjectionEvent) :
    let s := after throttleMs before
    let s' := Machine.run step s.stop later
    (∀ slug, (s'.state slug).latestSnapshot = none) ∧ s'.reported.2 = 0 ∧ (∀ id, s'.timers.get id = none) ∧
      s'.nextRun = s.nextRun := by
  intro s s'
  obtain ⟨h, hstopped, hstarted⟩ : ProjectionInv s' ∧ s'.stopped = true ∧ s'.nextRun = s.nextRun := by
    refine Machine.run_invariant (fun (t : BidBookProjectionScheduler) event
      (h : ProjectionInv t ∧ t.stopped = true ∧ t.nextRun = s.nextRun) => ?_)
      ⟨(projectionInv_after throttleMs before).stop, rfl, rfl⟩ later
    obtain ⟨hstays, hsame⟩ := step_of_stopped h.1 h.2.1 event
    exact ⟨h.1.step event, hstays, hsame.trans h.2.2⟩
  have hdropped := fun slug => (h.state slug).dropped hstopped
  refine ⟨fun slug => (hdropped slug).1, ?_, fun id => ?_, hstarted⟩
  · rw [h.reported]
    refine h.pending.trans (List.countP_eq_zero.mpr fun st hst => ?_)
    obtain ⟨slug, hget⟩ := OrderedMap.mem_values.mp hst
    have hnone := (hdropped slug).1
    rw [BidBookProjectionScheduler.state, hget] at hnone
    simpa [Waits] using hnone
  · cases hget : s'.timers.get id with
    | none => rfl
    | some timer => exact absurd (h.timer id timer hget) (by simp [(hdropped _).2])

/-- A snapshot of a collection without offers. -/
def emptySnapshot : CollectionOfferSnapshot := ⟨"c", [], 0, ⟨0, 1, 0, true, none⟩⟩

/-- A write that is skipped leaves its request unpublished, with no run and no timer; and while the run is
in flight its request is unpublished but no longer pending. -/
theorem skipped_projection_leaves_lag :
    (let s := after 1000 [.request emptySnapshot "scan" 1, .fire 0 1, .settle 0 .skipped 2]
     s.stopped = false ∧ (s.state "c").publishedVersion = 0 ∧ (s.state "c").requestedVersion = 1 ∧
       s.activeRuns.size = 0 ∧ s.timers.size = 0) ∧
    (let s := after 1000 [.request emptySnapshot "scan" 1, .fire 0 1]
     s.stopped = false ∧ (s.state "c").publishedVersion = 0 ∧ (s.state "c").requestedVersion = 1 ∧
       s.reported.2 = 0) := by
  decide +kernel

end BidBookProjectionScheduler

end Artgod.Trading
