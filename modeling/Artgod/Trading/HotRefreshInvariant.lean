/-
# The invariant of the hot-refresh scheduler

`LaneInv` holds between any two operations.  That a lane with pending events will wake (`Scheduled`) and that
lanes wait only when there is no room (`Room`) is broken and mended inside them.
-/
import Artgod.Trading.HotRefreshLanes

namespace Artgod.Trading

open Store Js HotRefreshBackpressure
open Function (update_self update_of_ne)

/-! ## 1. The invariant -/

structure LaneInv (s : HotRefreshBackpressure) : Prop where
  lanes : LanesOk s.lanes (fun l => (s.lane l).kind) s.nextLane
  timers : TimersOk s.lanes (fun l => (s.lane l).timer) s.timers s.nextTimer
  passes : PassesOk s.lanes (fun l => (s.lane l).running) s.passes s.nextPass s.activePassCount
  queue : QueueOk s.lanes (fun l => (s.lane l).pendingEvents) s.pendingEventsByLaneKind s.nextPending
  ready : ∀ k r, s.readyLanes.get k = some r → s.lanes.get k = some r.lane
  exclusive : ∀ k l, s.lanes.get k = some l → (s.lane l).running = true →
    (s.lane l).timer = none ∧ s.readyLanes.get k = none
  counts : ∀ kind, (s.stateByLaneKind kind).pendingEvents = (s.pendingEventsByLaneKind kind).heap.length
  bounded : ∀ kind, (s.pendingEventsByLaneKind kind).heap.length ≤ s.getMaxPendingSignatures kind
  capacity : s.activePassCount ≤ s.options.maxConcurrentPasses
  /-- A timer does not run before the cooldown of its lane is over, and a lane that is ready is over it. -/
  due : ∀ id t, s.timers.get id = some t → (s.lane t.lane).nextRunAt ≤ t.dueAt
  readyDue : ∀ k r, s.readyLanes.get k = some r → (s.lane r.lane).nextRunAt ≤ s.now
  cooldown : ∀ k d, s.deadlines k = some d → CooldownOf s.lanes (fun l => (s.lane l).running)
    (fun l => (s.lane l).nextRunAt) s.cooldownLaneDeadlinesByKind s.now k d
  starts : ∀ start ∈ s.starts, ∀ d, start.deadline = some d → d ≤ start.at'

/-- A lane with pending events runs, has a timer, or is queued. -/
def Scheduled (s : HotRefreshBackpressure) (k : String) : Prop :=
  ∀ l, s.lanes.get k = some l → 0 < (s.lane l).pendingEvents.size →
    (s.lane l).running = true ∨ (s.lane l).timer.isSome = true ∨ ∃ r, s.readyLanes.get k = some r

/-- Lanes are queued only when there is no room. -/
def Room (s : HotRefreshBackpressure) : Prop :=
  ∀ k r, s.readyLanes.get k = some r → s.options.maxConcurrentPasses ≤ s.activePassCount

variable {s s' : HotRefreshBackpressure} {k k' : String} {callback l : Nat}

theorem Scheduled.of_same (h : Scheduled s k)
    (hlanes : s'.lanes.get k = s.lanes.get k) (hlane : ∀ l, s.lanes.get k = some l → s'.lane l = s.lane l)
    (hready : s'.readyLanes.get k = s.readyLanes.get k) : Scheduled s' k := by
  intro l hl hpending
  rw [hlanes] at hl
  rw [hlane l hl] at hpending ⊢
  rw [hready]
  exact h l hl hpending

/-- What an operation that only drops the idle lane of a key leaves alone. -/
structure Dropped (k : String) (s s' : HotRefreshBackpressure) : Prop where
  options : s'.options = s.options
  stopped : s'.stopped = s.stopped
  now : s'.now = s.now
  lane : s'.lane = s.lane
  active : s'.activePassCount = s.activePassCount
  queue : s'.pendingEventsByLaneKind = s.pendingEventsByLaneKind
  other : ∀ k', k' ≠ k → s'.lanes.get k' = s.lanes.get k' ∧ s'.readyLanes.get k' = s.readyLanes.get k'
  self : s'.lanes.get k = none ∧ s'.readyLanes.get k = none ∨
    s'.lanes.get k = s.lanes.get k ∧ s'.readyLanes.get k = s.readyLanes.get k
  size : s'.readyLanes.size ≤ s.readyLanes.size

theorem Dropped.refl (k : String) (s : HotRefreshBackpressure) : Dropped k s s :=
  ⟨rfl, rfl, rfl, rfl, rfl, rfl, fun _ _ => ⟨rfl, rfl⟩, .inr ⟨rfl, rfl⟩, Nat.le_refl _⟩

theorem Dropped.trans {s'' : HotRefreshBackpressure} (h : Dropped k s s')
    (h' : Dropped k s' s'') : Dropped k s s'' where
  options := h'.options.trans h.options
  stopped := h'.stopped.trans h.stopped
  now := h'.now.trans h.now
  lane := h'.lane.trans h.lane
  active := h'.active.trans h.active
  queue := h'.queue.trans h.queue
  other := fun k' hk =>
    ⟨(h'.other k' hk).1.trans (h.other k' hk).1, (h'.other k' hk).2.trans (h.other k' hk).2⟩
  self := by
    rcases h'.self with hgone | ⟨hlanes, hready⟩
    · exact .inl hgone
    · rw [hlanes, hready]
      exact h.self
  size := Nat.le_trans h'.size h.size

theorem Dropped.scheduled (h : Dropped k s s')
    (hs : Scheduled s k') : Scheduled s' k' := by
  by_cases hk : k' = k
  · subst hk
    rcases h.self with ⟨hgone, -⟩ | ⟨hlanes, hready⟩
    · intro l hl
      rw [hgone] at hl
      cases hl
    · exact hs.of_same hlanes (fun l _ => by rw [h.lane]) hready
  · exact hs.of_same (h.other k' hk).1 (fun l _ => by rw [h.lane]) (h.other k' hk).2

theorem Dropped.room (h : Dropped k s s') (hs : Room s) :
    Room s' := by
  intro k' r hr
  rw [h.options, h.active]
  by_cases hk : k' = k
  · subst hk
    rcases h.self with ⟨-, hgone⟩ | ⟨-, hready⟩
    · rw [hgone] at hr
      cases hr
    · rw [hready] at hr
      exact hs k' r hr
  · rw [(h.other k' hk).2] at hr
    exact hs k' r hr

/-! ## 2. Counters and cooldowns -/

theorem updateState_pendingEvents {s : HotRefreshBackpressure} {kind : HotRefreshLaneKind}
    {f : HotRefreshLaneState → HotRefreshLaneState} (hf : ∀ st, (f st).pendingEvents = st.pendingEvents)
    (kind' : HotRefreshLaneKind) :
    ((s.updateState kind f).stateByLaneKind kind').pendingEvents =
      (s.stateByLaneKind kind').pendingEvents := by
  by_cases hk : kind' = kind
  · rw [hk]
    exact (congrArg _ (update_self ..)).trans (hf _)
  · exact congrArg _ (update_of_ne hk ..)

theorem LaneInv.updateState (h : LaneInv s) {kind : HotRefreshLaneKind}
    {f : HotRefreshLaneState → HotRefreshLaneState} (hf : ∀ st, (f st).pendingEvents = st.pendingEvents) :
    LaneInv (s.updateState kind f) :=
  { h with counts := fun kind' => (updateState_pendingEvents hf kind').trans (h.counts kind') }

theorem LaneInv.scheduleRetainedCooldownCleanup (h : LaneInv s)
    (kind : HotRefreshLaneKind) (k : String) :
    LaneInv (s.scheduleRetainedCooldownCleanup kind) ∧
      Dropped k s (s.scheduleRetainedCooldownCleanup kind) := by
  unfold HotRefreshBackpressure.scheduleRetainedCooldownCleanup
  split
  · exact ⟨h, .refl k s⟩
  · split
    · exact ⟨h, .refl k s⟩
    · exact ⟨{ h with }, { Dropped.refl k s with }⟩

/-- **Forgetting a cooldown** is recorded, so that nothing is promised for its lane key. -/
theorem LaneInv.forgetCooldown (h : LaneInv s) (kind : HotRefreshLaneKind)
    (oldest : String) : LaneInv (s.forgetCooldown kind oldest) := by
  have hcounts : ∀ kind', ((s.forgetCooldown kind oldest).stateByLaneKind kind').pendingEvents =
      (s.stateByLaneKind kind').pendingEvents :=
    @updateState_pendingEvents _ kind (fun state => { state with knownLanes := state.knownLanes - 1 })
      fun _ => rfl
  refine { h with counts := fun kind' => (hcounts kind').trans (h.counts kind'), cooldown := fun k d hd => ?_ }
  have hd' : Function.update s.deadlines oldest none k = some d := hd
  by_cases hk : k = oldest
  · rw [hk, update_self] at hd'
    cases hd'
  · rw [update_of_ne hk] at hd'
    rcases h.cooldown k d hd' with hover | hlane | ⟨hnone, hretained⟩
    · exact .inl hover
    · exact .inr (.inl hlane)
    refine .inr (.inr ⟨hnone, ?_⟩)
    show (Function.update s.cooldownLaneDeadlinesByKind kind _ (keyKind k)).get k = some d
    by_cases hkind : keyKind k = kind
    · rw [hkind, update_self, OrderedMap.get_delete, if_neg hk, ← hkind]
      exact hretained
    · rw [update_of_ne hkind]
      exact hretained

theorem LaneInv.forgetOldestCooldowns (kind : HotRefreshLaneKind) (k : String) (n : Nat)
    (h : LaneInv s) :
    LaneInv (forgetOldestCooldowns kind n s) ∧ Dropped k s (forgetOldestCooldowns kind n s) := by
  induction n generalizing s with
  | zero => exact ⟨h, .refl k s⟩
  | succ n ih =>
    unfold HotRefreshBackpressure.forgetOldestCooldowns
    split
    · cases hfirst : (s.cooldownLaneDeadlinesByKind kind).first? with
      | none => exact ⟨h, .refl k s⟩
      | some oldest =>
        obtain ⟨hinv, hdropped⟩ := ih (h.forgetCooldown kind oldest.1)
        have hforgot : Dropped k s (s.forgetCooldown kind oldest.1) :=
          ⟨rfl, rfl, rfl, rfl, rfl, rfl, fun _ _ => ⟨rfl, rfl⟩, .inr ⟨rfl, rfl⟩, Nat.le_refl _⟩
        exact ⟨hinv, hforgot.trans hdropped⟩
    · exact ⟨h, .refl k s⟩

/-! ## 3. Dropping lanes -/

/-- **An idle lane is dropped**, when its cooldown is over or retained. -/
theorem LaneInv.drop (h : LaneInv s)
    (hl : s.lanes.get k = some l) (hrunning : (s.lane l).running = false) (htimer : (s.lane l).timer = none)
    (hpending : (s.lane l).pendingEvents.size = 0) {retained : HotRefreshLaneKind → OrderedMap String Nat}
    (hother : ∀ k', k' ≠ k → (retained (keyKind k')).get k' =
      (s.cooldownLaneDeadlinesByKind (keyKind k')).get k')
    (hself : (s.lane l).nextRunAt ≤ s.now ∨
      (retained (keyKind k)).get k = some (s.lane l).nextRunAt) :
    LaneInv { s with
      lanes := s.lanes.delete k
      readyLanes := s.readyLanes.delete k
      cooldownLaneDeadlinesByKind := retained } where
  lanes := h.lanes.drop k
  timers := h.timers.drop hl htimer
  passes := h.passes.drop hl hrunning
  queue := h.queue.drop hl (OrderedMap.size_eq_zero.mp hpending)
  ready := fun k' r hr => by
    obtain ⟨hne, hr⟩ := get_of_get_delete hr
    show (s.lanes.delete k).get k' = some r.lane
    rw [OrderedMap.get_delete, if_neg hne]
    exact h.ready k' r hr
  exclusive := fun k' l' hl' hrunning' => by
    obtain ⟨hne, hl'⟩ := get_of_get_delete hl'
    obtain ⟨hnone, hready⟩ := h.exclusive k' l' hl' hrunning'
    refine ⟨hnone, ?_⟩
    show (s.readyLanes.delete k).get k' = none
    rw [OrderedMap.get_delete, if_neg hne]
    exact hready
  counts := h.counts
  bounded := h.bounded
  capacity := h.capacity
  due := h.due
  readyDue := fun k' r hr => h.readyDue k' r (get_of_get_delete hr).2
  cooldown := fun k' d hd => (h.cooldown k' d hd).drop hl hrunning hother hself
  starts := h.starts

theorem dropped_delete (s : HotRefreshBackpressure) (k : String)
    (retained : HotRefreshLaneKind → OrderedMap String Nat) :
    Dropped k s { s with
      lanes := s.lanes.delete k
      readyLanes := s.readyLanes.delete k
      cooldownLaneDeadlinesByKind := retained } where
  options := rfl
  stopped := rfl
  now := rfl
  lane := rfl
  active := rfl
  queue := rfl
  other := fun k' hk =>
    ⟨by show (s.lanes.delete k).get k' = _; rw [OrderedMap.get_delete, if_neg hk],
     by show (s.readyLanes.delete k).get k' = _; rw [OrderedMap.get_delete, if_neg hk]⟩
  self := .inl ⟨by show (s.lanes.delete k).get k = _; rw [OrderedMap.get_delete, if_pos rfl],
    by show (s.readyLanes.delete k).get k = _; rw [OrderedMap.get_delete, if_pos rfl]⟩
  size := OrderedMap.size_delete_le _ _

theorem LaneInv.retainLaneCooldown {s : HotRefreshBackpressure} (h : LaneInv s) {k : String} {l : Nat}
    (hrunning : (s.lane l).running = false) (htimer : (s.lane l).timer = none)
    (hpending : (s.lane l).pendingEvents.size = 0) :
    LaneInv (s.retainLaneCooldown k l) ∧ Dropped k s (s.retainLaneCooldown k l) := by
  unfold HotRefreshBackpressure.retainLaneCooldown
  split
  · exact ⟨h, .refl k s⟩
  next hl =>
  rw [ne_eq, not_not] at hl
  have hkind : (s.lane l).kind = keyKind k := h.lanes.kind k l hl
  obtain ⟨retained, hretained⟩ : ∃ retained, Function.update s.cooldownLaneDeadlinesByKind
      (s.lane l).kind (((s.cooldownLaneDeadlinesByKind (s.lane l).kind).delete k).set k
        (s.lane l).nextRunAt) = retained := ⟨_, rfl⟩
  have hother : ∀ k', k' ≠ k →
      (retained (keyKind k')).get k' = (s.cooldownLaneDeadlinesByKind (keyKind k')).get k' := by
    intro k' hk
    rw [← hretained]
    by_cases hsame : keyKind k' = (s.lane l).kind
    · rw [hsame, update_self, OrderedMap.get_set, if_neg hk, OrderedMap.get_delete, if_neg hk]
    · rw [update_of_ne hsame]
  have hself : (retained (keyKind k)).get k = some (s.lane l).nextRunAt := by
    rw [← hretained, ← hkind, update_self, OrderedMap.get_set, if_pos rfl]
  have hdrop := h.drop hl hrunning htimer hpending hother (.inr hself)
  have hdropped := dropped_delete s k retained
  obtain ⟨hforgot, hdropped'⟩ := hdrop.forgetOldestCooldowns (s.lane l).kind k
    (retained (s.lane l).kind).size
  obtain ⟨hcleanup, hdropped''⟩ := hforgot.scheduleRetainedCooldownCleanup (s.lane l).kind k
  subst hretained
  exact ⟨hcleanup, hdropped.trans (hdropped'.trans hdropped'')⟩

theorem LaneInv.removeLaneIfIdle (h : LaneInv s) (k : String) (l : Nat) :
    LaneInv (s.removeLaneIfIdle k l) ∧ Dropped k s (s.removeLaneIfIdle k l) := by
  unfold HotRefreshBackpressure.removeLaneIfIdle
  split
  · exact ⟨h, .refl k s⟩
  next hidle =>
  simp only [not_or, Bool.not_eq_true, Option.isSome_eq_false_iff, Option.isNone_iff_eq_none, not_lt,
    Nat.le_zero, ne_eq, not_not] at hidle
  obtain ⟨hrunning, htimer, hpending, hl⟩ := hidle
  split
  · exact h.retainLaneCooldown hrunning htimer hpending
  next hover =>
  rw [not_lt] at hover
  have hdrop := h.drop hl hrunning htimer hpending (fun _ _ => rfl) (.inl hover)
  have hdropped := dropped_delete s k s.cooldownLaneDeadlinesByKind
  exact ⟨hdrop.updateState fun _ => rfl, hdropped.trans { Dropped.refl k _ with }⟩

/-! ## 4. Changes of one lane -/

section

variable {lane : Nat → HotRefreshLane} {l : Nat} {v : HotRefreshLane}
  {lanes : OrderedMap String Nat}

variable {β : Type} {active nextLane nextPass nextPending nextTimer : Nat}
  {timers : OrderedMap Nat LaneTimer} {passes : OrderedMap Nat HotRefreshPass}
  {queue : HotRefreshLaneKind → IndexedHeap PendingEventReference Nat}

theorem read_update (read : HotRefreshLane → β) :
    (fun l' => read (Function.update lane l v l')) =
      Function.update (fun l' => read (lane l')) l (read v) := by
  funext l'
  by_cases h : l' = l
  · subst h
    rw [update_self, update_self]
  · rw [update_of_ne h, update_of_ne h]

theorem read_update_same (read : HotRefreshLane → β) (h : read v = read (lane l)) :
    (fun l' => read (Function.update lane l v l')) = fun l' => read (lane l') := by
  rw [read_update, h]
  exact Function.update_eq_self l fun l' => read (lane l')

theorem LanesOk.changed (h : LanesOk lanes (fun l => (lane l).kind) nextLane)
    (hkind : v.kind = (lane l).kind) :
    LanesOk lanes (fun l' => (Function.update lane l v l').kind) nextLane := by
  rw [read_update_same HotRefreshLane.kind hkind]
  exact h

theorem LanesOk.replaced
    (h : LanesOk lanes (Function.update (fun l => (lane l).kind) l v.kind) nextLane) :
    LanesOk lanes (fun l' => (Function.update lane l v l').kind) nextLane := by
  rw [read_update HotRefreshLane.kind]
  exact h

theorem TimersOk.changed
    (h : TimersOk lanes (Function.update (fun l => (lane l).timer) l v.timer) timers nextTimer) :
    TimersOk lanes (fun l' => (Function.update lane l v l').timer) timers nextTimer := by
  rw [read_update HotRefreshLane.timer]
  exact h

theorem TimersOk.unchanged (h : TimersOk lanes (fun l => (lane l).timer) timers nextTimer)
    (htimer : v.timer = (lane l).timer) :
    TimersOk lanes (fun l' => (Function.update lane l v l').timer) timers nextTimer := by
  rw [read_update_same HotRefreshLane.timer htimer]
  exact h

theorem PassesOk.changed
    (h : PassesOk lanes (Function.update (fun l => (lane l).running) l v.running) passes nextPass
      active) :
    PassesOk lanes (fun l' => (Function.update lane l v l').running) passes nextPass active := by
  rw [read_update HotRefreshLane.running]
  exact h

theorem PassesOk.unchanged (h : PassesOk lanes (fun l => (lane l).running) passes nextPass active)
    (hrunning : v.running = (lane l).running) :
    PassesOk lanes (fun l' => (Function.update lane l v l').running) passes nextPass active := by
  rw [read_update_same HotRefreshLane.running hrunning]
  exact h

theorem QueueOk.changed
    (h : QueueOk lanes (Function.update (fun l => (lane l).pendingEvents) l v.pendingEvents) queue
      nextPending) :
    QueueOk lanes (fun l' => (Function.update lane l v l').pendingEvents) queue nextPending := by
  rw [read_update HotRefreshLane.pendingEvents]
  exact h

theorem QueueOk.unchanged (h : QueueOk lanes (fun l => (lane l).pendingEvents) queue nextPending)
    (hpending : v.pendingEvents = (lane l).pendingEvents) :
    QueueOk lanes (fun l' => (Function.update lane l v l').pendingEvents) queue nextPending := by
  rw [read_update_same HotRefreshLane.pendingEvents hpending]
  exact h

theorem exclusive_unchanged {ready : OrderedMap String ReadyHotRefreshLane}
    (h : ∀ k l, lanes.get k = some l → (lane l).running = true →
      (lane l).timer = none ∧ ready.get k = none)
    (hrunning : v.running = (lane l).running) (htimer : v.timer = (lane l).timer) (k : String) (l' : Nat)
    (hl : lanes.get k = some l') (hrunning' : (Function.update lane l v l').running = true) :
    (Function.update lane l v l').timer = none ∧ ready.get k = none := by
  have hrun : (Function.update lane l v l').running = (lane l').running :=
    congrFun (read_update_same HotRefreshLane.running hrunning) l'
  have htime : (Function.update lane l v l').timer = (lane l').timer :=
    congrFun (read_update_same HotRefreshLane.timer htimer) l'
  rw [hrun] at hrunning'
  rw [htime]
  exact h k l' hl hrunning'

theorem nextRunAt_unchanged (hnext : v.nextRunAt = (lane l).nextRunAt) (l' : Nat) :
    (Function.update lane l v l').nextRunAt = (lane l').nextRunAt :=
  congrFun (read_update_same HotRefreshLane.nextRunAt hnext) l'

variable {retained : HotRefreshLaneKind → OrderedMap String Nat} {d now : Nat} {k : String}

theorem CooldownOf.replaced
    (h : CooldownOf lanes (Function.update (fun l => (lane l).running) l v.running)
      (Function.update (fun l => (lane l).nextRunAt) l v.nextRunAt) retained now k d) :
    CooldownOf lanes (fun l' => (Function.update lane l v l').running)
      (fun l' => (Function.update lane l v l').nextRunAt) retained now k d := by
  rw [read_update HotRefreshLane.running, read_update HotRefreshLane.nextRunAt]
  exact h

theorem CooldownOf.changed
    (h : CooldownOf lanes (Function.update (fun l => (lane l).running) l v.running)
      (fun l => (lane l).nextRunAt) retained now k d) (hnext : v.nextRunAt = (lane l).nextRunAt) :
    CooldownOf lanes (fun l' => (Function.update lane l v l').running)
      (fun l' => (Function.update lane l v l').nextRunAt) retained now k d := by
  rw [read_update HotRefreshLane.running, read_update_same HotRefreshLane.nextRunAt hnext]
  exact h

theorem CooldownOf.unchanged
    (h : CooldownOf lanes (fun l => (lane l).running) (fun l => (lane l).nextRunAt) retained now k d)
    (hrunning : v.running = (lane l).running) (hnext : v.nextRunAt = (lane l).nextRunAt) :
    CooldownOf lanes (fun l' => (Function.update lane l v l').running)
      (fun l' => (Function.update lane l v l').nextRunAt) retained now k d := by
  rw [read_update_same HotRefreshLane.running hrunning, read_update_same HotRefreshLane.nextRunAt hnext]
  exact h

end

theorem LaneInv.lane_ne (h : LaneInv s) {l' : Nat}
    (hl : s.lanes.get k = some l) (hl' : s.lanes.get k' = some l') (hk : k' ≠ k) : l' ≠ l :=
  fun heq => hk (h.lanes.inj k' k l' hl' (by rw [heq]; exact hl))

theorem Scheduled.other (h : LaneInv s)
    (hl : s.lanes.get k = some l) (hk : k' ≠ k) (hs : Scheduled s k') (hlanes : s'.lanes = s.lanes)
    (hlane : ∀ l', l' ≠ l → s'.lane l' = s.lane l')
    (hready : s'.readyLanes.get k' = s.readyLanes.get k') : Scheduled s' k' :=
  hs.of_same (by rw [hlanes]) (fun l' hl' => hlane l' (h.lane_ne hl hl' hk)) hready

theorem LaneInv.scheduleLane (h : LaneInv s)
    {delayMs : Nat} (hl : s.lanes.get k = some l) (hrunning : (s.lane l).running = false)
    (htimer : (s.lane l).timer = none) (hdelay : (s.lane l).nextRunAt ≤ s.now + delayMs) :
    LaneInv (s.scheduleLane k l callback delayMs) where
  lanes := h.lanes.changed rfl
  timers := .changed (h.timers.set hl htimer)
  passes := h.passes.unchanged rfl
  queue := h.queue.unchanged rfl
  ready := h.ready
  exclusive := fun k' l' hl' hrunning' => by
    have hne : l' ≠ l := fun heq => by
      rw [heq] at hrunning'
      rw [show ((s.scheduleLane k l callback delayMs).lane l).running = (s.lane l).running from
        congrFun (read_update_same HotRefreshLane.running (by rfl)) l, hrunning] at hrunning'
      cases hrunning'
    have hsame : (s.scheduleLane k l callback delayMs).lane l' = s.lane l' := update_of_ne hne ..
    rw [hsame] at hrunning' ⊢
    exact h.exclusive k' l' hl' hrunning'
  counts := h.counts
  bounded := h.bounded
  capacity := h.capacity
  due := fun id t ht => by
    refine Nat.le_trans (Nat.le_of_eq (nextRunAt_unchanged (by rfl) t.lane)) ?_
    have ht' : (s.timers.set s.nextTimer ⟨s.now + delayMs, k, l, callback⟩).get id = some t := ht
    rw [OrderedMap.get_set] at ht'
    split at ht'
    · cases ht'
      exact hdelay
    · exact h.due id t ht'
  readyDue := fun k' r hr =>
    Nat.le_trans (Nat.le_of_eq (nextRunAt_unchanged (by rfl) r.lane)) (h.readyDue k' r hr)
  cooldown := fun k' d hd => (h.cooldown k' d hd).unchanged rfl rfl
  starts := h.starts

theorem LaneInv.unsetTimer (h : LaneInv s) {id : Nat} {t : LaneTimer}
    (ht : s.timers.get id = some t) :
    LaneInv ({ s with timers := s.timers.delete id }.updateLane t.lane fun lane =>
      { lane with timer := none }) where
  lanes := h.lanes.changed rfl
  timers := .changed (h.timers.unset ht)
  passes := h.passes.unchanged rfl
  queue := h.queue.unchanged rfl
  ready := h.ready
  exclusive := fun k' l' hl' hrunning' => by
    obtain ⟨htimer, hready⟩ := h.exclusive k' l' hl'
      ((congrFun (read_update_same HotRefreshLane.running (by rfl)) l').symm.trans hrunning')
    refine ⟨?_, hready⟩
    refine (congrFun (read_update HotRefreshLane.timer) l').trans ?_
    by_cases hne : l' = t.lane
    · rw [hne, update_self]
    · rw [update_of_ne hne]
      exact htimer
  counts := h.counts
  bounded := h.bounded
  capacity := h.capacity
  due := fun id' t' ht' => by
    refine Nat.le_trans (Nat.le_of_eq (nextRunAt_unchanged (by rfl) t'.lane)) ?_
    have ht'' : (s.timers.delete id).get id' = some t' := ht'
    rw [OrderedMap.get_delete] at ht''
    split at ht''
    · cases ht''
    · exact h.due id' t' ht''
  readyDue := fun k' r hr =>
    Nat.le_trans (Nat.le_of_eq (nextRunAt_unchanged (by rfl) r.lane)) (h.readyDue k' r hr)
  cooldown := fun k' d hd => (h.cooldown k' d hd).unchanged rfl rfl
  starts := h.starts

theorem LaneInv.unready (h : LaneInv s) (k : String) :
    LaneInv { s with readyLanes := s.readyLanes.delete k } :=
  { h with
    ready := fun k' r hr => h.ready k' r (get_of_get_delete hr).2
    exclusive := fun k' l' hl' hrunning => by
      obtain ⟨htimer, hready⟩ := h.exclusive k' l' hl' hrunning
      refine ⟨htimer, ?_⟩
      show (s.readyLanes.delete k).get k' = none
      rw [OrderedMap.get_delete, hready, ite_self]
    readyDue := fun k' r hr => h.readyDue k' r (get_of_get_delete hr).2 }

theorem LaneInv.clearLanePending (h : LaneInv s)
    (hl : s.lanes.get k = some l) : LaneInv (s.clearLanePending l) := by
  have hkind : (s.lane l).kind = keyKind k := h.lanes.kind k l hl
  obtain ⟨hqueue, hlength⟩ := h.queue.clear s.isWeaker h.lanes.inj hl
  have hheap : (s.clearLanePending l).pendingEventsByLaneKind =
      Function.update s.pendingEventsByLaneKind (keyKind k) ((s.lane l).pendingEvents.values.foldl
        (fun q p => q.remove PendingEventReference.pending s.isWeaker p)
        (s.pendingEventsByLaneKind (keyKind k))) := by
    rw [← hkind]
    rfl
  have hcount : ((s.clearLanePending l).stateByLaneKind (keyKind k)).pendingEvents =
      (s.stateByLaneKind (keyKind k)).pendingEvents - (s.lane l).pendingEvents.size := by
    rw [← hkind]
    show (Function.update s.stateByLaneKind (s.lane l).kind _ (s.lane l).kind).pendingEvents = _
    rw [update_self]
  exact
    { lanes := h.lanes.changed rfl
      timers := h.timers.unchanged rfl
      passes := h.passes.unchanged rfl
      queue := by rw [hheap]; exact .changed hqueue
      ready := h.ready
      exclusive := exclusive_unchanged h.exclusive rfl rfl
      counts := fun kind => by
        rw [hheap]
        by_cases hk : kind = keyKind k
        · rw [hk, hcount, h.counts, update_self, ← hlength, Nat.add_sub_cancel]
        · rw [update_of_ne hk, ← h.counts kind]
          exact congrArg HotRefreshLaneState.pendingEvents (update_of_ne (hkind ▸ hk) ..)
      bounded := fun kind => by
        rw [hheap]
        by_cases hk : kind = keyKind k
        · rw [hk, update_self]
          exact Nat.le_trans (Nat.le_of_add_right_le (Nat.le_of_eq hlength)) (h.bounded (keyKind k))
        · rw [update_of_ne hk]
          exact h.bounded kind
      capacity := h.capacity
      due := fun id t ht => Nat.le_trans (Nat.le_of_eq (nextRunAt_unchanged (by rfl) t.lane)) (h.due id t ht)
      readyDue := fun k' r hr =>
        Nat.le_trans (Nat.le_of_eq (nextRunAt_unchanged (by rfl) r.lane)) (h.readyDue k' r hr)
      cooldown := fun k' d hd => (h.cooldown k' d hd).unchanged rfl rfl
      starts := h.starts }

/-- **A pass begins.**  It begins after the cooldown of its lane, and hence after the deadline of its lane
key, if that is still known. -/
theorem LaneInv.beginPass (h : LaneInv s)
    {events : List MarketEvent} (hl : s.lanes.get k = some l) (hrunning : (s.lane l).running = false)
    (htimer : (s.lane l).timer = none) (hready : s.readyLanes.get k = none)
    (hroom : s.activePassCount < s.options.maxConcurrentPasses) (hover : (s.lane l).nextRunAt ≤ s.now) :
    LaneInv (s.beginPass k l callback events) where
  lanes := h.lanes.changed rfl
  timers := h.timers.unchanged rfl
  passes := .changed (h.passes.start hl hrunning)
  queue := h.queue.unchanged rfl
  ready := h.ready
  exclusive := fun k' l' hl' hrunning' => by
    by_cases hk : k' = k
    · subst hk
      have hl'' : s.lanes.get k' = some l' := hl'
      rw [hl] at hl''
      cases hl''
      exact ⟨(congrFun (read_update_same HotRefreshLane.timer (by rfl)) l).trans htimer, hready⟩
    · have hsame : (s.beginPass k l callback events).lane l' = s.lane l' :=
        update_of_ne (h.lane_ne hl hl' hk) ..
      rw [hsame] at hrunning' ⊢
      exact h.exclusive k' l' hl' hrunning'
  counts := fun kind => by
    have hcount := @updateState_pendingEvents (s.updateLane l fun lane => { lane with running := true })
      (s.lane l).kind (fun state => { state with activeLanes := state.activeLanes + 1 }) (fun _ => rfl) kind
    exact hcount.trans (h.counts kind)
  bounded := h.bounded
  capacity := hroom
  due := fun id t ht => Nat.le_trans (Nat.le_of_eq (nextRunAt_unchanged (by rfl) t.lane)) (h.due id t ht)
  readyDue := fun k' r hr =>
    Nat.le_trans (Nat.le_of_eq (nextRunAt_unchanged (by rfl) r.lane)) (h.readyDue k' r hr)
  cooldown := fun k' d hd => .changed ((h.cooldown k' d hd).start l) rfl
  starts := fun start hstart d hd => by
    rcases List.mem_cons.mp hstart with rfl | hstart
    · -- the lane of the key is not running, so its cooldown is the deadline
      rcases h.cooldown k d hd with hpast | ⟨l', hl', hlane⟩ | ⟨hnone, -⟩
      · exact hpast
      · rw [hl] at hl'
        cases hl'
        rcases hlane with hlane | hlane
        · exact absurd (hrunning.symm.trans hlane) (by decide)
        · exact hlane ▸ hover
      · rw [hl] at hnone
        cases hnone
    · exact h.starts start hstart d hd

/-! ## 5. Starting lanes -/

theorem startPass_frame (s : HotRefreshBackpressure) (k : String) (l callback : Nat) :
    ((s.startPass k l callback).lane l).running = true ∧
      (∀ l', l' ≠ l → (s.startPass k l callback).lane l' = s.lane l') := by
  constructor
  · have hself : (s.startPass k l callback).lane l =
        { ({ s with readyLanes := s.readyLanes.delete k }.clearLanePending l).lane l with running := true } :=
      update_self ..
    rw [hself]
  · intro l' hl'
    exact (update_of_ne hl' ..).trans (update_of_ne hl' ..)

theorem LaneInv.startPass (h : LaneInv s)
    (hl : s.lanes.get k = some l) (hrunning : (s.lane l).running = false)
    (htimer : (s.lane l).timer = none) (hroom : s.activePassCount < s.options.maxConcurrentPasses)
    (hover : (s.lane l).nextRunAt ≤ s.now) : LaneInv (s.startPass k l callback) := by
  have hcleared : LaneInv ({ s with readyLanes := s.readyLanes.delete k }.clearLanePending l) :=
    (h.unready k).clearLanePending hl
  have hlane : ({ s with readyLanes := s.readyLanes.delete k }.clearLanePending l).lane l =
      { s.lane l with pendingEvents := .empty, pendingSignalCount := 0 } := update_self ..
  have hunready : ({ s with readyLanes := s.readyLanes.delete k }.clearLanePending l).readyLanes.get k =
      none := by
    show (s.readyLanes.delete k).get k = none
    rw [OrderedMap.get_delete, if_pos rfl]
  exact hcleared.beginPass hl (by rw [hlane]; exact hrunning) (by rw [hlane]; exact htimer) hunready hroom
    (by rw [hlane]; exact hover)

theorem LaneInv.queueReady (h : LaneInv s)
    (hl : s.lanes.get k = some l) (hrunning : (s.lane l).running = false)
    (hover : (s.lane l).nextRunAt ≤ s.now) :
    LaneInv { s with readyLanes := s.readyLanes.set k ⟨l, callback⟩ } :=
  { h with
    ready := fun k' r hr => by
      have hr' : (s.readyLanes.set k ⟨l, callback⟩).get k' = some r := hr
      rw [OrderedMap.get_set] at hr'
      split at hr'
      · next hk =>
        cases hr'
        rw [hk]
        exact hl
      · exact h.ready k' r hr'
    exclusive := fun k' l' hl' hrunning' => by
      obtain ⟨htimer, hready⟩ := h.exclusive k' l' hl' hrunning'
      refine ⟨htimer, ?_⟩
      have hk : k' ≠ k := fun hk => by
        have hl'' : s.lanes.get k' = some l' := hl'
        rw [hk, hl] at hl''
        cases hl''
        exact absurd (hrunning.symm.trans hrunning') (by decide)
      show (s.readyLanes.set k ⟨l, callback⟩).get k' = none
      rw [OrderedMap.get_set, if_neg hk]
      exact hready
    readyDue := fun k' r hr => by
      have hr' : (s.readyLanes.set k ⟨l, callback⟩).get k' = some r := hr
      rw [OrderedMap.get_set] at hr'
      split at hr'
      · cases hr'
        exact hover
      · exact h.readyDue k' r hr' }

/-- The invariant but for lanes that wait without need. -/
structure Working (s : HotRefreshBackpressure) : Prop extends LaneInv s where
  scheduled : ∀ k, Scheduled s k

theorem LaneInv.startLane (h : LaneInv s)
    (hstopped : s.stopped = false) (hl : s.lanes.get k = some l) (hrunning : (s.lane l).running = false)
    (htimer : (s.lane l).timer = none) (hover : (s.lane l).nextRunAt ≤ s.now)
    (hothers : ∀ k', k' ≠ k → Scheduled s k') (callback : Nat) :
    Working (s.startLane k l callback) ∧ (Room s → Room (s.startLane k l callback)) := by
  unfold HotRefreshBackpressure.startLane
  rw [if_neg (by rw [hstopped]; decide)]
  by_cases hsize : (s.lane l).pendingEvents.size = 0
  · rw [if_pos hsize]
    refine ⟨⟨h, fun k' => ?_⟩, fun hroom => hroom⟩
    by_cases hk : k' = k
    · intro l' hl' hpending
      rw [hk, hl] at hl'
      cases hl'
      omega
    · exact hothers k' hk
  rw [if_neg hsize]
  by_cases hfull : s.activePassCount ≥ s.options.maxConcurrentPasses
  · rw [if_pos hfull]
    refine ⟨⟨h.queueReady hl hrunning hover, fun k' => ?_⟩, fun hroom k' r hr => hfull⟩
    by_cases hk : k' = k
    · refine fun l' hl' hpending => .inr (.inr ⟨⟨l, callback⟩, ?_⟩)
      show (s.readyLanes.set k ⟨l, callback⟩).get k' = _
      rw [OrderedMap.get_set, if_pos hk]
    · refine (hothers k' hk).of_same rfl (fun _ _ => rfl) ?_
      show (s.readyLanes.set k ⟨l, callback⟩).get k' = _
      rw [OrderedMap.get_set, if_neg hk]
  · rw [if_neg hfull]
    obtain ⟨hrun, hlane⟩ := startPass_frame s k l callback
    have hlt : s.activePassCount < s.options.maxConcurrentPasses := Nat.lt_of_not_ge hfull
    refine ⟨⟨h.startPass hl hrunning htimer hlt hover, fun k' => ?_⟩, fun hroom k' r hr => ?_⟩
    · by_cases hk : k' = k
      · intro l' hl' hpending
        have hl'' : s.lanes.get k' = some l' := hl'
        rw [hk, hl] at hl''
        cases hl''
        exact .inl hrun
      · refine (hothers k' hk).other h hl hk rfl hlane ?_
        show (s.readyLanes.delete k).get k' = _
        rw [OrderedMap.get_delete, if_neg hk]
    · have hwas := hroom k' r (get_of_get_delete hr).2
      exact absurd hwas (Nat.not_le_of_lt hlt)

theorem Working.removeLaneIfIdle (h : Working s) (k : String) (l : Nat) :
    Working (s.removeLaneIfIdle k l) :=
  ⟨(h.toLaneInv.removeLaneIfIdle k l).1, fun k' =>
    (h.toLaneInv.removeLaneIfIdle k l).2.scheduled (h.scheduled k')⟩

theorem Working.unready (h : Working s) (k : String) (k' : String)
    (hk : k' ≠ k) : Scheduled { s with readyLanes := s.readyLanes.delete k } k' := by
  refine (h.scheduled k').of_same rfl (fun _ _ => rfl) ?_
  show (s.readyLanes.delete k).get k' = _
  rw [OrderedMap.get_delete, if_neg hk]

theorem startLane_ready_size (s : HotRefreshBackpressure) (k : String) (l callback : Nat)
    (hroom : ¬ s.activePassCount ≥ s.options.maxConcurrentPasses) :
    (s.startLane k l callback).readyLanes.size ≤ s.readyLanes.size := by
  unfold HotRefreshBackpressure.startLane
  split
  · exact Nat.le_refl _
  · split
    · exact Nat.le_refl _
    · exact OrderedMap.size_delete_le _ _

theorem startLane_stopped (s : HotRefreshBackpressure) (k : String) (l callback : Nat) :
    (s.startLane k l callback).stopped = s.stopped := by
  unfold HotRefreshBackpressure.startLane
  split
  · rfl
  · split
    · rfl
    · split <;> rfl

theorem Working.startReadyLanes (n : Nat) (h : Working s)
    (hstopped : s.stopped = false) (hn : s.readyLanes.size ≤ n) :
    Working (startReadyLanes n s) ∧ Room (startReadyLanes n s) := by
  induction n generalizing s with
  | zero =>
    refine ⟨h, fun k r hr => ?_⟩
    have hr' : s.readyLanes.get k = some r := hr
    rw [OrderedMap.size_eq_zero.mp (Nat.le_zero.mp hn) k] at hr'
    cases hr'
  | succ n ih =>
    unfold HotRefreshBackpressure.startReadyLanes
    by_cases hfull : s.stopped = true ∨ s.activePassCount ≥ s.options.maxConcurrentPasses
    · rw [if_pos hfull]
      refine ⟨h, fun k r hr => ?_⟩
      rcases hfull with hstop | hfull
      · rw [hstopped] at hstop
        cases hstop
      · exact hfull
    rw [if_neg hfull]
    have hroom : ¬ s.activePassCount ≥ s.options.maxConcurrentPasses := fun hge => hfull (.inr hge)
    cases hfirst : s.readyLanes.first? with
    | none =>
      refine ⟨h, fun k r hr => ?_⟩
      rw [OrderedMap.first?_eq_none.mp hfirst k] at hr
      cases hr
    | some first =>
      obtain ⟨k, ready⟩ := first
      have hready := OrderedMap.get_first? hfirst
      have hl : s.lanes.get k = some ready.lane := h.ready k ready hready
      have hsize := OrderedMap.size_delete_present hready
      have hinv := h.toLaneInv.unready k
      simp only
      by_cases hskip : (s.lane ready.lane).running = true ∨ (s.lane ready.lane).timer.isSome = true ∨
          (s.lane ready.lane).pendingEvents.size = 0
      · rw [if_pos hskip]
        have hworking : Working { s with readyLanes := s.readyLanes.delete k } := by
          refine ⟨hinv, fun k' => ?_⟩
          by_cases hk : k' = k
          · intro l' hl' hpending
            have hl'' : s.lanes.get k' = some l' := hl'
            rw [hk, hl] at hl''
            cases hl''
            rcases hskip with hrunning | htimer | hempty
            · exact .inl hrunning
            · exact .inr (.inl htimer)
            · have hpending' : 0 < (s.lane ready.lane).pendingEvents.size := hpending
              omega
          · exact h.unready k k' hk
        obtain ⟨-, hdropped⟩ := hinv.removeLaneIfIdle k ready.lane
        refine ih (hworking.removeLaneIfIdle k ready.lane) (hdropped.stopped.trans hstopped) ?_
        have hle : (s.readyLanes.delete k).size ≤ n := by omega
        exact Nat.le_trans hdropped.size hle
      · rw [if_neg hskip]
        simp only [not_or, Bool.not_eq_true, Option.isSome_eq_false_iff, Option.isNone_iff_eq_none] at hskip
        have hstarted := hinv.startLane hstopped hl hskip.1 hskip.2.1 (h.readyDue k ready hready)
          (fun k' hk => h.unready k k' hk) ready.callback
        refine ih hstarted.1 ((startLane_stopped _ k ready.lane ready.callback).trans hstopped) ?_
        · have hle : (s.readyLanes.delete k).size ≤ n := by omega
          exact Nat.le_trans (startLane_ready_size _ k ready.lane ready.callback hroom) hle

end Artgod.Trading
