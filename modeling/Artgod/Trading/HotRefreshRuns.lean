/-
# Runs of the hot-refresh scheduler

Over any run, while the scheduler is not stopped: no wake-up is lost, the passes stay within their bound, the
queues hold exactly what the lanes hold, and no pass of a lane key starts before the cooldown that the last
one set is over, unless the bound of the retained cooldowns made the scheduler forget it.
-/
import Mathlib.Data.List.TakeWhile
import Artgod.Trading.HotRefreshInvariant

namespace Artgod.Trading

open Store Js HotRefreshBackpressure
open Function (update_self update_of_ne)

/-! ## 1. Events -/

variable {s : HotRefreshBackpressure} {k : String} {id l : Nat} {event : MarketEvent}
  {kind : HotRefreshLaneKind}

variable {w : PendingEventReference} {s' : HotRefreshBackpressure} {p : HotRefreshPass}

theorem LaneInv.takeOutPending (h : LaneInv s)
    (hw : w ∈ (s.pendingEventsByLaneKind kind).heap) :
    LaneInv (s.takeOutPending kind w) ∧
      ((s.takeOutPending kind w).pendingEventsByLaneKind kind).heap.length + 1 =
        (s.pendingEventsByLaneKind kind).heap.length := by
  obtain ⟨hqueue, hlength⟩ := h.queue.remove s.isWeaker hw h.lanes.inj
  have hheap : (s.takeOutPending kind w).pendingEventsByLaneKind =
      Function.update s.pendingEventsByLaneKind kind ((s.pendingEventsByLaneKind kind).remove
        PendingEventReference.pending s.isWeaker w.pending) := rfl
  have hcount : ((s.takeOutPending kind w).stateByLaneKind kind).pendingEvents =
      (s.stateByLaneKind kind).pendingEvents - 1 := by
    show (Function.update s.stateByLaneKind kind _ kind).pendingEvents = _
    rw [update_self]
    rfl
  refine ⟨?_, by rw [hheap, update_self]; exact hlength⟩
  exact
    { lanes := h.lanes.changed rfl
      timers := h.timers.unchanged rfl
      passes := h.passes.unchanged rfl
      queue := .changed hqueue
      ready := h.ready
      exclusive := exclusive_unchanged h.exclusive rfl rfl
      counts := fun kind' => by
        rw [hheap]
        by_cases hk : kind' = kind
        · rw [hk, hcount, h.counts, update_self, ← hlength, Nat.add_sub_cancel]
        · rw [update_of_ne hk, ← h.counts kind']
          exact congrArg HotRefreshLaneState.pendingEvents (update_of_ne hk ..)
      bounded := fun kind' => by
        rw [hheap]
        by_cases hk : kind' = kind
        · rw [hk, update_self]
          exact Nat.le_trans (Nat.le_of_add_right_le (Nat.le_of_eq hlength)) (h.bounded kind)
        · rw [update_of_ne hk]
          exact h.bounded kind'
      capacity := h.capacity
      due := fun id t ht => Nat.le_trans (Nat.le_of_eq (nextRunAt_unchanged (by rfl) t.lane)) (h.due id t ht)
      readyDue := fun k' r hr =>
        Nat.le_trans (Nat.le_of_eq (nextRunAt_unchanged (by rfl) r.lane)) (h.readyDue k' r hr)
      cooldown := fun k' d hd => (h.cooldown k' d hd).unchanged rfl rfl
      starts := h.starts }

theorem pendingEvents_takeOutPending (s : HotRefreshBackpressure) (kind : HotRefreshLaneKind)
    (w : PendingEventReference) (l : Nat) :
    ((s.takeOutPending kind w).lane l).pendingEvents = (s.lane l).pendingEvents ∨
      ((s.takeOutPending kind w).lane l).pendingEvents = (s.lane l).pendingEvents.delete w.signature := by
  by_cases hl : l = w.lane
  · refine .inr ?_
    show (Function.update s.lane w.lane _ l).pendingEvents = _
    rw [hl, update_self]
  · refine .inl ?_
    show (Function.update s.lane w.lane _ l).pendingEvents = _
    rw [update_of_ne hl]

theorem Working.takeOutPending (h : Working s)
    (hw : w ∈ (s.pendingEventsByLaneKind kind).heap) :
    Working (s.takeOutPending kind w) := by
  refine ⟨(h.toLaneInv.takeOutPending hw).1, fun k l hl hpending => ?_⟩
  have hrunning : ((s.takeOutPending kind w).lane l).running = (s.lane l).running :=
    congrFun (read_update_same HotRefreshLane.running (by rfl)) l
  have htimer : ((s.takeOutPending kind w).lane l).timer = (s.lane l).timer :=
    congrFun (read_update_same HotRefreshLane.timer (by rfl)) l
  have hsize : ((s.takeOutPending kind w).lane l).pendingEvents.size ≤ (s.lane l).pendingEvents.size := by
    rcases pendingEvents_takeOutPending s kind w l with heq | heq
    · rw [heq]
    · rw [heq]
      exact OrderedMap.size_delete_le _ _
  rw [hrunning, htimer]
  exact h.scheduled k l hl (Nat.lt_of_lt_of_le hpending hsize)

/-- What making room for an event of a lane key leaves of it. -/
structure Reserved (k : String) (s s' : HotRefreshBackpressure) : Prop where
  stopped : s'.stopped = s.stopped
  options : s'.options = s.options
  lanes : s'.lanes.get k = s.lanes.get k
  pending : ∀ l signature, (s.lane l).pendingEvents.get signature = none →
    (s'.lane l).pendingEvents.get signature = none

theorem Working.releaseLane (h : Working s) (hroom : Room s) {k' : String}
    (hl : s.lanes.get k = some l) (hk : k' ≠ k) :
    Working (s.releaseLane k l) ∧ Room (s.releaseLane k l) ∧ Reserved k' s (s.releaseLane k l) ∧
      (s.releaseLane k l).pendingEventsByLaneKind = s.pendingEventsByLaneKind := by
  have hremoved : Working (s.removeLaneIfIdle k l) ∧ Room (s.removeLaneIfIdle k l) ∧
      Reserved k' s (s.removeLaneIfIdle k l) ∧
      (s.removeLaneIfIdle k l).pendingEventsByLaneKind = s.pendingEventsByLaneKind := by
    have hdropped := (h.toLaneInv.removeLaneIfIdle k l).2
    exact ⟨h.removeLaneIfIdle k l, hdropped.room hroom, ⟨hdropped.stopped, hdropped.options,
      (hdropped.other k' hk).1, fun l' signature hnone => by rw [hdropped.lane]; exact hnone⟩, hdropped.queue⟩
  unfold HotRefreshBackpressure.releaseLane
  cases htimer : (s.lane l).timer with
  | none => exact hremoved
  | some timer =>
    simp only
    by_cases hidle : (s.lane l).pendingEvents.size = 0 ∧ (s.lane l).running = false
    · rw [if_pos hidle]
      obtain ⟨t, ht, htl⟩ := h.timers.armed k l timer hl htimer
      have hunset := h.toLaneInv.unsetTimer ht
      rw [htl] at hunset
      obtain ⟨s₁, hs₁⟩ : ∃ s₁, ({ s with timers := s.timers.delete timer }.updateLane l fun lane =>
        { lane with timer := none }) = s₁ := ⟨_, rfl⟩
      have hlane : ∀ l', l' ≠ l → s₁.lane l' = s.lane l' := fun l' hne => by
        rw [← hs₁]
        exact update_of_ne hne ..
      have hpending : ∀ l', (s₁.lane l').pendingEvents = (s.lane l').pendingEvents := fun l' => by
        rw [← hs₁]
        exact congrFun (read_update_same HotRefreshLane.pendingEvents (by rfl)) l'
      have hworking : Working s₁ := by
        refine ⟨hs₁ ▸ hunset, fun k₁ => ?_⟩
        by_cases hk₁ : k₁ = k
        · intro l' hl' hsome
          have hl'' : s.lanes.get k₁ = some l' := by rw [← hl', ← hs₁]; rfl
          rw [hk₁, hl] at hl''
          cases hl''
          rw [hpending l] at hsome
          omega
        · exact (h.scheduled k₁).other h.toLaneInv hl hk₁ (by rw [← hs₁]; rfl) hlane (by rw [← hs₁]; rfl)
      have hroom₁ : Room s₁ := by
        rw [← hs₁]
        exact hroom
      rw [hs₁]
      have hdropped := (hworking.toLaneInv.removeLaneIfIdle k l).2
      refine ⟨hworking.removeLaneIfIdle k l, hdropped.room hroom₁, ⟨?_, ?_, ?_, fun l' signature hnone => ?_⟩, ?_⟩
      · rw [hdropped.stopped, ← hs₁]
        rfl
      · rw [hdropped.options, ← hs₁]
        rfl
      · rw [(hdropped.other k' hk).1, ← hs₁]
        rfl
      · rw [hdropped.lane, hpending]
        exact hnone
      · rw [hdropped.queue, ← hs₁]
        rfl
    · rw [if_neg hidle]
      exact hremoved

theorem Working.reservePendingSignature (h : Working s) (hroom : Room s)
    (hreserve : s.reservePendingSignature kind k event = some s') :
    Working s' ∧ Room s' ∧ Reserved k s s' ∧
      (s'.pendingEventsByLaneKind kind).heap.length < s.getMaxPendingSignatures kind := by
  unfold HotRefreshBackpressure.reservePendingSignature at hreserve
  split at hreserve
  · next hlt =>
    cases hreserve
    rw [h.counts kind] at hlt
    exact ⟨h, hroom, ⟨rfl, rfl, rfl, fun _ _ hnone => hnone⟩, hlt⟩
  · cases hpeek : (s.pendingEventsByLaneKind kind).peek with
    | none =>
      rw [hpeek] at hreserve
      cases hreserve
    | some w =>
      rw [hpeek] at hreserve
      simp only at hreserve
      split at hreserve
      · cases hreserve
      have hw : w ∈ (s.pendingEventsByLaneKind kind).heap := List.mem_of_head? hpeek
      obtain ⟨hwl, -, -⟩ := (h.queue.mem kind w).mp hw
      have htaken := h.takeOutPending hw
      have hlength := (h.toLaneInv.takeOutPending hw).2
      have hbound := h.bounded kind
      have hkept : ∀ l signature, (s.lane l).pendingEvents.get signature = none →
          ((s.takeOutPending kind w).lane l).pendingEvents.get signature = none := by
        intro l signature hnone
        rcases pendingEvents_takeOutPending s kind w l with heq | heq
        · rw [heq]
          exact hnone
        · rw [heq, OrderedMap.get_delete, hnone, ite_self]
      have hs' := Option.some.inj hreserve
      unfold HotRefreshBackpressure.evictWeakest at hs'
      split at hs'
      · subst hs'
        exact ⟨htaken, hroom, ⟨rfl, rfl, rfl, hkept⟩, by omega⟩
      · next hother =>
        obtain ⟨hworking, hroom', hreserved, hqueue⟩ :=
          htaken.releaseLane hroom hwl (Ne.symm hother)
        subst hs'
        refine ⟨hworking, hroom', ⟨hreserved.stopped, hreserved.options, hreserved.lanes,
          fun l signature hnone => hreserved.pending l signature (hkept l signature hnone)⟩, ?_⟩
        rw [hqueue]
        omega

/-- The invariant but for one lane key, whose lane is about to be woken. -/
structure Mending (k : String) (l : Nat) (s : HotRefreshBackpressure) : Prop extends LaneInv s where
  others : ∀ k', k' ≠ k → Scheduled s k'
  room : Room s
  going : s.stopped = false
  lane_eq : s.lanes.get k = some l

theorem Mending.wakeLane (h : Mending k l s)
    (callback : Nat) : Working (s.wakeLane k l callback) ∧ Room (s.wakeLane k l callback) := by
  unfold HotRefreshBackpressure.wakeLane
  split
  · next hawake =>
    refine ⟨⟨h.toLaneInv, fun k' => ?_⟩, h.room⟩
    by_cases hk : k' = k
    · intro l' hl' hpending
      rw [hk, h.lane_eq] at hl'
      cases hl'
      rcases hawake with hrunning | htimer
      · exact .inl hrunning
      · exact .inr (.inl htimer)
    · exact h.others k' hk
  · next hasleep =>
    simp only [not_or, Bool.not_eq_true, Option.isSome_eq_false_iff, Option.isNone_iff_eq_none] at hasleep
    obtain ⟨hrunning, htimer⟩ := hasleep
    split
    · next hdelay =>
      have hscheduled : LaneInv (s.scheduleLane k l callback ((s.lane l).nextRunAt - s.now)) :=
        h.toLaneInv.scheduleLane h.lane_eq hrunning htimer (by omega)
      refine ⟨⟨hscheduled, fun k' => ?_⟩, h.room⟩
      by_cases hk : k' = k
      · intro l' hl' hpending
        have hl'' : s.lanes.get k' = some l' := hl'
        rw [hk, h.lane_eq] at hl''
        cases hl''
        refine .inr (.inl ?_)
        show (Function.update s.lane l _ l).timer.isSome = true
        rw [update_self]
        rfl
      · exact (h.others k' hk).other h.toLaneInv h.lane_eq hk rfl
          (fun l' hne => update_of_ne hne ..) rfl
    · next hdelay =>
      obtain ⟨hworking, hroom⟩ := h.toLaneInv.startLane h.going h.lane_eq hrunning htimer (by omega) h.others
        callback
      exact ⟨hworking, hroom h.room⟩

theorem Mending.countSignal (h : Mending k l s) :
    Mending k l (s.countSignal l) := by
  have hlane : (s.countSignal l).lane = Function.update s.lane l
      { s.lane l with pendingSignalCount := (s.lane l).pendingSignalCount + 1 } := rfl
  refine ⟨?_, fun k' hk => ?_, h.room, h.going, h.lane_eq⟩
  · exact
      { lanes := h.lanes.changed rfl
        timers := h.timers.unchanged rfl
        passes := h.passes.unchanged rfl
        queue := h.queue.unchanged rfl
        ready := h.ready
        exclusive := exclusive_unchanged h.exclusive rfl rfl
        counts := fun kind => by
          have hcount := @updateState_pendingEvents s (s.lane l).kind
            (fun state => { state with pendingSignals := state.pendingSignals + 1 }) (fun _ => rfl) kind
          exact hcount.trans (h.counts kind)
        bounded := h.bounded
        capacity := h.capacity
        due := fun id t ht =>
          Nat.le_trans (Nat.le_of_eq (nextRunAt_unchanged (by rfl) t.lane)) (h.due id t ht)
        readyDue := fun k' r hr =>
          Nat.le_trans (Nat.le_of_eq (nextRunAt_unchanged (by rfl) r.lane)) (h.readyDue k' r hr)
        cooldown := fun k' d hd => (h.cooldown k' d hd).unchanged rfl rfl
        starts := h.starts }
  · refine (h.others k' hk).other h.toLaneInv h.lane_eq hk rfl (fun l' hne => ?_) rfl
    rw [hlane]
    exact update_of_ne hne ..

theorem Working.coalesce (h : Working s) (hroom : Room s)
    (hstopped : s.stopped = false) {p : Nat}
    (hl : s.lanes.get k = some l) : Mending k l (s.coalesce l p event) := by
  have hrearranged : ∀ weaker, IndexedHeap.Rearranged PendingEventReference.pending
      (s.pendingEventsByLaneKind (s.lane l).kind)
      ((s.pendingEventsByLaneKind (s.lane l).kind).update PendingEventReference.pending weaker p) :=
    fun weaker => (h.queue.indexed _).update weaker p
  have hlength : ∀ kind, ((s.coalesce l p event).pendingEventsByLaneKind kind).heap.length =
      (s.pendingEventsByLaneKind kind).heap.length := by
    intro kind
    by_cases hk : kind = (s.lane l).kind
    · rw [hk]
      refine Eq.trans (congrArg (fun q : IndexedHeap PendingEventReference Nat => q.heap.length)
        (update_self ..)) (hrearranged _).length
    · exact congrArg (fun q : IndexedHeap PendingEventReference Nat => q.heap.length)
        (update_of_ne hk ..)
  refine ⟨?_, fun k' _ => (h.scheduled k').of_same rfl (fun _ _ => rfl) rfl, hroom, hstopped, hl⟩
  exact
    { h.toLaneInv with
      queue := h.queue.rearrange (hrearranged _)
      counts := fun kind => (h.counts kind).trans (hlength kind).symm
      bounded := fun kind => Nat.le_trans (Nat.le_of_eq (hlength kind)) (h.bounded kind) }

theorem Working.addPending (h : Working s) (hroom : Room s)
    (hstopped : s.stopped = false) {signature : String}
    (hl : s.lanes.get k = some l) (hnew : (s.lane l).pendingEvents.get signature = none)
    (hlt : (s.pendingEventsByLaneKind (keyKind k)).heap.length < s.getMaxPendingSignatures (keyKind k)) :
    Mending k l (s.addPending k l signature event) := by
  have hkind : (s.lane l).kind = keyKind k := h.lanes.kind k l hl
  obtain ⟨weaker, hweaker⟩ : ∃ weaker, HotRefreshBackpressure.isWeaker
      { s with pending := Function.update s.pending s.nextPending ⟨event, 1⟩ } = weaker := ⟨_, rfl⟩
  obtain ⟨hqueue, hlength⟩ := h.queue.add weaker h.lanes.inj hl hnew
  have hheap : (s.addPending k l signature event).pendingEventsByLaneKind =
      Function.update s.pendingEventsByLaneKind (keyKind k) ((s.pendingEventsByLaneKind (keyKind k)).add
        PendingEventReference.pending weaker ⟨k, l, signature, s.nextPending⟩) := by
    rw [← hkind, ← hweaker]
    rfl
  have hcount : ((s.addPending k l signature event).stateByLaneKind (keyKind k)).pendingEvents =
      (s.stateByLaneKind (keyKind k)).pendingEvents + 1 := by
    rw [← hkind]
    show (Function.update s.stateByLaneKind (s.lane l).kind _ (s.lane l).kind).pendingEvents = _
    rw [update_self]
    rfl
  refine ⟨?_, fun k' hk => ?_, hroom, hstopped, hl⟩
  · exact
      { lanes := h.lanes.changed rfl
        timers := h.timers.unchanged rfl
        passes := h.passes.unchanged rfl
        queue := by rw [hheap]; exact .changed hqueue
        ready := h.ready
        exclusive := exclusive_unchanged h.exclusive rfl rfl
        counts := fun kind => by
          rw [hheap]
          by_cases hk : kind = keyKind k
          · rw [hk, hcount, h.counts, update_self, hlength]
          · rw [update_of_ne hk, ← h.counts kind]
            exact congrArg HotRefreshLaneState.pendingEvents (update_of_ne (hkind ▸ hk) ..)
        bounded := fun kind => by
          rw [hheap]
          by_cases hk : kind = keyKind k
          · rw [hk, update_self, hlength]
            exact hlt
          · rw [update_of_ne hk]
            exact h.bounded kind
        capacity := h.capacity
        due := fun id t ht =>
          Nat.le_trans (Nat.le_of_eq (nextRunAt_unchanged (by rfl) t.lane)) (h.due id t ht)
        readyDue := fun k' r hr =>
          Nat.le_trans (Nat.le_of_eq (nextRunAt_unchanged (by rfl) r.lane)) (h.readyDue k' r hr)
        cooldown := fun k' d hd => (h.cooldown k' d hd).unchanged rfl rfl
        starts := h.starts }
  · exact (h.scheduled k').other h.toLaneInv hl hk rfl (fun l' hne => update_of_ne hne ..) rfl

theorem takeRetainedCooldown_eq (s : HotRefreshBackpressure) (k : String) :
    ∃ retained cleanup, s.takeRetainedCooldown (keyKind k) k =
      ((s.cooldownLaneDeadlinesByKind (keyKind k)).get k,
        { s with cooldownLaneDeadlinesByKind := retained, cooldownCleanupTimersByKind := cleanup }) ∧
      ∀ k', k' ≠ k → (retained (keyKind k')).get k' =
        (s.cooldownLaneDeadlinesByKind (keyKind k')).get k' := by
  have hother : ∀ k', k' ≠ k → (Function.update s.cooldownLaneDeadlinesByKind (keyKind k)
      ((s.cooldownLaneDeadlinesByKind (keyKind k)).delete k) (keyKind k')).get k' =
        (s.cooldownLaneDeadlinesByKind (keyKind k')).get k' := by
    intro k' hk
    by_cases hkind : keyKind k' = keyKind k
    · rw [hkind, update_self, OrderedMap.get_delete, if_neg hk]
    · rw [update_of_ne hkind]
  unfold HotRefreshBackpressure.takeRetainedCooldown
  cases hget : (s.cooldownLaneDeadlinesByKind (keyKind k)).get k with
  | none => exact ⟨_, _, rfl, fun _ _ => rfl⟩
  | some deadline =>
    simp only
    split
    · exact ⟨_, _, rfl, hother⟩
    · exact ⟨_, _, rfl, hother⟩

theorem LaneInv.makeLane (h : LaneInv s)
    (hnew : s.lanes.get k = none) {retained : HotRefreshLaneKind → OrderedMap String Nat}
    {cleanup : HotRefreshLaneKind → Option Nat}
    (hother : ∀ k', k' ≠ k → (retained (keyKind k')).get k' =
      (s.cooldownLaneDeadlinesByKind (keyKind k')).get k') :
    LaneInv ({ s with
      cooldownLaneDeadlinesByKind := retained
      cooldownCleanupTimersByKind := cleanup }.makeLane k (keyKind k)
        (((s.cooldownLaneDeadlinesByKind (keyKind k)).get k).getD 0)) := by
  have hold : ∀ k' l', s.lanes.get k' = some l' → k' ≠ k := fun k' l' hl' hk => by
    rw [hk, hnew] at hl'
    cases hl'
  have hlane : ∀ k' l', s.lanes.get k' = some l' → Function.update s.lane s.nextLane
      ⟨false, .empty, 0, ((s.cooldownLaneDeadlinesByKind (keyKind k)).get k).getD 0, none, keyKind k⟩ l' =
        s.lane l' := fun k' l' hl' => update_of_ne (Nat.ne_of_lt (h.lanes.bound k' l' hl')) ..
  have hstays : ∀ k' l', s.lanes.get k' = some l' → (s.lanes.set k s.nextLane).get k' = some l' :=
    fun k' l' hl' => by
      rw [OrderedMap.get_set, if_neg (hold k' l' hl')]
      exact hl'
  exact
    { lanes := .replaced (h.lanes.make rfl)
      timers := .changed (h.timers.make hnew h.lanes.bound)
      passes := .changed (h.passes.make hnew h.lanes.bound)
      queue := .changed (h.queue.make hnew h.lanes.bound)
      ready := fun k' r hr => hstays k' r.lane (h.ready k' r hr)
      exclusive := fun k' l' hl' hrunning => by
        have hl'' : (s.lanes.set k s.nextLane).get k' = some l' := hl'
        rw [OrderedMap.get_set] at hl''
        split at hl''
        · cases hl''
          have hfresh : (Function.update s.lane s.nextLane ⟨false, .empty, 0,
            ((s.cooldownLaneDeadlinesByKind (keyKind k)).get k).getD 0, none, keyKind k⟩
              s.nextLane).running = true := hrunning
          rw [update_self] at hfresh
          cases hfresh
        · have hsame := hlane k' l' hl''
          exact ⟨(congrArg HotRefreshLane.timer hsame).trans (h.exclusive k' l' hl''
            ((congrArg HotRefreshLane.running hsame).symm.trans hrunning)).1, (h.exclusive k' l' hl''
            ((congrArg HotRefreshLane.running hsame).symm.trans hrunning)).2⟩
      counts := h.counts
      bounded := h.bounded
      capacity := h.capacity
      due := fun id t ht => by
        have hsame := hlane t.laneKey t.lane (h.timers.live id t ht).1
        exact Nat.le_trans (Nat.le_of_eq (congrArg HotRefreshLane.nextRunAt hsame)) (h.due id t ht)
      readyDue := fun k' r hr => by
        have hsame := hlane k' r.lane (h.ready k' r hr)
        exact Nat.le_trans (Nat.le_of_eq (congrArg HotRefreshLane.nextRunAt hsame)) (h.readyDue k' r hr)
      cooldown := fun k' d hd => .replaced ((h.cooldown k' d hd).make hnew h.lanes.bound hother)
      starts := h.starts }

theorem Working.getLane (h : Working s) (hroom : Room s)
    (hsupported : isSupportedHotRefreshEvent event = true)
    (hnew : s.lanes.get (createLaneKey event) = none) :
    Working (s.getLane event).2 ∧ Room (s.getLane event).2 ∧
      (s.getLane event).2.stopped = s.stopped ∧
      (s.getLane event).2.lanes.get (createLaneKey event) = some (s.getLane event).1 ∧
      ((s.getLane event).2.lane (s.getLane event).1).pendingEvents = .empty ∧
      (s.getLane event).2.pendingEventsByLaneKind = s.pendingEventsByLaneKind ∧
      (s.getLane event).2.options = s.options := by
  obtain ⟨retained, cleanup, htake, hother⟩ := takeRetainedCooldown_eq s (createLaneKey event)
  rw [keyKind_createLaneKey hsupported] at htake
  obtain ⟨s₁, hs₁⟩ : ∃ s₁, ({ s with
      cooldownLaneDeadlinesByKind := retained
      cooldownCleanupTimersByKind := cleanup }.makeLane (createLaneKey event)
        (keyKind (createLaneKey event)) (((s.cooldownLaneDeadlinesByKind
          (keyKind (createLaneKey event))).get (createLaneKey event)).getD 0)) = s₁ := ⟨_, rfl⟩
  have hinv : LaneInv s₁ := hs₁ ▸ h.toLaneInv.makeLane hnew hother
  have hlanes : s₁.lanes.get (createLaneKey event) = some s.nextLane := by
    rw [← hs₁]
    show (s.lanes.set (createLaneKey event) s.nextLane).get (createLaneKey event) = _
    rw [OrderedMap.get_set, if_pos rfl]
  have hempty : (s₁.lane s.nextLane).pendingEvents = .empty := by
    rw [← hs₁]
    show (Function.update s.lane s.nextLane _ s.nextLane).pendingEvents = _
    rw [update_self]
  have hworking : Working s₁ := by
    refine ⟨hinv, fun k' => ?_⟩
    by_cases hk : k' = createLaneKey event
    · intro l' hl' hpending
      rw [hk, hlanes] at hl'
      cases hl'
      rw [hempty] at hpending
      exact absurd hpending (Nat.lt_irrefl 0)
    · refine (h.scheduled k').of_same ?_ (fun l' hl' => ?_) (by rw [← hs₁]; rfl)
      · rw [← hs₁]
        show (s.lanes.set (createLaneKey event) s.nextLane).get k' = _
        rw [OrderedMap.get_set, if_neg hk]
      · rw [← hs₁]
        exact update_of_ne (Nat.ne_of_lt (h.lanes.bound k' l' hl')) ..
  have hroom₁ : Room s₁ := by
    rw [← hs₁]
    exact hroom
  have hframe : s₁.stopped = s.stopped ∧ s₁.pendingEventsByLaneKind = s.pendingEventsByLaneKind ∧
      s₁.options = s.options := by
    rw [← hs₁]
    exact ⟨rfl, rfl, rfl⟩
  rw [keyKind_createLaneKey hsupported] at hs₁
  unfold HotRefreshBackpressure.getLane
  simp only [hnew, htake]
  cases hdeadline : (s.cooldownLaneDeadlinesByKind (laneKind event)).get (createLaneKey event) with
  | some deadline =>
    rw [hdeadline] at hs₁
    simp only [hs₁]
    exact ⟨hworking, hroom₁, hframe.1, hlanes, hempty, hframe.2⟩
  | none =>
    rw [hdeadline] at hs₁
    simp only [hs₁]
    exact ⟨⟨hworking.toLaneInv.updateState fun _ => rfl, hworking.scheduled⟩, hroom₁, hframe.1, hlanes, hempty,
      hframe.2⟩

theorem Working.queueEvent (h : Working s) (hroom : Room s)
    (hstopped : s.stopped = false)
    (hsupported : isSupportedHotRefreshEvent event = true) (callback : Nat) :
    Working (s.queueEvent event callback) ∧ Room (s.queueEvent event callback) := by
  have hkind := keyKind_createLaneKey hsupported
  unfold HotRefreshBackpressure.queueEvent
  rw [if_neg (by rw [hstopped]; decide)]
  simp only
  cases hl : s.lanes.get (createLaneKey event) with
  | some l =>
    simp only
    cases hp : (s.lane l).pendingEvents.get (createEventSignature event) with
    | some p => exact (h.coalesce hroom hstopped hl).countSignal.wakeLane callback
    | none =>
      cases hreserve : s.reservePendingSignature (laneKind event) (createLaneKey event) event with
      | none => exact ⟨h, hroom⟩
      | some s' =>
        obtain ⟨hworking, hroom', hreserved, hlt⟩ := h.reservePendingSignature hroom hreserve
        have hmax : s'.getMaxPendingSignatures = s.getMaxPendingSignatures := by
          funext kind
          unfold HotRefreshBackpressure.getMaxPendingSignatures
          rw [hreserved.options]
        rw [← hkind, ← hmax] at hlt
        exact (hworking.addPending hroom' (hreserved.stopped.trans hstopped) (hreserved.lanes.trans hl)
          (hreserved.pending l _ hp) hlt).countSignal.wakeLane callback
  | none =>
    simp only
    cases hreserve : s.reservePendingSignature (laneKind event) (createLaneKey event) event with
    | none => exact ⟨h, hroom⟩
    | some s' =>
      obtain ⟨hworking, hroom', hreserved, hlt⟩ := h.reservePendingSignature hroom hreserve
      obtain ⟨hmade, hroom'', hstopped', hlanes, hempty, hqueue, hoptions⟩ :=
        hworking.getLane hroom' hsupported (hreserved.lanes.trans hl)
      have hmax : (s'.getLane event).2.getMaxPendingSignatures = s.getMaxPendingSignatures := by
        funext kind
        unfold HotRefreshBackpressure.getMaxPendingSignatures
        rw [hoptions, hreserved.options]
      rw [← hkind, ← hmax, ← hqueue] at hlt
      exact (hmade.addPending hroom'' (hstopped'.trans (hreserved.stopped.trans hstopped)) hlanes
        (by rw [hempty]; rfl) hlt).countSignal.wakeLane callback

/-! ## 2. Timers, passes and cleanups -/

theorem Working.fireTimer (h : Working s) (hroom : Room s)
    (hstopped : s.stopped = false) {t : LaneTimer} (ht : s.timers.get id = some t)
    (hdue : t.dueAt ≤ s.now) :
    Working ({ s with timers := s.timers.delete id }.fireTimer t) ∧
      Room ({ s with timers := s.timers.delete id }.fireTimer t) := by
  obtain ⟨hl, htimer⟩ := h.timers.live id t ht
  have hover : (s.lane t.lane).nextRunAt ≤ s.now := Nat.le_trans (h.due id t ht) hdue
  have hrunning : (s.lane t.lane).running = false := by
    cases hrunning : (s.lane t.lane).running with
    | false => rfl
    | true =>
      have hnone := (h.exclusive t.laneKey t.lane hl hrunning).1
      rw [show (s.lane t.lane).timer = some id from htimer] at hnone
      cases hnone
  have hinv := h.toLaneInv.unsetTimer ht
  obtain ⟨s₁, hs₁⟩ : ∃ s₁, ({ s with timers := s.timers.delete id }.updateLane t.lane fun lane =>
    { lane with timer := none }) = s₁ := ⟨_, rfl⟩
  have hlane : s₁.lane t.lane = { s.lane t.lane with timer := none } := by
    rw [← hs₁]
    exact update_self ..
  have hothers : ∀ k', k' ≠ t.laneKey → Scheduled s₁ k' := fun k' hk =>
    (h.scheduled k').other h.toLaneInv hl hk (by rw [← hs₁]; rfl)
      (fun l' hne => by rw [← hs₁]; exact update_of_ne hne ..) (by rw [← hs₁]; rfl)
  have hroom₁ : Room s₁ := by
    rw [← hs₁]
    exact hroom
  have hstopped₁ : s₁.stopped = false := by
    rw [← hs₁]
    exact hstopped
  have hl₁ : s₁.lanes.get t.laneKey = some t.lane := by
    rw [← hs₁]
    exact hl
  have hnow : s₁.now = s.now := by
    rw [← hs₁]
    rfl
  unfold HotRefreshBackpressure.fireTimer
  rw [hs₁] at hinv ⊢
  simp only
  rw [if_neg (by rw [hstopped₁, hlane]; simp [hrunning])]
  split
  · obtain ⟨hworking, hroom'⟩ := hinv.startLane hstopped₁ hl₁ (by rw [hlane]; exact hrunning)
      (by rw [hlane]) (by rw [hlane, hnow]; exact hover) hothers t.callback
    exact ⟨hworking, hroom' hroom₁⟩
  · next hempty =>
    have hworking : Working s₁ := by
      refine ⟨hinv, fun k' => ?_⟩
      by_cases hk : k' = t.laneKey
      · intro l' hl' hpending
        rw [hk, hl₁] at hl'
        cases hl'
        exact absurd hpending hempty
      · exact hothers k' hk
    exact ⟨hworking.removeLaneIfIdle t.laneKey t.lane, (hinv.removeLaneIfIdle t.laneKey t.lane).2.room hroom₁⟩

theorem lane_coolDown (s : HotRefreshBackpressure) (id : Nat) (p : HotRefreshPass) (nextRunAt : Nat) :
    ((s.releasePass id p).coolDown p nextRunAt).lane = Function.update s.lane p.lane
      { s.lane p.lane with running := false, nextRunAt := nextRunAt } := by
  show Function.update (Function.update s.lane p.lane { s.lane p.lane with running := false }) p.lane
    { Function.update s.lane p.lane { s.lane p.lane with running := false } p.lane with
      nextRunAt := nextRunAt } = _
  rw [Function.update_idem, update_self]

theorem LaneInv.endPass (h : LaneInv s) {nextRunAt : Nat}
    (hp : s.passes.get id = some p)
    (hs' : (s.releasePass id p).coolDown p nextRunAt = s') : LaneInv s' := by
  obtain ⟨hl, hrunning⟩ := h.passes.live id p hp
  obtain ⟨htimer, hready⟩ := h.exclusive p.laneKey p.lane hl hrunning
  have hlane : s'.lane = Function.update s.lane p.lane
      { s.lane p.lane with running := false, nextRunAt := nextRunAt } := hs' ▸ lane_coolDown s id p nextRunAt
  have hother : ∀ l', l' ≠ p.lane → s'.lane l' = s.lane l' := fun l' hne => by
    rw [hlane]
    exact update_of_ne hne ..
  have hlanes : s'.lanes = s.lanes := by rw [← hs']; rfl
  have hreadyLanes : s'.readyLanes = s.readyLanes := by rw [← hs']; rfl
  have htimers : s'.timers = s.timers := by rw [← hs']; rfl
  have hqueue : s'.pendingEventsByLaneKind = s.pendingEventsByLaneKind := by rw [← hs']; rfl
  have hcounts : ∀ kind, (s'.stateByLaneKind kind).pendingEvents = (s.stateByLaneKind kind).pendingEvents := by
    intro kind
    rw [← hs']
    exact @updateState_pendingEvents (s.updateLane p.lane fun lane => { lane with running := false })
      (s.lane p.lane).kind (fun state => { state with activeLanes := state.activeLanes - 1 }) (fun _ => rfl)
      kind
  have hactive : s'.activePassCount = s.activePassCount - 1 := by rw [← hs']; rfl
  have hoptions : s'.options = s.options := by rw [← hs']; rfl
  refine ⟨?_, ?_, ?_, ?_, ?_, fun k' l' hl' hrunning' => ?_, fun kind => ?_, ?_, ?_, fun id' t ht => ?_,
    fun k' r hr => ?_, fun k' d hd => ?_, ?_⟩
  · rw [hlane, hlanes, show s'.nextLane = s.nextLane by rw [← hs']; rfl]
    exact h.lanes.changed rfl
  · rw [hlane, hlanes, htimers, show s'.nextTimer = s.nextTimer by rw [← hs']; rfl]
    exact h.timers.unchanged rfl
  · rw [hlane, hlanes, hactive, show s'.passes = s.passes.delete id by rw [← hs']; rfl,
      show s'.nextPass = s.nextPass by rw [← hs']; rfl]
    exact .changed (h.passes.finish hp)
  · rw [hlane, hlanes, hqueue, show s'.nextPending = s.nextPending by rw [← hs']; rfl]
    exact h.queue.unchanged rfl
  · rw [hreadyLanes, hlanes]
    exact h.ready
  · rw [hlanes] at hl'
    have hne : l' ≠ p.lane := fun heq => by
      rw [heq, hlane, update_self] at hrunning'
      cases hrunning'
    rw [hother l' hne] at hrunning' ⊢
    rw [hreadyLanes]
    exact h.exclusive k' l' hl' hrunning'
  · rw [hcounts, hqueue]
    exact h.counts kind
  · rw [hqueue, show s'.getMaxPendingSignatures = s.getMaxPendingSignatures by rw [← hs']; rfl]
    exact h.bounded
  · rw [hactive, hoptions]
    exact Nat.le_trans (Nat.sub_le ..) h.capacity
  · rw [htimers] at ht
    have hne : t.lane ≠ p.lane := fun heq => by
      have hsome := (h.timers.live id' t ht).2
      simp only [heq, htimer] at hsome
      cases hsome
    rw [hother t.lane hne]
    exact h.due id' t ht
  · rw [hreadyLanes] at hr
    have hne : r.lane ≠ p.lane := fun heq => by
      have hl' := h.ready k' r hr
      rw [heq] at hl'
      rw [h.lanes.inj k' p.laneKey p.lane hl' hl, hready] at hr
      cases hr
    rw [hother r.lane hne, show s'.now = s.now by rw [← hs']; rfl]
    exact h.readyDue k' r hr
  · rw [show s'.deadlines = Function.update s.deadlines p.laneKey (some nextRunAt) by rw [← hs']; rfl] at hd
    rw [hlane, hlanes, show s'.cooldownLaneDeadlinesByKind = s.cooldownLaneDeadlinesByKind by rw [← hs']; rfl,
      show s'.now = s.now by rw [← hs']; rfl]
    exact .replaced (.finish hl h.lanes.inj (h.cooldown k') hd)
  · rw [show s'.starts = s.starts by rw [← hs']; rfl]
    exact h.starts

theorem Working.finishPass (h : Working s) (hstopped : s.stopped = false)
    (hp : s.passes.get id = some p) :
    Working (s.finishPass id p) ∧ Room (s.finishPass id p) := by
  have hl := (h.passes.live id p hp).1
  have hrunning := (h.passes.live id p hp).2
  have htimer := (h.exclusive p.laneKey p.lane hl hrunning).1
  obtain ⟨cooldownMs, hcooldown⟩ : ∃ ms, s.getCooldownMs (s.lane p.lane).kind = ms := ⟨_, rfl⟩
  obtain ⟨s₁, hs₁⟩ : ∃ s₁, (s.releasePass id p).coolDown p (s.now + cooldownMs) = s₁ := ⟨_, rfl⟩
  have hinv : LaneInv s₁ := h.toLaneInv.endPass hp hs₁
  have hlane : s₁.lane p.lane = { s.lane p.lane with running := false, nextRunAt := s.now + cooldownMs } := by
    rw [← hs₁, lane_coolDown, update_self]
  have hl₁ : s₁.lanes.get p.laneKey = some p.lane := by
    rw [← hs₁]
    exact hl
  have hnow : s₁.now = s.now := by
    rw [← hs₁]
    rfl
  have hstopped₁ : s₁.stopped = false := by
    rw [← hs₁]
    exact hstopped
  have hothers : ∀ k', k' ≠ p.laneKey → Scheduled s₁ k' := fun k' hk =>
    (h.scheduled k').other h.toLaneInv hl hk (by rw [← hs₁]; rfl)
      (fun l' hne => by
        rw [← hs₁]
        exact (update_of_ne hne ..).trans (update_of_ne hne ..)) (by rw [← hs₁]; rfl)
  unfold HotRefreshBackpressure.finishPass
  simp only [hcooldown]
  rw [if_neg (by rw [show (s.releasePass id p).stopped = s.stopped from rfl, hstopped]; decide),
    show (s.releasePass id p).now = s.now from rfl, hs₁]
  split
  · have hscheduled : LaneInv (s₁.scheduleLane p.laneKey p.lane p.callback cooldownMs) :=
      hinv.scheduleLane hl₁ (by rw [hlane]) (by rw [hlane]; exact htimer) (by rw [hlane, hnow])
    have hworking : Working (s₁.scheduleLane p.laneKey p.lane p.callback cooldownMs) := by
      refine ⟨hscheduled, fun k' => ?_⟩
      by_cases hk : k' = p.laneKey
      · intro l' hl' hpending
        have hl'' : s₁.lanes.get k' = some l' := hl'
        rw [hk, hl₁] at hl''
        cases hl''
        refine .inr (.inl ?_)
        show (Function.update s₁.lane p.lane _ p.lane).timer.isSome = true
        rw [update_self]
        rfl
      · exact (hothers k' hk).other hinv hl₁ hk rfl (fun l' hne => update_of_ne hne ..) rfl
    exact hworking.startReadyLanes _ hstopped₁ (Nat.le_refl _)
  · next hempty =>
    have hsize : (s₁.lane p.lane).pendingEvents.size = 0 := Nat.le_zero.mp (Nat.le_of_not_lt hempty)
    have hworking : Working s₁ := by
      refine ⟨hinv, fun k' => ?_⟩
      by_cases hk : k' = p.laneKey
      · intro l' hl' hpending
        rw [hk, hl₁] at hl'
        cases hl'
        exact absurd hpending hempty
      · exact hothers k' hk
    obtain ⟨hretained, hdropped⟩ := @LaneInv.retainLaneCooldown _ hinv p.laneKey p.lane (by rw [hlane])
      (by rw [hlane]; exact htimer) hsize
    have hworking' : Working (s₁.retainLaneCooldown p.laneKey p.lane) :=
      ⟨hretained, fun k' => hdropped.scheduled (hworking.scheduled k')⟩
    exact hworking'.startReadyLanes _ (hdropped.stopped.trans hstopped₁) (Nat.le_refl _)

theorem le_now_of_mem_expiredKeys {s : HotRefreshBackpressure} {kind : HotRefreshLaneKind} {k : String}
    {d : Nat} (hk : k ∈ s.expiredKeys kind) (hd : (s.cooldownLaneDeadlinesByKind kind).get k = some d) :
    d ≤ s.now := by
  obtain ⟨e, he, rfl⟩ := List.mem_map.mp hk
  have hget := OrderedMap.mem_entries.mp (List.takeWhile_subset _ he)
  rw [show (s.cooldownLaneDeadlinesByKind kind).get e.1 = some e.2 from hget] at hd
  cases hd
  have hover := List.mem_takeWhile_imp he
  exact of_decide_eq_true hover

theorem Working.expireRetainedCooldowns (h : Working s) (hroom : Room s)
    (kind : HotRefreshLaneKind) :
    Working (s.expireRetainedCooldowns kind) ∧ Room (s.expireRetainedCooldowns kind) := by
  have hexpired : LaneInv ((s.updateCooldowns kind fun m =>
      (s.expiredKeys kind).foldl (fun m laneKey => m.delete laneKey) m).updateState kind fun state =>
        { state with knownLanes := state.knownLanes - (s.expiredKeys kind).length }) := by
    refine LaneInv.updateState ?_ fun _ => rfl
    refine { h.toLaneInv with cooldown := fun k d hd => ?_ }
    rcases h.cooldown k d hd with hover | hlane | ⟨hnone, hretained⟩
    · exact .inl hover
    · exact .inr (.inl hlane)
    by_cases hkind : keyKind k = kind
    · by_cases hk : k ∈ s.expiredKeys kind
      · rw [hkind] at hretained
        exact .inl (@le_now_of_mem_expiredKeys s kind k d hk hretained)
      · refine .inr (.inr ⟨hnone, ?_⟩)
        show (Function.update s.cooldownLaneDeadlinesByKind kind _ (keyKind k)).get k = some d
        rw [hkind, update_self, OrderedMap.get_deleteAll, if_neg hk, ← hkind]
        exact hretained
    · refine .inr (.inr ⟨hnone, ?_⟩)
      show (Function.update s.cooldownLaneDeadlinesByKind kind _ (keyKind k)).get k = some d
      rw [update_of_ne hkind]
      exact hretained
  obtain ⟨hinv, hdropped⟩ := hexpired.scheduleRetainedCooldownCleanup kind ""
  exact ⟨⟨hinv, fun k => hdropped.scheduled (h.scheduled k)⟩, hdropped.room hroom⟩

theorem Working.elapse (h : Working s) (ms : Nat) :
    Working { s with now := s.now + ms } := by
  refine ⟨{ h.toLaneInv with readyDue := fun k r hr => ?_, cooldown := fun k d hd => ?_ }, h.scheduled⟩
  · exact Nat.le_trans (h.readyDue k r hr) (Nat.le_add_right _ _)
  · rcases h.cooldown k d hd with hover | hlater
    · exact .inl (Nat.le_trans hover (Nat.le_add_right _ _))
    · exact .inr hlater

/-! ## 3. Runs -/

/-- What holds in every state. -/
structure SchedulerInv (s : HotRefreshBackpressure) : Prop where
  starts : ∀ start ∈ s.starts, ∀ d, start.deadline = some d → d ≤ start.at'
  going : s.stopped = false → Working s ∧ Room s

theorem SchedulerInv.of_working (h : Working s ∧ Room s) : SchedulerInv s :=
  ⟨h.1.starts, fun _ => h⟩

theorem SchedulerInv.create (options : HotRefreshBackpressureOptions) (now : Nat) :
    SchedulerInv (create options now) := by
  refine .of_working ⟨⟨?_, fun k l hl => by cases hl⟩, fun k r hr => by cases hr⟩
  exact
    { lanes := ⟨fun k l hl => (by cases hl), fun k k' l hl => (by cases hl), fun k l hl => (by cases hl)⟩
      timers := ⟨fun id t ht => (by cases ht), fun id t ht => (by cases ht), fun k l id hl => (by cases hl)⟩
      passes := ⟨fun id p hp => (by cases hp), fun id p hp => (by cases hp),
        fun id id' p p' hp => (by cases hp), fun k l hl => (by cases hl), rfl⟩
      queue := ⟨fun kind => IndexedHeap.indexed_empty,
        fun kind r => ⟨fun hr => (by cases hr), fun hr => (by cases hr.1)⟩, fun kind r hr => (by cases hr)⟩
      ready := fun k r hr => by cases hr
      exclusive := fun k l hl => by cases hl
      counts := fun kind => rfl
      bounded := fun kind => Nat.zero_le _
      capacity := Nat.zero_le _
      due := fun id t ht => by cases ht
      readyDue := fun k r hr => by cases hr
      cooldown := fun k d hd => by cases hd
      starts := fun start hstart => by cases hstart }

theorem stopLanes_frame (ls : List Nat) (s : HotRefreshBackpressure) :
    (ls.foldl stopLane s).stopped = s.stopped ∧ (ls.foldl stopLane s).starts = s.starts := by
  induction ls generalizing s with
  | nil => exact ⟨rfl, rfl⟩
  | cons l rest ih =>
    have hone : (s.stopLane l).stopped = s.stopped ∧ (s.stopLane l).starts = s.starts := by
      unfold HotRefreshBackpressure.stopLane
      cases (s.lane l).timer with
      | none => exact ⟨rfl, rfl⟩
      | some timer => exact ⟨rfl, rfl⟩
    rw [List.foldl_cons, (ih _).1, (ih _).2]
    exact hone

theorem scheduleRetainedCooldownCleanup_frame (s : HotRefreshBackpressure) (kind : HotRefreshLaneKind) :
    (s.scheduleRetainedCooldownCleanup kind).stopped = s.stopped ∧
      (s.scheduleRetainedCooldownCleanup kind).starts = s.starts ∧
      (s.scheduleRetainedCooldownCleanup kind).cooldownLaneDeadlinesByKind =
        s.cooldownLaneDeadlinesByKind := by
  unfold HotRefreshBackpressure.scheduleRetainedCooldownCleanup
  split
  · exact ⟨rfl, rfl, rfl⟩
  · split
    · exact ⟨rfl, rfl, rfl⟩
    · exact ⟨rfl, rfl, rfl⟩

theorem clearLanePending_frame (s : HotRefreshBackpressure) (l : Nat) :
    (s.clearLanePending l).stopped = s.stopped ∧ (s.clearLanePending l).starts = s.starts := ⟨rfl, rfl⟩

theorem finishPass_of_stopped (h : s.stopped = true) (id : Nat)
    (pass : HotRefreshPass) :
    (s.finishPass id pass).stopped = true ∧ (s.finishPass id pass).starts = s.starts := by
  have hstopped : (s.releasePass id pass).stopped = true := h
  have hfinish : s.finishPass id pass = ((s.releasePass id pass).clearLanePending pass.lane).updateLane
      pass.lane fun lane => { lane with timer := none } := if_pos hstopped
  obtain ⟨hstop, hstarts⟩ := clearLanePending_frame (s.releasePass id pass) pass.lane
  rw [hfinish]
  exact ⟨hstop.trans hstopped, hstarts⟩

theorem step_of_stopped (h : s.stopped = true) (e : HotRefreshEvent) :
    (s.step e).stopped = true ∧ (s.step e).starts = s.starts := by
  cases e with
  | event event callback =>
    have hsame : s.step (.event event callback) = s := by
      simp only [HotRefreshBackpressure.step, HotRefreshBackpressure.queueEvent, if_pos h, ite_self]
    rw [hsame]
    exact ⟨h, rfl⟩
  | elapse ms => exact ⟨h, rfl⟩
  | timer id =>
    simp only [HotRefreshBackpressure.step]
    cases s.timers.get id with
    | none => exact ⟨h, rfl⟩
    | some timer =>
      simp only
      split
      · unfold HotRefreshBackpressure.fireTimer
        simp only
        rw [if_pos (.inl h)]
        exact ⟨h, rfl⟩
      · exact ⟨h, rfl⟩
  | cleanup kind =>
    simp only [HotRefreshBackpressure.step]
    cases s.cooldownCleanupTimersByKind kind with
    | none => exact ⟨h, rfl⟩
    | some dueAt =>
      simp only
      split
      · unfold HotRefreshBackpressure.expireRetainedCooldowns
        simp only
        obtain ⟨hstopped, hstarts, -⟩ := scheduleRetainedCooldownCleanup_frame _ kind
        rw [hstopped, hstarts]
        exact ⟨h, rfl⟩
      · exact ⟨h, rfl⟩
  | passSettled id succeeded =>
    simp only [HotRefreshBackpressure.step]
    cases s.passes.get id with
    | none => exact ⟨h, rfl⟩
    | some pass => exact finishPass_of_stopped h id pass
  | stop =>
    obtain ⟨hstopped, hstarts⟩ := stopLanes_frame _
      { s with stopped := true, readyLanes := .empty }.clearRetainedCooldownLanes
    exact ⟨hstopped, hstarts⟩
  | stopSettled =>
    simp only [HotRefreshBackpressure.step]
    split
    · exact ⟨h, rfl⟩
    · exact ⟨h, rfl⟩

theorem SchedulerInv.step (h : SchedulerInv s) (e : HotRefreshEvent) :
    SchedulerInv (s.step e) := by
  cases hstopped : s.stopped with
  | true =>
    obtain ⟨hstop, hstarts⟩ := step_of_stopped hstopped e
    refine ⟨by rw [hstarts]; exact h.starts, fun hgoing => ?_⟩
    rw [hstop] at hgoing
    cases hgoing
  | false =>
    obtain ⟨hworking, hroom⟩ := h.going hstopped
    cases e with
    | event event callback =>
      simp only [HotRefreshBackpressure.step]
      split
      · next hsupported => exact .of_working (hworking.queueEvent hroom hstopped hsupported callback)
      · exact h
    | elapse ms => exact .of_working ⟨hworking.elapse ms, hroom⟩
    | timer id =>
      simp only [HotRefreshBackpressure.step]
      cases ht : s.timers.get id with
      | none => exact h
      | some timer =>
        simp only
        split
        · next hdue => exact .of_working (hworking.fireTimer hroom hstopped ht hdue)
        · exact h
    | cleanup kind =>
      simp only [HotRefreshBackpressure.step]
      cases s.cooldownCleanupTimersByKind kind with
      | none => exact h
      | some dueAt =>
        simp only
        split
        · have hcleared : Working { s with
              cooldownCleanupTimersByKind := Function.update s.cooldownCleanupTimersByKind kind none } :=
            ⟨{ hworking.toLaneInv with }, hworking.scheduled⟩
          exact .of_working (hcleared.expireRetainedCooldowns hroom kind)
        · exact h
    | passSettled id succeeded =>
      simp only [HotRefreshBackpressure.step]
      cases hp : s.passes.get id with
      | none => exact h
      | some pass => exact .of_working (hworking.finishPass hstopped hp)
    | stop =>
      obtain ⟨hstop, hstarts⟩ := stopLanes_frame
        ({ s with stopped := true, readyLanes := .empty }.clearRetainedCooldownLanes).lanes.values
        ({ s with stopped := true, readyLanes := .empty }.clearRetainedCooldownLanes)
      refine ⟨fun start hstart => h.starts start (hstarts ▸ hstart), fun hgoing => ?_⟩
      have hgoing' := hstop.symm.trans hgoing
      cases hgoing'
    | stopSettled =>
      simp only [HotRefreshBackpressure.step]
      rw [if_neg fun hset => by rw [hstopped] at hset; exact absurd hset.1 (by decide)]
      exact h

theorem SchedulerInv.run (options : HotRefreshBackpressureOptions) (now : Nat) (es : List HotRefreshEvent) :
    SchedulerInv (Machine.run HotRefreshBackpressure.step (HotRefreshBackpressure.create options now) es) :=
  Machine.run_invariant (fun _ e h => h.step e) (SchedulerInv.create options now) es

theorem LaneInv.activePassCount_eq (h : LaneInv s) :
    s.activePassCount = (s.lanes.entries.filter fun e => (s.lane e.2).running).length := by
  have hlanes : ((s.lanes.entries.filter fun e => (s.lane e.2).running).map Prod.snd).Nodup := by
    refine List.Nodup.map_on (fun e he e' he' heq => ?_) (s.lanes.table.rows_nodup.filter _)
    have hl := OrderedMap.mem_entries.mp (List.mem_of_mem_filter he)
    have hl' := OrderedMap.mem_entries.mp (List.mem_of_mem_filter he')
    rw [heq] at hl
    exact Prod.ext (h.lanes.inj _ _ _ hl hl') heq
  have hpasses : (s.passes.entries.map fun e => e.2.lane).Nodup := by
    refine List.Nodup.map_on (fun e he e' he' heq => ?_) s.passes.table.rows_nodup
    have hp := OrderedMap.mem_entries.mp he
    have hp' := OrderedMap.mem_entries.mp he'
    have hid := h.passes.unique _ _ _ _ hp hp' heq
    rw [hid, hp'] at hp
    exact Prod.ext hid (Option.some.inj hp).symm
  have hperm : ((s.lanes.entries.filter fun e => (s.lane e.2).running).map Prod.snd).Perm
      (s.passes.entries.map fun e => e.2.lane) := by
    rw [List.perm_ext_iff_of_nodup hlanes hpasses]
    intro l
    simp only [List.mem_map, List.mem_filter]
    constructor
    · rintro ⟨e, ⟨he, hrunning⟩, rfl⟩
      obtain ⟨id, p, hp, hpl⟩ := h.passes.running e.1 e.2 (OrderedMap.mem_entries.mp he) hrunning
      exact ⟨(id, p), OrderedMap.mem_entries.mpr hp, hpl⟩
    · rintro ⟨e, he, rfl⟩
      obtain ⟨hl, hrunning⟩ := h.passes.live e.1 e.2 (OrderedMap.mem_entries.mp he)
      exact ⟨(e.2.laneKey, e.2.lane), ⟨OrderedMap.mem_entries.mpr hl, hrunning⟩, rfl⟩
  have hlength := hperm.length_eq
  rw [List.length_map, List.length_map] at hlength
  rw [h.passes.count, hlength]
  rfl

theorem retained_of_cleanup {d : Nat}
    (hd : (s.cooldownLaneDeadlinesByKind kind).get k = some d) (hlater : s.now < d)
    (cleaned : HotRefreshLaneKind) :
    ((s.step (.cleanup cleaned)).cooldownLaneDeadlinesByKind kind).get k = some d := by
  simp only [HotRefreshBackpressure.step]
  cases s.cooldownCleanupTimersByKind cleaned with
  | none => exact hd
  | some dueAt =>
    simp only
    split
    · unfold HotRefreshBackpressure.expireRetainedCooldowns
      simp only
      rw [(scheduleRetainedCooldownCleanup_frame _ cleaned).2.2]
      show (Function.update s.cooldownLaneDeadlinesByKind cleaned _ kind).get k = some d
      by_cases hkind : kind = cleaned
      · subst hkind
        rw [update_self]
        have hkept : k ∉ s.expiredKeys kind := fun hk =>
          absurd (le_now_of_mem_expiredKeys hk hd) (Nat.not_le_of_lt hlater)
        exact (OrderedMap.get_deleteAll ..).trans ((if_neg hkept).trans hd)
      · rw [update_of_ne hkind]
        exact hd
    · exact hd

/-- **No wake-up is lost.**  In every state of every run in which the scheduler is not stopped: a lane with
pending events runs, has a timer that is set, or is queued; lanes are queued only when all passes are in use;
no lane runs and has a timer; the passes that count as active are the lanes that run; and the queue of a kind
holds exactly what is pending in the lanes of that kind, once each, counted, and within the bound. -/
theorem hot_refresh_no_lost_wakeup (options : HotRefreshBackpressureOptions) (now : Nat)
    (es : List HotRefreshEvent)
    (hgoing : (Machine.run HotRefreshBackpressure.step (create options now) es).stopped = false) :
    let s := Machine.run HotRefreshBackpressure.step (create options now) es
    (∀ k l, s.lanes.get k = some l → 0 < (s.lane l).pendingEvents.size →
      (s.lane l).running = true ∨
      (∃ id t, (s.lane l).timer = some id ∧ s.timers.get id = some t ∧ t.lane = l) ∨
      ∃ r, s.readyLanes.get k = some r ∧ r.lane = l) ∧
    (0 < s.readyLanes.size → s.activePassCount = s.options.maxConcurrentPasses) ∧
    (∀ k l, s.lanes.get k = some l → ¬ ((s.lane l).running = true ∧ (s.lane l).timer.isSome = true)) ∧
    s.activePassCount = (s.lanes.entries.filter fun e => (s.lane e.2).running).length ∧
    ∀ kind,
      (∀ r, r ∈ (s.pendingEventsByLaneKind kind).heap ↔
        s.lanes.get r.laneKey = some r.lane ∧ (s.lane r.lane).kind = kind ∧
          (s.lane r.lane).pendingEvents.get r.signature = some r.pending) ∧
      ((s.pendingEventsByLaneKind kind).heap.map (·.pending)).Nodup ∧
      (s.stateByLaneKind kind).pendingEvents = (s.pendingEventsByLaneKind kind).heap.length ∧
      (s.stateByLaneKind kind).pendingEvents ≤ s.getMaxPendingSignatures kind := by
  intro s
  obtain ⟨hworking, hroom⟩ := (SchedulerInv.run options now es).going hgoing
  refine ⟨fun k l hl hpending => ?_, fun hready => ?_, fun k l hl hboth => ?_, hworking.activePassCount_eq,
    fun kind => ⟨fun r => ?_, ?_, hworking.counts kind, ?_⟩⟩
  · rcases hworking.scheduled k l hl hpending with hrunning | htimer | ⟨r, hr⟩
    · exact .inl hrunning
    · obtain ⟨id, hid⟩ := Option.isSome_iff_exists.mp htimer
      obtain ⟨t, ht, htl⟩ := hworking.timers.armed k l id hl hid
      exact .inr (.inl ⟨id, t, hid, ht, htl⟩)
    · have hlane := hworking.ready k r hr
      rw [hl] at hlane
      exact .inr (.inr ⟨r, hr, (Option.some.inj hlane).symm⟩)
  · obtain ⟨e, he⟩ := List.exists_mem_of_length_pos hready
    have hfull := hroom e.1 e.2 (OrderedMap.mem_entries.mp he)
    exact Nat.le_antisymm hworking.capacity hfull
  · have hnone := (hworking.exclusive k l hl hboth.1).1
    rw [hnone] at hboth
    cases hboth.2
  · rw [hworking.queue.mem kind r]
    refine and_congr_right fun hl => ?_
    rw [← hworking.lanes.kind r.laneKey r.lane hl]
  · exact (hworking.queue.indexed kind).nodup
  · rw [hworking.counts kind]
    exact hworking.bounded kind

/-- A scheduler with room for one pass, and events of two collections. -/
def oneByOne : HotRefreshBackpressureOptions :=
  ⟨100, 2, 10, 2, 1, by decide, Nat.two_pos, Nat.succ_pos (nat_lit 9), Nat.two_pos, Nat.one_pos⟩

def twoCollections : List HotRefreshEvent :=
  [.event ⟨.collection, "a", "", [], 5, 1⟩ 0, .event ⟨.collection, "b", "", [], 7, 1⟩ 0]

theorem second_collection_waits :
    let s := Machine.run HotRefreshBackpressure.step (create oneByOne 0) twoCollections
    0 < s.readyLanes.size ∧ s.activePassCount = s.options.maxConcurrentPasses :=
  ⟨by decide +kernel,
    (hot_refresh_no_lost_wakeup oneByOne 0 twoCollections (by decide +kernel)).2.1 (by decide +kernel)⟩

/-- **Cooldowns separate passes.**  In every run, no pass of a lane key starts before the deadline that the
last pass of the key set, unless the bound of the retained cooldowns made the scheduler forget it; and
expiring retained cooldowns never takes away one that is still to come. -/
theorem hot_refresh_cooldown_separation (options : HotRefreshBackpressureOptions) (now : Nat)
    (es : List HotRefreshEvent) :
    let s := Machine.run HotRefreshBackpressure.step (create options now) es
    (∀ start ∈ s.starts, ∀ d, start.deadline = some d → d ≤ start.at') ∧
    ∀ kind kind' k d, (s.cooldownLaneDeadlinesByKind kind').get k = some d → s.now < d →
      ((s.step (.cleanup kind)).cooldownLaneDeadlinesByKind kind').get k = some d := by
  intro s
  refine ⟨(SchedulerInv.run options now es).starts, fun kind kind' k d hd hlater => ?_⟩
  exact retained_of_cleanup hd hlater kind

end Artgod.Trading
