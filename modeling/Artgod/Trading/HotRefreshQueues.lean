/-
# The priority queues of the hot-refresh scheduler

The queue of a kind is a heap by unit price with the position of every pending event.  In the scheduler the
events are shared objects, so that prices change under the queue: its order is followed through every operation,
most of which only take events out (`Shrunk`).
-/
import Artgod.Store.HeapOrder
import Artgod.Trading.HotRefreshRuns

namespace Artgod.Trading

open Store Js HotRefreshBackpressure
open Function (update_of_ne update_self)

/-! ## 1. The priority queue -/

/-- The price that a reference stands for. -/
def priceIn (pending : Nat → PendingHotRefreshEvent) (r : PendingEventReference) : Int :=
  (pending r.pending).event.getUnitPrice

/-- A queue is in order at the prices of now: the positions are exact, no reference is weaker than its
parent, and every pending event in it has been made. -/
structure QueueSorted (pending : Nat → PendingHotRefreshEvent) (next : Nat)
    (q : IndexedHeap PendingEventReference Nat) : Prop where
  indexed : IndexedHeap.Indexed PendingEventReference.pending q
  ordered : IndexedHeap.Ordered (priceIn pending) q.heap
  bound : ∀ r ∈ q.heap, r.pending < next

section Queue

variable {pending : Nat → PendingHotRefreshEvent} {next : Nat} {q : IndexedHeap PendingEventReference Nat}

theorem queueSorted_empty : QueueSorted pending next ⟨[], fun _ => none⟩ :=
  ⟨IndexedHeap.indexed_empty, IndexedHeap.ordered_nil, fun _ hr => nomatch hr⟩

variable {p : Nat} {r : PendingEventReference}

theorem QueueSorted.remove_absent (h : QueueSorted pending next q) (habsent : ∀ r ∈ q.heap, r.pending ≠ p) :
    q.remove PendingEventReference.pending (IndexedHeap.weakerBy (priceIn pending)) p = q := by
  unfold IndexedHeap.remove
  rw [h.indexed.index_none.mpr habsent]

theorem QueueSorted.remove (h : QueueSorted pending next q) (p : Nat) : QueueSorted pending next
      (q.remove PendingEventReference.pending (IndexedHeap.weakerBy (priceIn pending)) p) := by
  by_cases hmem : ∃ r ∈ q.heap, r.pending = p
  · obtain ⟨r, hr, rfl⟩ := hmem
    obtain ⟨hindexed, -, hrest⟩ := h.indexed.remove (IndexedHeap.weakerBy (priceIn pending)) hr
    exact ⟨hindexed, h.ordered.remove h.indexed hr, fun r' hr' => h.bound r' ((hrest r').mp hr').1⟩
  · rw [h.remove_absent fun r hr heq => hmem ⟨r, hr, heq⟩]
    exact h

theorem QueueSorted.mem_of_remove (h : QueueSorted pending next q)
    (hr : r ∈ (q.remove PendingEventReference.pending (IndexedHeap.weakerBy (priceIn pending)) p).heap) :
    r ∈ q.heap ∧ r.pending ≠ p := by
  by_cases hmem : ∃ a ∈ q.heap, a.pending = p
  · obtain ⟨a, ha, rfl⟩ := hmem
    obtain ⟨-, -, hrest⟩ := h.indexed.remove (IndexedHeap.weakerBy (priceIn pending)) ha
    obtain ⟨hr, hne⟩ := (hrest r).mp hr
    exact ⟨hr, fun heq => hne (h.indexed.eq_of_key_eq hr ha heq)⟩
  · rw [h.remove_absent fun a ha heq => hmem ⟨a, ha, heq⟩] at hr
    exact ⟨hr, fun heq => hmem ⟨r, hr, heq⟩⟩

theorem QueueSorted.removeAll (ps : List Nat) {q : IndexedHeap PendingEventReference Nat}
    (h : QueueSorted pending next q) : QueueSorted pending next (ps.foldl (fun q p =>
        q.remove PendingEventReference.pending (IndexedHeap.weakerBy (priceIn pending)) p) q) := by
  induction ps generalizing q with
  | nil => exact h
  | cons p rest ih => exact ih (h.remove p)

theorem QueueSorted.mem_of_removeAll (ps : List Nat) {q : IndexedHeap PendingEventReference Nat}
    (h : QueueSorted pending next q)
    (hr : r ∈ (ps.foldl (fun q p =>
      q.remove PendingEventReference.pending (IndexedHeap.weakerBy (priceIn pending)) p) q).heap) :
    r ∈ q.heap ∧ r.pending ∉ ps := by
  induction ps generalizing q with
  | nil => exact ⟨hr, List.not_mem_nil⟩
  | cons p rest ih =>
    obtain ⟨hrest, hnot⟩ := ih (h.remove p) hr
    obtain ⟨hmem, hne⟩ := h.mem_of_remove hrest
    exact ⟨hmem, List.not_mem_cons_of_ne_of_not_mem hne hnot⟩

theorem QueueSorted.update (h : QueueSorted pending next q) (p : Nat) (new : PendingHotRefreshEvent) :
    QueueSorted (Function.update pending p new) next (q.update PendingEventReference.pending
        (IndexedHeap.weakerBy (priceIn (Function.update pending p new))) p) := by
  have hrearranged := h.indexed.update (IndexedHeap.weakerBy (priceIn (Function.update pending p new))) p
  refine ⟨hrearranged.indexed, h.ordered.update h.indexed fun r _ hne => ?_,
    fun r hr => h.bound r ((hrearranged.mem r).mp hr)⟩
  rw [priceIn, update_of_ne hne, priceIn]

theorem QueueSorted.add (h : QueueSorted pending next q) (new : PendingHotRefreshEvent)
    (laneKey : String) (lane : Nat) (signature : String) :
    QueueSorted (Function.update pending next new) (next + 1) (q.add PendingEventReference.pending
        (IndexedHeap.weakerBy (priceIn (Function.update pending next new))) ⟨laneKey, lane, signature, next⟩) := by
  have hfresh : q.index next = none := h.indexed.index_none.mpr fun r hr => Nat.ne_of_lt (h.bound r hr)
  obtain ⟨hindexed, -, hmem⟩ := @IndexedHeap.Indexed.add _ _ _ _ _
    (IndexedHeap.weakerBy (priceIn (Function.update pending next new))) h.indexed
    ⟨laneKey, lane, signature, next⟩ hfresh
  have hprices : ∀ r ∈ q.heap, priceIn (Function.update pending next new) r = priceIn pending r := by
    intro r hr
    rw [priceIn, update_of_ne (Nat.ne_of_lt (h.bound r hr)), priceIn]
  refine ⟨hindexed, (h.ordered.congr hprices).add _, fun r hr => ?_⟩
  rcases (hmem r).mp hr with hr | rfl
  · exact Nat.lt_succ_of_lt (h.bound r hr)
  · exact Nat.lt_succ_self _

end Queue

/-- What is done to the queue: an event is added under a new pending object, the event of a pending object
is replaced and the queue told so, a pending object is taken out. -/
inductive QueueOp
  | add (laneKey : String) (lane : Nat) (signature : String) (event : MarketEvent)
  | update (pending : Nat) (event : MarketEvent)
  | remove (pending : Nat)

/-- `PendingEventPriorityQueue` with the pending objects that it compares. -/
structure PendingQueue where
  queue : IndexedHeap PendingEventReference Nat
  pending : Nat → PendingHotRefreshEvent
  next : Nat

namespace PendingQueue

def create (pending : Nat → PendingHotRefreshEvent) : PendingQueue := ⟨⟨[], fun _ => none⟩, pending, 0⟩

def step (s : PendingQueue) : QueueOp → PendingQueue
  | .add laneKey lane signature event =>
    let pending := Function.update s.pending s.next ⟨event, 1⟩
    ⟨s.queue.add PendingEventReference.pending (IndexedHeap.weakerBy (priceIn pending))
      ⟨laneKey, lane, signature, s.next⟩, pending, s.next + 1⟩
  | .update p event =>
    let pending := Function.update s.pending p ⟨event, (s.pending p).signalCount + 1⟩
    { s with
      queue := s.queue.update PendingEventReference.pending (IndexedHeap.weakerBy (priceIn pending)) p
      pending := pending }
  | .remove p =>
    { s with
      queue := s.queue.remove PendingEventReference.pending (IndexedHeap.weakerBy (priceIn s.pending)) p }

theorem sorted_step {s : PendingQueue} (h : QueueSorted s.pending s.next s.queue) (op : QueueOp) :
    QueueSorted (s.step op).pending (s.step op).next (s.step op).queue := by
  cases op with
  | add laneKey lane signature event => exact h.add _ laneKey lane signature
  | update p event => exact h.update p _
  | remove p => exact h.remove p

theorem sorted_run (pending : Nat → PendingHotRefreshEvent) (ops : List QueueOp) :
    QueueSorted (Machine.run step (create pending) ops).pending (Machine.run step (create pending) ops).next
      (Machine.run step (create pending) ops).queue :=
  @Machine.run_invariant _ _ step (fun s => QueueSorted s.pending s.next s.queue)
    (fun _ op h => sorted_step h op) _ queueSorted_empty ops

end PendingQueue

/-! ## 2. The queues of the scheduler -/

/-- Both queues are in order, and no pending object is in both. -/
structure Sorted (s : HotRefreshBackpressure) : Prop where
  queues : ∀ kind, QueueSorted s.pending s.nextPending (s.pendingEventsByLaneKind kind)
  apart : ∀ kind kind' r r', r ∈ (s.pendingEventsByLaneKind kind).heap →
    r' ∈ (s.pendingEventsByLaneKind kind').heap → r.pending = r'.pending → kind = kind'

/-- What leaves the queues and the pending objects alone, and stops nothing. -/
structure SameQueues (s s' : HotRefreshBackpressure) : Prop where
  queues : s'.pendingEventsByLaneKind = s.pendingEventsByLaneKind
  pending : s'.pending = s.pending
  next : s'.nextPending = s.nextPending
  stopped : s'.stopped = s.stopped

theorem SameQueues.refl (s : HotRefreshBackpressure) : SameQueues s s := ⟨rfl, rfl, rfl, rfl⟩

variable {s s' s'' : HotRefreshBackpressure} {l : Nat}

theorem SameQueues.trans (h : SameQueues s s') (h' : SameQueues s' s'') : SameQueues s s'' :=
  ⟨h'.queues.trans h.queues, h'.pending.trans h.pending, h'.next.trans h.next, h'.stopped.trans h.stopped⟩

theorem Sorted.same (hs : Sorted s) (h : SameQueues s s') : Sorted s' := by
  refine ⟨fun kind => ?_, fun kind kind' r r' hr hr' heq => ?_⟩
  · rw [h.queues, h.pending, h.next]
    exact hs.queues kind
  · rw [h.queues] at hr hr'
    exact hs.apart kind kind' r r' hr hr' heq

/-- What also starts no pass and leaves the settings alone. -/
structure Quiet (s s' : HotRefreshBackpressure) : Prop extends SameQueues s s' where
  options : s'.options = s.options
  starts : s'.starts = s.starts

theorem Quiet.refl (s : HotRefreshBackpressure) : Quiet s s := ⟨.refl s, rfl, rfl⟩

theorem Quiet.trans (h : Quiet s s') (h' : Quiet s' s'') : Quiet s s'' :=
  ⟨h.toSameQueues.trans h'.toSameQueues, h'.options.trans h.options, h'.starts.trans h.starts⟩

theorem quiet_scheduleRetainedCooldownCleanup (s : HotRefreshBackpressure) (kind : HotRefreshLaneKind) :
    Quiet s (s.scheduleRetainedCooldownCleanup kind) := by
  unfold scheduleRetainedCooldownCleanup
  split
  · exact .refl s
  split
  · exact .refl s
  · exact ⟨⟨rfl, rfl, rfl, rfl⟩, rfl, rfl⟩

theorem quiet_forgetOldestCooldowns (kind : HotRefreshLaneKind) (n : Nat) (s : HotRefreshBackpressure) :
    Quiet s (forgetOldestCooldowns kind n s) := by
  induction n generalizing s with
  | zero => exact .refl s
  | succ n ih =>
    unfold forgetOldestCooldowns
    split
    · split
      · exact .refl s
      · refine Quiet.trans ?_ (ih _)
        exact ⟨⟨rfl, rfl, rfl, rfl⟩, rfl, rfl⟩
    · exact .refl s

theorem quiet_retainLaneCooldown (s : HotRefreshBackpressure) (k : String) (l : Nat) :
    Quiet s (s.retainLaneCooldown k l) := by
  unfold retainLaneCooldown
  split
  · exact .refl s
  · refine Quiet.trans ?_ (quiet_scheduleRetainedCooldownCleanup _ _)
    refine Quiet.trans ?_ (quiet_forgetOldestCooldowns _ _ _)
    exact ⟨⟨rfl, rfl, rfl, rfl⟩, rfl, rfl⟩

theorem quiet_removeLaneIfIdle (s : HotRefreshBackpressure) (k : String) (l : Nat) :
    Quiet s (s.removeLaneIfIdle k l) := by
  unfold removeLaneIfIdle
  split
  · exact .refl s
  split
  · exact quiet_retainLaneCooldown s k l
  · exact ⟨⟨rfl, rfl, rfl, rfl⟩, rfl, rfl⟩

theorem quiet_releaseLane (s : HotRefreshBackpressure) (k : String) (l : Nat) :
    Quiet s (s.releaseLane k l) := by
  unfold releaseLane
  split
  · exact quiet_removeLaneIfIdle s k l
  split
  · refine Quiet.trans ?_ (quiet_removeLaneIfIdle _ k l)
    exact ⟨⟨rfl, rfl, rfl, rfl⟩, rfl, rfl⟩
  · exact quiet_removeLaneIfIdle s k l

theorem quiet_takeRetainedCooldown (s : HotRefreshBackpressure) (kind : HotRefreshLaneKind) (k : String) :
    Quiet s (s.takeRetainedCooldown kind k).2 := by
  unfold takeRetainedCooldown
  split
  · exact .refl s
  dsimp only
  split
  · exact ⟨⟨rfl, rfl, rfl, rfl⟩, rfl, rfl⟩
  · exact ⟨⟨rfl, rfl, rfl, rfl⟩, rfl, rfl⟩

theorem quiet_getLane (s : HotRefreshBackpressure) (event : MarketEvent) : Quiet s (s.getLane event).2 := by
  have htake := quiet_takeRetainedCooldown s (laneKind event) (createLaneKey event)
  unfold getLane
  dsimp only
  split
  · exact .refl s
  split
  · exact htake.trans ⟨⟨rfl, rfl, rfl, rfl⟩, rfl, rfl⟩
  · exact htake.trans ⟨⟨rfl, rfl, rfl, rfl⟩, rfl, rfl⟩

/-- The queues are in order, and have only lost some of what they held. -/
structure Shrunk (s s' : HotRefreshBackpressure) : Prop where
  sorted : Sorted s'
  pending : s'.pending = s.pending
  stopped : s'.stopped = s.stopped
  fewer : ∀ kind r, r ∈ (s'.pendingEventsByLaneKind kind).heap → r ∈ (s.pendingEventsByLaneKind kind).heap

theorem Sorted.shrunk (hs : Sorted s) (h : SameQueues s s') : Shrunk s s' :=
  ⟨hs.same h, h.pending, h.stopped, fun kind r hr => by rw [h.queues] at hr; exact hr⟩

theorem Sorted.unchanged (hs : Sorted s) : Shrunk s s := hs.shrunk (.refl s)

theorem Shrunk.trans (h : Shrunk s s') (h' : Shrunk s' s'') : Shrunk s s'' :=
  ⟨h'.sorted, h'.pending.trans h.pending, h'.stopped.trans h.stopped,
    fun kind r hr => h.fewer kind r (h'.fewer kind r hr)⟩

theorem Shrunk.same (h : Shrunk s s') (h' : SameQueues s' s'') :
    Shrunk s s'' := h.trans (h.sorted.shrunk h')

variable {kind : HotRefreshLaneKind} {p : Nat} {event : MarketEvent} {k : String}

theorem Sorted.shrink (hs : Sorted s) {q : IndexedHeap PendingEventReference Nat}
    (hqueues : s'.pendingEventsByLaneKind = Function.update s.pendingEventsByLaneKind kind q)
    (hpending : s'.pending = s.pending) (hnext : s'.nextPending = s.nextPending)
    (hstopped : s'.stopped = s.stopped) (hq : QueueSorted s.pending s.nextPending q)
    (hfewer : ∀ r ∈ q.heap, r ∈ (s.pendingEventsByLaneKind kind).heap) : Shrunk s s' := by
  have hkept : ∀ kind' r, r ∈ (s'.pendingEventsByLaneKind kind').heap →
      r ∈ (s.pendingEventsByLaneKind kind').heap := by
    intro kind' r hr
    rw [hqueues] at hr
    by_cases hk : kind' = kind
    · rw [hk, update_self] at hr
      exact hk ▸ hfewer r hr
    · rw [update_of_ne hk] at hr
      exact hr
  refine ⟨⟨fun kind' => ?_, fun a b r r' hr hr' heq => ?_⟩, hpending, hstopped, hkept⟩
  · rw [hqueues, hpending, hnext]
    by_cases hk : kind' = kind
    · rw [hk, update_self]
      exact hq
    · rw [update_of_ne hk]
      exact hs.queues kind'
  · exact hs.apart a b r r' (hkept a r hr) (hkept b r' hr') heq

theorem Sorted.clearLanePending (hs : Sorted s) (l : Nat) : Shrunk s (s.clearLanePending l) :=
  hs.shrink rfl rfl rfl rfl ((hs.queues _).removeAll _) fun _ hr =>
    ((hs.queues _).mem_of_removeAll _ hr).1

theorem Sorted.takeOutPending (hs : Sorted s) (kind : HotRefreshLaneKind)
    (r : PendingEventReference) : Shrunk s (s.takeOutPending kind r) :=
  hs.shrink rfl rfl rfl rfl ((hs.queues _).remove _) fun _ hr =>
    ((hs.queues _).mem_of_remove hr).1

theorem Sorted.coalesce (hs : Sorted s)
    {held : PendingEventReference} (hheld : held ∈ (s.pendingEventsByLaneKind (s.lane l).kind).heap)
    (hp : held.pending = p) : Sorted (s.coalesce l p event) := by
  have hself : (s.coalesce l p event).pendingEventsByLaneKind (s.lane l).kind = _ := update_self ..
  have hother : ∀ kind, kind ≠ (s.lane l).kind →
      (s.coalesce l p event).pendingEventsByLaneKind kind = s.pendingEventsByLaneKind kind :=
    fun kind hk => update_of_ne hk ..
  have hupdated := (hs.queues (s.lane l).kind).update p
    ⟨selectConservativeEvent (s.pending p).event event, (s.pending p).signalCount + 1⟩
  have hmem : ∀ kind r, r ∈ ((s.coalesce l p event).pendingEventsByLaneKind kind).heap →
      r ∈ (s.pendingEventsByLaneKind kind).heap := by
    intro kind r hr
    by_cases hk : kind = (s.lane l).kind
    · subst hk
      rw [hself] at hr
      exact (((hs.queues (s.lane l).kind).indexed.update _ p).mem r).mp hr
    · rw [hother kind hk] at hr
      exact hr
  refine ⟨fun kind => ?_, fun a b r r' hr hr' heq => hs.apart a b r r' (hmem a r hr) (hmem b r' hr') heq⟩
  by_cases hk : kind = (s.lane l).kind
  · subst hk
    rw [hself]
    exact hupdated
  rw [hother kind hk]
  refine ⟨(hs.queues kind).indexed, (hs.queues kind).ordered.congr fun r hr => ?_, (hs.queues kind).bound⟩
  have hne : r.pending ≠ p := fun heq => hk (hs.apart _ _ _ _ hr hheld (heq.trans hp.symm))
  show (Function.update s.pending p _ r.pending).event.getUnitPrice = _
  rw [update_of_ne hne]
  rfl

theorem Sorted.addPending (hs : Sorted s) (k : String) (l : Nat)
    (signature : String) (event : MarketEvent) : Sorted (s.addPending k l signature event) := by
  have hself : (s.addPending k l signature event).pendingEventsByLaneKind (s.lane l).kind = _ :=
    update_self ..
  have hother : ∀ kind, kind ≠ (s.lane l).kind →
      (s.addPending k l signature event).pendingEventsByLaneKind kind = s.pendingEventsByLaneKind kind :=
    fun kind hk => update_of_ne hk ..
  have hfresh : (s.pendingEventsByLaneKind (s.lane l).kind).index s.nextPending = none :=
    (hs.queues _).indexed.index_none.mpr fun r hr => Nat.ne_of_lt ((hs.queues _).bound r hr)
  -- what is in a queue was in it, or is the new object in the queue of the lane
  have hmem : ∀ kind r, r ∈ ((s.addPending k l signature event).pendingEventsByLaneKind kind).heap →
      r ∈ (s.pendingEventsByLaneKind kind).heap ∨ kind = (s.lane l).kind ∧ r.pending = s.nextPending := by
    intro kind r hr
    by_cases hk : kind = (s.lane l).kind
    · subst hk
      rw [hself] at hr
      obtain ⟨-, -, hadded⟩ := @IndexedHeap.Indexed.add _ _ _ _ _ _ (hs.queues (s.lane l).kind).indexed
        ⟨k, l, signature, s.nextPending⟩ hfresh
      exact ((hadded r).mp hr).imp id fun heq => ⟨rfl, congrArg PendingEventReference.pending heq⟩
    · rw [hother kind hk] at hr
      exact .inl hr
  refine ⟨fun kind => ?_, fun a b r r' hr hr' heq => ?_⟩
  · by_cases hk : kind = (s.lane l).kind
    · subst hk
      rw [hself]
      exact (hs.queues (s.lane l).kind).add ⟨event, 1⟩ k l signature
    rw [hother kind hk]
    refine ⟨(hs.queues kind).indexed, (hs.queues kind).ordered.congr fun r hr => ?_,
      fun r hr => Nat.lt_succ_of_lt ((hs.queues kind).bound r hr)⟩
    show (Function.update s.pending s.nextPending _ r.pending).event.getUnitPrice = _
    rw [update_of_ne (Nat.ne_of_lt ((hs.queues kind).bound r hr))]
    rfl
  · rcases hmem a r hr with hr | ⟨ha, hr⟩ <;> rcases hmem b r' hr' with hr' | ⟨hb, hr'⟩
    · exact hs.apart a b r r' hr hr' heq
    · exact absurd (heq.trans hr') (Nat.ne_of_lt ((hs.queues a).bound r hr))
    · exact absurd (heq.symm.trans hr) (Nat.ne_of_lt ((hs.queues b).bound r' hr'))
    · exact ha.trans hb.symm

theorem Sorted.startLane (hs : Sorted s) (k : String) (l callback : Nat) :
    Shrunk s (s.startLane k l callback) := by
  unfold HotRefreshBackpressure.startLane
  split
  · exact hs.unchanged
  split
  · exact hs.unchanged
  split
  · exact hs.shrunk ⟨rfl, rfl, rfl, rfl⟩
  · have hready : Shrunk s { s with readyLanes := s.readyLanes.delete k } := hs.shrunk ⟨rfl, rfl, rfl, rfl⟩
    exact (hready.trans (hready.sorted.clearLanePending l)).same ⟨rfl, rfl, rfl, rfl⟩

theorem Sorted.wakeLane (hs : Sorted s) (k : String) (l callback : Nat) :
    Shrunk s (s.wakeLane k l callback) := by
  unfold HotRefreshBackpressure.wakeLane
  split
  · exact hs.unchanged
  split
  · exact hs.shrunk ⟨rfl, rfl, rfl, rfl⟩
  · exact hs.startLane k l callback

theorem Sorted.startReadyLanes (n : Nat) (hs : Sorted s) : Shrunk s (startReadyLanes n s) := by
  induction n generalizing s with
  | zero => exact hs.unchanged
  | succ n ih =>
    unfold HotRefreshBackpressure.startReadyLanes
    split
    · exact hs.unchanged
    split
    · exact hs.unchanged
    next k ready _ =>
    have hdeleted : Shrunk s { s with readyLanes := s.readyLanes.delete k } := hs.shrunk ⟨rfl, rfl, rfl, rfl⟩
    dsimp only
    split
    · have hremoved := hdeleted.same (quiet_removeLaneIfIdle _ k ready.lane).toSameQueues
      exact hremoved.trans (ih hremoved.sorted)
    · have hstarted := hdeleted.trans (hdeleted.sorted.startLane k ready.lane ready.callback)
      exact hstarted.trans (ih hstarted.sorted)

theorem Sorted.fireTimer (hs : Sorted s) (timer : LaneTimer) : Shrunk s (s.fireTimer timer) := by
  have hunset : Shrunk s (s.updateLane timer.lane fun lane => { lane with timer := none }) :=
    hs.shrunk ⟨rfl, rfl, rfl, rfl⟩
  unfold HotRefreshBackpressure.fireTimer
  dsimp only
  split
  · exact hunset
  split
  · exact hunset.trans (hunset.sorted.startLane _ _ _)
  · exact hunset.same (quiet_removeLaneIfIdle _ _ _).toSameQueues

theorem Sorted.finishPass (hs : Sorted s) (id : Nat) (pass : HotRefreshPass) :
    Shrunk s (s.finishPass id pass) := by
  have hreleased : Shrunk s (s.releasePass id pass) := hs.shrunk ⟨rfl, rfl, rfl, rfl⟩
  unfold HotRefreshBackpressure.finishPass
  dsimp only
  split
  · exact (hreleased.trans (hreleased.sorted.clearLanePending _)).same ⟨rfl, rfl, rfl, rfl⟩
  obtain ⟨cooled, hcooled⟩ : ∃ cooled, (s.releasePass id pass).coolDown pass
      ((s.releasePass id pass).now + s.getCooldownMs (s.lane pass.lane).kind) = cooled := ⟨_, rfl⟩
  have hcool : Shrunk s cooled := hcooled ▸ hreleased.same ⟨rfl, rfl, rfl, rfl⟩
  rw [hcooled]
  split
  · have hscheduled : Shrunk s (cooled.scheduleLane pass.laneKey pass.lane pass.callback
      (s.getCooldownMs (s.lane pass.lane).kind)) := hcool.same ⟨rfl, rfl, rfl, rfl⟩
    exact hscheduled.trans (hscheduled.sorted.startReadyLanes _)
  · have hretained := hcool.same (quiet_retainLaneCooldown cooled pass.laneKey pass.lane).toSameQueues
    exact hretained.trans (hretained.sorted.startReadyLanes _)

theorem Sorted.stopLane (hs : Sorted s) (l : Nat) : Shrunk s (s.stopLane l) := by
  unfold HotRefreshBackpressure.stopLane
  dsimp only
  split
  · have hunset : Shrunk s (s.updateLane l fun lane => { lane with timer := none }) :=
      hs.shrunk ⟨rfl, rfl, rfl, rfl⟩
    exact hunset.trans (hunset.sorted.clearLanePending l)
  next timer _ =>
  have hunset : Shrunk s ({ s with timers := s.timers.delete timer }.updateLane l fun lane =>
    { lane with timer := none }) := hs.shrunk ⟨rfl, rfl, rfl, rfl⟩
  exact hunset.trans (hunset.sorted.clearLanePending l)

theorem Sorted.stopLanes (ls : List Nat) (hs : Sorted s) :
    Shrunk s (ls.foldl HotRefreshBackpressure.stopLane s) := by
  induction ls generalizing s with
  | nil => exact hs.unchanged
  | cons l rest ih =>
    have hstopped := hs.stopLane l
    exact hstopped.trans (ih hstopped.sorted)

theorem Sorted.stopping (hs : Sorted s) :
    Sorted { s with stopped := true, readyLanes := .empty }.clearRetainedCooldownLanes :=
  ⟨hs.queues, hs.apart⟩

theorem Sorted.stop (hs : Sorted s) :
    Sorted s.stop ∧ ∀ kind r, r ∈ (s.stop.pendingEventsByLaneKind kind).heap →
      r ∈ (s.pendingEventsByLaneKind kind).heap := by
  have hstopped := hs.stopping.stopLanes s.lanes.values
  exact ⟨hstopped.sorted, hstopped.fewer⟩

theorem shrunk_stopped (s : HotRefreshBackpressure) : Shrunk s s.stopped' :=
  ⟨⟨fun _ => queueSorted_empty, fun _ _ _ _ hr => nomatch hr⟩, rfl, rfl, fun _ _ hr => nomatch hr⟩

theorem Sorted.expireRetainedCooldowns (hs : Sorted s)
    (kind : HotRefreshLaneKind) : Shrunk s (s.expireRetainedCooldowns kind) := by
  unfold HotRefreshBackpressure.expireRetainedCooldowns
  dsimp only
  refine hs.shrunk (SameQueues.trans ?_ (quiet_scheduleRetainedCooldownCleanup _ kind).toSameQueues)
  exact ⟨rfl, rfl, rfl, rfl⟩

theorem Sorted.reserve (hs : Sorted s)
    (h : s.reservePendingSignature kind k event = some s') : Sorted s' := by
  unfold HotRefreshBackpressure.reservePendingSignature at h
  split at h
  · cases h
    exact hs
  split at h
  · cases h
  next weakest _ =>
  split at h
  · cases h
  cases h
  unfold HotRefreshBackpressure.evictWeakest
  split
  · exact (hs.takeOutPending kind weakest).sorted
  · exact (hs.takeOutPending kind weakest).sorted.same (quiet_releaseLane _ _ _).toSameQueues

theorem LaneInv.mem_of_pending (h : LaneInv s)
    {signature : String} (hl : s.lanes.get k = some l) (hp : (s.lane l).pendingEvents.get signature = some p) :
    ⟨k, l, signature, p⟩ ∈ (s.pendingEventsByLaneKind (s.lane l).kind).heap :=
  (h.queue.mem _ _).mpr ⟨hl, (h.lanes.kind k l hl).symm, hp⟩

theorem Sorted.queueEvent (hs : Sorted s) (h : LaneInv s) (event : MarketEvent)
    (callback : Nat) : Sorted (s.queueEvent event callback) := by
  unfold HotRefreshBackpressure.queueEvent
  split
  · exact hs
  dsimp only
  split
  · next l hl =>
    split
    · next p hp =>
      have hjoined : Sorted (s.coalesce l p event) := hs.coalesce (h.mem_of_pending hl hp) rfl
      have hcounted : Sorted ((s.coalesce l p event).countSignal l) := hjoined.same ⟨rfl, rfl, rfl, rfl⟩
      exact (hcounted.wakeLane _ l callback).sorted
    · split
      · exact hs
      next s' hreserve =>
      have hadded := (hs.reserve hreserve).addPending (createLaneKey event) l (createEventSignature event) event
      have hcounted : Sorted ((s'.addPending (createLaneKey event) l (createEventSignature event)
        event).countSignal l) := hadded.same ⟨rfl, rfl, rfl, rfl⟩
      exact (hcounted.wakeLane _ l callback).sorted
  · split
    · exact hs
    next s' hreserve =>
    have hmade : Sorted (s'.getLane event).2 := (hs.reserve hreserve).same (quiet_getLane s' event).toSameQueues
    have hadded := hmade.addPending (createLaneKey event) (s'.getLane event).1 (createEventSignature event)
      event
    have hcounted : Sorted (((s'.getLane event).2.addPending (createLaneKey event) (s'.getLane event).1
      (createEventSignature event) event).countSignal (s'.getLane event).1) := hadded.same ⟨rfl, rfl, rfl, rfl⟩
    exact (hcounted.wakeLane _ _ callback).sorted

/-! ## 3. Every state of every run -/

theorem Sorted.step_shrunk (hs : Sorted s) {e : HotRefreshEvent}
    (he : ∀ event callback, e ≠ .event event callback) (hstop : e ≠ .stop) : Shrunk s (s.step e) := by
  cases e with
  | event event callback => exact absurd rfl (he event callback)
  | elapse ms => exact hs.shrunk ⟨rfl, rfl, rfl, rfl⟩
  | timer id =>
    simp only [HotRefreshBackpressure.step]
    split
    · exact hs.unchanged
    split
    · have hdeleted : Shrunk s { s with timers := s.timers.delete id } := hs.shrunk ⟨rfl, rfl, rfl, rfl⟩
      exact hdeleted.trans (hdeleted.sorted.fireTimer _)
    · exact hs.unchanged
  | cleanup kind =>
    simp only [HotRefreshBackpressure.step]
    split
    · exact hs.unchanged
    split
    · have hunset : Shrunk s { s with
          cooldownCleanupTimersByKind := Function.update s.cooldownCleanupTimersByKind kind none } :=
        hs.shrunk ⟨rfl, rfl, rfl, rfl⟩
      exact hunset.trans (hunset.sorted.expireRetainedCooldowns kind)
    · exact hs.unchanged
  | passSettled id succeeded =>
    simp only [HotRefreshBackpressure.step]
    split
    · exact hs.unchanged
    · exact hs.finishPass id _
  | stop => exact absurd rfl hstop
  | stopSettled =>
    simp only [HotRefreshBackpressure.step]
    split
    · exact shrunk_stopped s
    · exact hs.unchanged

/-- What is left in the queues is pending in one of these lanes, and known to it. -/
def Emptying (ls : List Nat) (s : HotRefreshBackpressure) : Prop :=
  ∀ kind r, r ∈ (s.pendingEventsByLaneKind kind).heap → r.lane ∈ ls ∧ (s.lane r.lane).kind = kind ∧
    (s.lane r.lane).pendingEvents.get r.signature = some r.pending

theorem Emptying.stopLane {rest : List Nat} (hs : Sorted s)
    (h : Emptying (l :: rest) s) : Emptying rest (s.stopLane l) := by
  obtain ⟨s₁, hs₁, hstop⟩ : ∃ s₁, Quiet s s₁ ∧ (∀ l', (s₁.lane l').kind = (s.lane l').kind ∧
      (s₁.lane l').pendingEvents = (s.lane l').pendingEvents) ∧ s.stopLane l = s₁.clearLanePending l := by
    unfold HotRefreshBackpressure.stopLane
    dsimp only
    split
    · refine ⟨_, ?_, fun l' => ?_, rfl⟩
      · exact ⟨⟨rfl, rfl, rfl, rfl⟩, rfl, rfl⟩
      · exact ⟨congrFun (read_update_same HotRefreshLane.kind (by rfl)) l',
          congrFun (read_update_same HotRefreshLane.pendingEvents (by rfl)) l'⟩
    · refine ⟨_, ?_, fun l' => ?_, rfl⟩
      · exact ⟨⟨rfl, rfl, rfl, rfl⟩, rfl, rfl⟩
      · exact ⟨congrFun (read_update_same HotRefreshLane.kind (by rfl)) l',
          congrFun (read_update_same HotRefreshLane.pendingEvents (by rfl)) l'⟩
  obtain ⟨hlanes, hstop⟩ := hstop
  have hsorted : Sorted s₁ := hs.same hs₁.toSameQueues
  rw [hstop]
  intro kind r hr
  have hbefore := (hsorted.clearLanePending l).fewer kind r hr
  rw [hs₁.queues] at hbefore
  obtain ⟨hlane, hkind, hpending⟩ := h kind r hbefore
  have hne : r.lane ≠ l := by
    intro heq
    rw [heq] at hkind hpending
    subst hkind
    have hqueue : (s₁.clearLanePending l).pendingEventsByLaneKind (s₁.lane l).kind = _ :=
      update_self ..
    rw [← (hlanes l).1, hqueue] at hr
    refine ((hsorted.queues _).mem_of_removeAll _ hr).2 (OrderedMap.mem_values.mpr ⟨r.signature, ?_⟩)
    rw [(hlanes l).2]
    exact hpending
  have hsame : (s₁.clearLanePending l).lane r.lane = s₁.lane r.lane := update_of_ne hne ..
  refine ⟨(List.mem_cons.mp hlane).resolve_left hne, ?_, ?_⟩
  · rw [hsame, (hlanes _).1]
    exact hkind
  · rw [hsame, (hlanes _).2]
    exact hpending

theorem Emptying.stopLanes (ls : List Nat) (hs : Sorted s)
    (h : Emptying ls s) : Emptying [] (ls.foldl HotRefreshBackpressure.stopLane s) := by
  induction ls generalizing s with
  | nil => exact h
  | cons l rest ih => exact ih (hs.stopLane l).sorted (h.stopLane hs)

theorem LaneInv.stop_empty (h : LaneInv s) (hs : Sorted s)
    (kind : HotRefreshLaneKind) : (s.stop.pendingEventsByLaneKind kind).heap = [] := by
  have hall : Emptying s.lanes.values
      { s with stopped := true, readyLanes := .empty }.clearRetainedCooldownLanes := by
    intro kind r hr
    obtain ⟨hl, hkind, hpending⟩ := (h.queue.mem kind r).mp hr
    exact ⟨OrderedMap.mem_values.mpr ⟨_, hl⟩, (h.lanes.kind _ _ hl).trans hkind, hpending⟩
  have hnone := hall.stopLanes _ hs.stopping
  refine List.eq_nil_iff_forall_not_mem.mpr fun r hr => ?_
  exact absurd (hnone kind r hr).1 List.not_mem_nil

/-- What is known of the queues in every state. -/
structure QueuesInv (s : HotRefreshBackpressure) : Prop where
  sorted : Sorted s
  ended : s.stopped = true → ∀ kind, (s.pendingEventsByLaneKind kind).heap = []

theorem QueuesInv.create (options : HotRefreshBackpressureOptions) (now : Nat) :
    QueuesInv (create options now) :=
  ⟨⟨fun _ => queueSorted_empty, fun _ _ _ _ hr => nomatch hr⟩, fun _ _ => rfl⟩

theorem wakeLane_quiet (s : HotRefreshBackpressure) (k : String) (l callback : Nat) :
    Quiet s (s.wakeLane k l callback) ∨ (s.wakeLane k l callback).starts.length = s.starts.length + 1 ∧
        (s.wakeLane k l callback).stopped = s.stopped := by
  have hquiet : Quiet s { s with readyLanes := s.readyLanes.set k ⟨l, callback⟩ } :=
    ⟨⟨rfl, rfl, rfl, rfl⟩, rfl, rfl⟩
  unfold HotRefreshBackpressure.wakeLane
  split
  · exact .inl (.refl s)
  split
  · exact .inl ⟨⟨rfl, rfl, rfl, rfl⟩, rfl, rfl⟩
  unfold HotRefreshBackpressure.startLane
  split
  · exact .inl (.refl s)
  split
  · exact .inl (.refl s)
  split
  · exact .inl hquiet
  · exact .inr ⟨rfl, rfl⟩

end Artgod.Trading
