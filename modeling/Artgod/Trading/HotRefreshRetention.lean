/-
# Retention of pending hot-refresh events

While no pass drains them, the pending events of a kind are the strongest of those that came
(`pending_retention_is_top_k`): an event is one step of a bounded retention (`Working.accept`).
-/
import Artgod.Store.Retention
import Artgod.Trading.HotRefreshQueues

namespace Artgod.Trading

open Store Js HotRefreshBackpressure
open Function (update_self update_of_ne)

/-! ## 1. What is retained -/

/-- The price that is retained for a lane key and a signature. -/
def held (s : HotRefreshBackpressure) (kind : HotRefreshLaneKind) (key : String × String) : Option Int :=
  ((s.pendingEventsByLaneKind kind).heap.find? fun r => (r.laneKey, r.signature) = key).map (priceIn s.pending)

/-- As many signatures are retained as may be. -/
def Full (s : HotRefreshBackpressure) (kind : HotRefreshLaneKind) : Prop :=
  (s.pendingEventsByLaneKind kind).heap.length = s.getMaxPendingSignatures kind

section Held

variable {s s' : HotRefreshBackpressure} {kind : HotRefreshLaneKind}

theorem LaneInv.reference_unique (h : LaneInv s) {r r' : PendingEventReference}
    (hr : r ∈ (s.pendingEventsByLaneKind kind).heap) (hr' : r' ∈ (s.pendingEventsByLaneKind kind).heap)
    (hkey : (r.laneKey, r.signature) = (r'.laneKey, r'.signature)) : r = r' := by
  obtain ⟨hk, hg⟩ := Prod.mk.inj hkey
  obtain ⟨hl, -, hp⟩ := (h.queue.mem kind r).mp hr
  obtain ⟨hl', -, hp'⟩ := (h.queue.mem kind r').mp hr'
  rw [hk, hl'] at hl
  have hlane := Option.some.inj hl
  rw [← hlane, hg, hp'] at hp
  have hpending := Option.some.inj hp
  cases r
  cases r'
  simp only [PendingEventReference.mk.injEq]
  exact ⟨hk, hlane.symm, hg, hpending.symm⟩

theorem LaneInv.held_eq_some (h : LaneInv s) {key : String × String} {x : Int} :
    held s kind key = some x ↔ ∃ r ∈ (s.pendingEventsByLaneKind kind).heap,
      (r.laneKey, r.signature) = key ∧ priceIn s.pending r = x := by
  unfold held
  rw [Option.map_eq_some_iff]
  constructor
  · rintro ⟨r, hr, hx⟩
    have hkey := List.find?_some hr
    exact ⟨r, List.mem_of_find?_eq_some hr, of_decide_eq_true hkey, hx⟩
  rintro ⟨r, hr, hkey, hx⟩
  cases hfind : (s.pendingEventsByLaneKind kind).heap.find? fun r => (r.laneKey, r.signature) = key with
  | none =>
    have hnot := List.find?_eq_none.mp hfind r hr
    exact absurd hkey (by simpa using hnot)
  | some r' =>
    have hkey' := List.find?_some hfind
    have heq := h.reference_unique hr (List.mem_of_find?_eq_some hfind)
      (hkey.trans (of_decide_eq_true hkey').symm)
    exact ⟨r', rfl, heq ▸ hx⟩

theorem LaneInv.held_mem (h : LaneInv s) {r : PendingEventReference}
    (hr : r ∈ (s.pendingEventsByLaneKind kind).heap) :
    held s kind (r.laneKey, r.signature) = some (priceIn s.pending r) :=
  h.held_eq_some.mpr ⟨r, hr, rfl, rfl⟩

theorem held_put (h : LaneInv s) (h' : LaneInv s') {r₀ : PendingEventReference}
    (hmem : ∀ r, r ∈ (s'.pendingEventsByLaneKind kind).heap ↔
      r ∈ (s.pendingEventsByLaneKind kind).heap ∧ (r.laneKey, r.signature) ≠ (r₀.laneKey, r₀.signature) ∨ r = r₀)
    (hprice : ∀ r ∈ (s.pendingEventsByLaneKind kind).heap,
      (r.laneKey, r.signature) ≠ (r₀.laneKey, r₀.signature) → priceIn s'.pending r = priceIn s.pending r) :
    held s' kind =
      Function.update (held s kind) (r₀.laneKey, r₀.signature) (some (priceIn s'.pending r₀)) := by
  funext key
  refine Option.ext fun x => ?_
  rw [h'.held_eq_some]
  by_cases hkey : key = (r₀.laneKey, r₀.signature)
  · subst hkey
    rw [update_self, Option.some.injEq]
    constructor
    · rintro ⟨r, hr, hsame, hx⟩
      rcases (hmem r).mp hr with ⟨-, hne⟩ | rfl
      · exact absurd hsame hne
      · exact hx
    · exact fun hx => ⟨r₀, (hmem r₀).mpr (.inr rfl), rfl, hx⟩
  · rw [update_of_ne hkey, h.held_eq_some]
    constructor
    · rintro ⟨r, hr, rfl, hx⟩
      rcases (hmem r).mp hr with ⟨hr, hne⟩ | rfl
      · exact ⟨r, hr, rfl, (hprice r hr hne).symm.trans hx⟩
      · exact absurd rfl hkey
    · rintro ⟨r, hr, rfl, hx⟩
      exact ⟨r, (hmem r).mpr (.inl ⟨hr, hkey⟩), rfl, (hprice r hr hkey).trans hx⟩

theorem held_drop (h : LaneInv s) (h' : LaneInv s') {w : PendingEventReference}
    (hw : w ∈ (s.pendingEventsByLaneKind kind).heap)
    (hmem : ∀ r, r ∈ (s'.pendingEventsByLaneKind kind).heap ↔
      r ∈ (s.pendingEventsByLaneKind kind).heap ∧ r ≠ w) (hpending : s'.pending = s.pending) :
    held s' kind = Function.update (held s kind) (w.laneKey, w.signature) none := by
  funext key
  refine Option.ext fun x => ?_
  rw [h'.held_eq_some, hpending]
  by_cases hkey : key = (w.laneKey, w.signature)
  · subst hkey
    rw [update_self]
    constructor
    · rintro ⟨r, hr, hsame, -⟩
      obtain ⟨hr, hne⟩ := (hmem r).mp hr
      exact absurd (h.reference_unique hr hw hsame) hne
    · exact fun hx => nomatch hx
  · rw [update_of_ne hkey, h.held_eq_some]
    constructor
    · rintro ⟨r, hr, hsame, hx⟩
      exact ⟨r, ((hmem r).mp hr).1, hsame, hx⟩
    · rintro ⟨r, hr, rfl, hx⟩
      exact ⟨r, (hmem r).mpr ⟨hr, fun heq => hkey (heq ▸ rfl)⟩, rfl, hx⟩

theorem held_same (h : SameQueues s s') : held s' = held s := by
  funext kind key
  unfold held
  rw [h.queues, h.pending]

end Held

/-! ## 2. One event -/

section Event

variable {s s' : HotRefreshBackpressure} {kind : HotRefreshLaneKind}

variable {g k : String} {event : MarketEvent} {callback : Nat}

theorem reserve_none (h : LaneInv s) (hs : Sorted s)
    (hreserve : s.reservePendingSignature kind k event = none) :
    Full s kind ∧ ∀ r ∈ (s.pendingEventsByLaneKind kind).heap, event.getUnitPrice ≤ priceIn s.pending r := by
  unfold HotRefreshBackpressure.reservePendingSignature at hreserve
  split at hreserve
  · cases hreserve
  next hroom =>
  have hfull : Full s kind := by
    rw [h.counts kind] at hroom
    exact Nat.le_antisymm (h.bounded kind) (Nat.le_of_not_lt hroom)
  refine ⟨hfull, ?_⟩
  split at hreserve
  · next hpeek =>
    intro r hr
    rw [List.head?_eq_none_iff.mp hpeek] at hr
    exact absurd hr List.not_mem_nil
  · next w hpeek =>
    split at hreserve
    · next hweak =>
      intro r hr
      exact hweak.trans ((hs.queues kind).ordered.peek_le hpeek hr)
    · cases hreserve

/-- The weakest that is retained made room. -/
structure Evicted (s s' : HotRefreshBackpressure) (kind : HotRefreshLaneKind) (w : PendingEventReference) :
    Prop where
  full : Full s kind
  weakest : ∀ r ∈ (s.pendingEventsByLaneKind kind).heap, priceIn s.pending w ≤ priceIn s.pending r
  mem_heap : w ∈ (s.pendingEventsByLaneKind kind).heap
  mem : ∀ r, r ∈ (s'.pendingEventsByLaneKind kind).heap ↔ r ∈ (s.pendingEventsByLaneKind kind).heap ∧ r ≠ w
  length : (s'.pendingEventsByLaneKind kind).heap.length + 1 = (s.pendingEventsByLaneKind kind).heap.length
  pending : s'.pending = s.pending
  options : s'.options = s.options
  starts : s'.starts = s.starts

theorem Evicted.quiet {s'' : HotRefreshBackpressure} {w : PendingEventReference} (h : Evicted s s' kind w)
    (hquiet : Quiet s' s'') : Evicted s s'' kind w :=
  { h with
    mem := by rw [hquiet.queues]; exact h.mem
    length := by rw [hquiet.queues]; exact h.length
    pending := hquiet.pending.trans h.pending
    options := hquiet.options.trans h.options
    starts := hquiet.starts.trans h.starts }

theorem reserve_some (h : LaneInv s) (hs : Sorted s)
    (hreserve : s.reservePendingSignature kind k event = some s') :
    s' = s ∧ ¬ Full s kind ∨ ∃ w, Evicted s s' kind w ∧ priceIn s.pending w < event.getUnitPrice := by
  unfold HotRefreshBackpressure.reservePendingSignature at hreserve
  split at hreserve
  · next hroom =>
    refine .inl ⟨(Option.some.inj hreserve).symm, fun hfull => ?_⟩
    rw [h.counts kind, hfull] at hroom
    exact Nat.lt_irrefl _ hroom
  next hroom =>
  rw [h.counts kind] at hroom
  split at hreserve
  · cases hreserve
  next w hpeek =>
  split at hreserve
  · cases hreserve
  next hstrong =>
  have hw : w ∈ (s.pendingEventsByLaneKind kind).heap := List.mem_of_head? hpeek
  obtain ⟨-, hlength, hmem⟩ := (hs.queues kind).indexed.remove s.isWeaker hw
  have hqueue : (s.takeOutPending kind w).pendingEventsByLaneKind kind =
      (s.pendingEventsByLaneKind kind).remove PendingEventReference.pending s.isWeaker w.pending :=
    update_self ..
  have htaken : Evicted s (s.takeOutPending kind w) kind w :=
    { full := Nat.le_antisymm (h.bounded kind) (Nat.le_of_not_lt hroom)
      weakest := fun r hr => (hs.queues kind).ordered.peek_le hpeek hr
      mem_heap := hw
      mem := by rw [hqueue]; exact hmem
      length := by rw [hqueue]; exact hlength
      pending := rfl
      options := rfl
      starts := rfl }
  refine .inr ⟨w, ?_, Int.not_le.mp hstrong⟩
  rw [← Option.some.inj hreserve]
  unfold HotRefreshBackpressure.evictWeakest
  split
  · exact htaken
  · exact htaken.quiet (quiet_releaseLane _ _ _)

theorem mem_addPending (hs : Sorted s) {k g : String} {l : Nat} {event : MarketEvent}
    (hkind : (s.lane l).kind = kind) :
    (∀ r, r ∈ ((s.addPending k l g event).pendingEventsByLaneKind kind).heap ↔
      r ∈ (s.pendingEventsByLaneKind kind).heap ∨ r = ⟨k, l, g, s.nextPending⟩) ∧
    ((s.addPending k l g event).pendingEventsByLaneKind kind).heap.length =
      (s.pendingEventsByLaneKind kind).heap.length + 1 := by
  subst hkind
  have hfresh : (s.pendingEventsByLaneKind (s.lane l).kind).index s.nextPending = none :=
    (hs.queues _).indexed.index_none.mpr fun r hr => Nat.ne_of_lt ((hs.queues _).bound r hr)
  have hqueue : (s.addPending k l g event).pendingEventsByLaneKind (s.lane l).kind = _ :=
    update_self ..
  rw [hqueue]
  obtain ⟨-, hlength, hmem⟩ := @IndexedHeap.Indexed.add _ _ _ _ _ _ (hs.queues (s.lane l).kind).indexed
    ⟨k, l, g, s.nextPending⟩ hfresh
  exact ⟨hmem, hlength⟩

theorem priceIn_addPending (hs : Sorted s) {k g : String} {l : Nat} {event : MarketEvent} :
    (∀ r ∈ (s.pendingEventsByLaneKind kind).heap,
      priceIn (s.addPending k l g event).pending r = priceIn s.pending r) ∧
    priceIn (s.addPending k l g event).pending ⟨k, l, g, s.nextPending⟩ = event.getUnitPrice := by
  refine ⟨fun r hr => ?_, ?_⟩
  · show (Function.update s.pending s.nextPending _ r.pending).event.getUnitPrice = _
    rw [update_of_ne (Nat.ne_of_lt ((hs.queues kind).bound r hr))]
    rfl
  · show (Function.update s.pending s.nextPending _ s.nextPending).event.getUnitPrice = _
    rw [update_self]

theorem LaneInv.held_none (h : LaneInv s)
    (hnew : ∀ l, s.lanes.get k = some l → (s.lane l).pendingEvents.get g = none) :
    held s kind (k, g) = none := by
  refine Option.eq_none_iff_forall_not_mem.mpr fun x hx => ?_
  obtain ⟨r, hr, hkey, -⟩ := h.held_eq_some.mp hx
  obtain ⟨hk, hg⟩ := Prod.mk.inj hkey
  obtain ⟨hl, -, hp⟩ := (h.queue.mem kind r).mp hr
  rw [hk] at hl
  rw [hg, hnew _ hl] at hp
  cases hp

theorem wakeLane_quiet_of_starts {k : String} {l callback : Nat}
    (hstarts : (s.wakeLane k l callback).starts.length = s.starts.length) :
    Quiet s (s.wakeLane k l callback) := by
  rcases wakeLane_quiet s k l callback with hquiet | ⟨hmore, -⟩
  · exact hquiet
  · omega

theorem accept_added (h : LaneInv s) (hs : Sorted s) {l : Nat}
    (hl : s.lanes.get k = some l) (hkind : keyKind k = kind)
    (hnew : (s.lane l).pendingEvents.get g = none)
    (h' : LaneInv (((s.addPending k l g event).countSignal l).wakeLane k l callback))
    (hstarts : (((s.addPending k l g event).countSignal l).wakeLane k l callback).starts.length =
      s.starts.length) :
    held (((s.addPending k l g event).countSignal l).wakeLane k l callback) kind =
      Function.update (held s kind) (k, g) (some event.getUnitPrice) ∧
    ((((s.addPending k l g event).countSignal l).wakeLane k l callback).pendingEventsByLaneKind
      kind).heap.length = (s.pendingEventsByLaneKind kind).heap.length + 1 ∧
    (((s.addPending k l g event).countSignal l).wakeLane k l callback).options = s.options := by
  have hcounted : Quiet (s.addPending k l g event) ((s.addPending k l g event).countSignal l) :=
    ⟨⟨rfl, rfl, rfl, rfl⟩, rfl, rfl⟩
  have hwoken := hcounted.trans (@wakeLane_quiet_of_starts _ k l callback hstarts)
  obtain ⟨hmem, hlength⟩ := @mem_addPending _ kind hs k g l event ((h.lanes.kind k l hl).trans hkind)
  obtain ⟨hprices, hprice⟩ := @priceIn_addPending _ kind hs k g l event
  have hnone : held s kind (k, g) = none := h.held_none fun l' hl' => by
    rw [hl] at hl'
    exact Option.some.inj hl' ▸ hnew
  -- no reference of the queue has this key and signature
  have hother : ∀ r ∈ (s.pendingEventsByLaneKind kind).heap, (r.laneKey, r.signature) ≠ (k, g) := by
    intro r hr hkey
    rw [← hkey, h.held_mem hr] at hnone
    cases hnone
  refine ⟨?_, by rw [hwoken.queues]; exact hlength, hwoken.options⟩
  rw [@held_put s _ kind h h' ⟨k, l, g, s.nextPending⟩ (fun r => ?_) fun r hr _ => ?_]
  · rw [hwoken.pending, hprice]
  · rw [hwoken.queues, hmem]
    exact or_congr_left ⟨fun hr => ⟨hr, hother r hr⟩, fun hr => hr.1⟩
  · rw [hwoken.pending]
    exact hprices r hr

theorem accept_joined (h : LaneInv s) (hs : Sorted s) {l p : Nat}
    (hl : s.lanes.get k = some l) (hkind : keyKind k = kind)
    (hp : (s.lane l).pendingEvents.get g = some p)
    (h' : LaneInv (((s.coalesce l p event).countSignal l).wakeLane k l callback))
    (hstarts : (((s.coalesce l p event).countSignal l).wakeLane k l callback).starts.length =
      s.starts.length) :
    (∃ old, held s kind (k, g) = some old ∧
      held (((s.coalesce l p event).countSignal l).wakeLane k l callback) kind =
        Function.update (held s kind) (k, g) (some (max old event.getUnitPrice))) ∧
    ((((s.coalesce l p event).countSignal l).wakeLane k l callback).pendingEventsByLaneKind
      kind).heap.length = (s.pendingEventsByLaneKind kind).heap.length ∧
    (((s.coalesce l p event).countSignal l).wakeLane k l callback).options = s.options := by
  have hcounted : Quiet (s.coalesce l p event) ((s.coalesce l p event).countSignal l) :=
    ⟨⟨rfl, rfl, rfl, rfl⟩, rfl, rfl⟩
  have hwoken := hcounted.trans (@wakeLane_quiet_of_starts _ k l callback hstarts)
  have hlane := h.lanes.kind k l hl
  have hr₀ := h.mem_of_pending hl hp
  rw [hlane, hkind] at hr₀
  have hrearranged : IndexedHeap.Rearranged PendingEventReference.pending (s.pendingEventsByLaneKind kind)
      ((s.coalesce l p event).pendingEventsByLaneKind kind) := by
    have hqueue : (s.coalesce l p event).pendingEventsByLaneKind (s.lane l).kind = _ :=
      update_self ..
    rw [← hkind, ← hlane, hqueue]
    exact (hs.queues _).indexed.update _ p
  have hprice : priceIn (s.coalesce l p event).pending ⟨k, l, g, p⟩ =
      max (priceIn s.pending ⟨k, l, g, p⟩) event.getUnitPrice := by
    show (Function.update s.pending p _ p).event.getUnitPrice = _
    rw [update_self]
    show (selectConservativeEvent (s.pending p).event event).getUnitPrice =
      max (s.pending p).event.getUnitPrice event.getUnitPrice
    unfold selectConservativeEvent
    split
    · next hge => exact (max_eq_right hge).symm
    · next hlt => exact (max_eq_left (le_of_lt (Int.not_le.mp hlt))).symm
  refine ⟨⟨_, h.held_mem hr₀, ?_⟩, by rw [hwoken.queues]; exact hrearranged.length, hwoken.options⟩
  rw [@held_put s _ kind h h' ⟨k, l, g, p⟩ (fun r => ?_) fun r hr hne => ?_]
  · rw [hwoken.pending, hprice]
  · rw [hwoken.queues, hrearranged.mem]
    constructor
    · intro hr
      by_cases hkey : (r.laneKey, r.signature) = (k, g)
      · exact .inr (h.reference_unique hr hr₀ hkey)
      · exact .inl ⟨hr, hkey⟩
    · rintro (hr | rfl)
      · exact hr.1
      · exact hr₀
  · rw [hwoken.pending]
    have hne' : r.pending ≠ p := fun heq =>
      hne (congrArg (fun r => (r.laneKey, r.signature)) ((hs.queues kind).indexed.eq_of_key_eq hr hr₀ heq))
    show (Function.update s.pending p _ r.pending).event.getUnitPrice = _
    rw [update_of_ne hne']
    rfl

/-- **An event of the stream, with no pass started.**  What is retained for its kind then changes as a
bounded retention of the strongest does. -/
theorem Working.accept (h : Working s) (hroom : Room s) (hs : Sorted s) (hstopped : s.stopped = false)
    (hsupported : isSupportedHotRefreshEvent event = true)
    (hstarts : (s.queueEvent event callback).starts.length = s.starts.length) :
    Retention.Accept (Full s (laneKind event)) (held s (laneKind event))
      (createLaneKey event, createEventSignature event) event.getUnitPrice
      (held (s.queueEvent event callback) (laneKind event)) ∧
    (Full s (laneKind event) → Full (s.queueEvent event callback) (laneKind event)) := by
  have hkind := keyKind_createLaneKey hsupported
  have h' := (h.queueEvent hroom hstopped hsupported callback).1.toLaneInv
  -- the event found room, or took that of the weakest, and is now pending in its lane
  have hadded : ∀ s₁ s₂ l, held s (laneKind event) (createLaneKey event, createEventSignature event) = none →
      s.reservePendingSignature (laneKind event) (createLaneKey event) event = some s₁ →
      Working s₁ → Quiet s₁ s₂ → LaneInv s₂ → s₂.lanes.get (createLaneKey event) = some l →
      (s₂.lane l).pendingEvents.get (createEventSignature event) = none →
      s.queueEvent event callback = ((s₂.addPending (createLaneKey event) l (createEventSignature event)
        event).countSignal l).wakeLane (createLaneKey event) l callback →
      Retention.Accept (Full s (laneKind event)) (held s (laneKind event))
        (createLaneKey event, createEventSignature event) event.getUnitPrice
        (held (s.queueEvent event callback) (laneKind event)) ∧
      (Full s (laneKind event) → Full (s.queueEvent event callback) (laneKind event)) := by
    intro s₁ s₂ l hnone hreserve h₁ hquiet h₂ hl hnew heq
    have hsorted₂ : Sorted s₂ := (hs.reserve hreserve).same hquiet.toSameQueues
    rw [heq] at h' hstarts ⊢
    rcases reserve_some h.toLaneInv hs hreserve with ⟨rfl, hnotfull⟩ | ⟨w, hevicted, hstrong⟩
    · obtain ⟨hheld, -, -⟩ := accept_added h₂ hsorted₂ hl hkind hnew h' (hstarts.trans (by rw [hquiet.starts]))
      rw [hheld, held_same hquiet.toSameQueues]
      exact ⟨.take hnone hnotfull, fun hfull => absurd hfull hnotfull⟩
    have hstarts₂ : s₂.starts = s.starts := hquiet.starts.trans hevicted.starts
    obtain ⟨hheld, hlength, hoptions⟩ :=
      accept_added h₂ hsorted₂ hl hkind hnew h' (hstarts.trans (by rw [hstarts₂]))
    rw [hheld, held_same hquiet.toSameQueues,
      held_drop h.toLaneInv h₁.toLaneInv hevicted.mem_heap hevicted.mem hevicted.pending]
    refine ⟨.replace hnone hevicted.full (h.held_mem hevicted.mem_heap) (fun key z hz => ?_) hstrong,
      fun hfull => ?_⟩
    · obtain ⟨r, hr, -, rfl⟩ := h.held_eq_some.mp hz
      exact hevicted.weakest r hr
    · unfold Full HotRefreshBackpressure.getMaxPendingSignatures
      rw [hlength, hquiet.queues, hoptions, hquiet.options, hevicted.options, hevicted.length]
      exact hfull
  have hrefused : held s (laneKind event) (createLaneKey event, createEventSignature event) = none →
      s.reservePendingSignature (laneKind event) (createLaneKey event) event = none →
      Retention.Accept (Full s (laneKind event)) (held s (laneKind event))
        (createLaneKey event, createEventSignature event) event.getUnitPrice (held s (laneKind event)) ∧
      (Full s (laneKind event) → Full s (laneKind event)) := by
    intro hnone hreserve
    obtain ⟨hfull, hweak⟩ := reserve_none h.toLaneInv hs hreserve
    refine ⟨.refuse hnone hfull fun key y hy => ?_, fun hfull => hfull⟩
    obtain ⟨r, hr, -, rfl⟩ := h.held_eq_some.mp hy
    exact hweak r hr
  cases hl : s.lanes.get (createLaneKey event) with
  | some l =>
    cases hp : (s.lane l).pendingEvents.get (createEventSignature event) with
    | some p =>
      have heq : s.queueEvent event callback =
          ((s.coalesce l p event).countSignal l).wakeLane (createLaneKey event) l callback := by
        unfold HotRefreshBackpressure.queueEvent
        simp only [hstopped, hl, hp, Bool.false_eq_true, if_false]
      rw [heq] at h' hstarts ⊢
      obtain ⟨⟨old, hold, hheld⟩, hlength, hoptions⟩ :=
        accept_joined h.toLaneInv hs hl hkind hp h' hstarts
      rw [hheld]
      refine ⟨.join hold, fun hfull => ?_⟩
      unfold Full HotRefreshBackpressure.getMaxPendingSignatures
      rw [hlength, hoptions]
      exact hfull
    | none =>
      have hnone : held s (laneKind event) (createLaneKey event, createEventSignature event) = none :=
        h.held_none fun l' hl' => by
          rw [hl] at hl'
          exact Option.some.inj hl' ▸ hp
      cases hreserve : s.reservePendingSignature (laneKind event) (createLaneKey event) event with
      | none =>
        have heq : s.queueEvent event callback = s := by
          unfold HotRefreshBackpressure.queueEvent
          simp only [hstopped, hl, hp, hreserve, Bool.false_eq_true, if_false]
        rw [heq]
        exact hrefused hnone hreserve
      | some s₁ =>
        obtain ⟨hworking, -, hreserved, -⟩ := h.reservePendingSignature hroom hreserve
        refine hadded s₁ s₁ l hnone hreserve hworking (.refl s₁) hworking.toLaneInv
          (hreserved.lanes.trans hl) (hreserved.pending l _ hp) ?_
        unfold HotRefreshBackpressure.queueEvent
        simp only [hstopped, hl, hp, hreserve, Bool.false_eq_true, if_false]
  | none =>
    have hnone : held s (laneKind event) (createLaneKey event, createEventSignature event) = none :=
      h.held_none fun l' hl' => by
        rw [hl] at hl'
        cases hl'
    cases hreserve : s.reservePendingSignature (laneKind event) (createLaneKey event) event with
    | none =>
      have heq : s.queueEvent event callback = s := by
        unfold HotRefreshBackpressure.queueEvent
        simp only [hstopped, hl, hreserve, Bool.false_eq_true, if_false]
      rw [heq]
      exact hrefused hnone hreserve
    | some s₁ =>
      obtain ⟨hworking, hroom₁, hreserved, -⟩ := h.reservePendingSignature hroom hreserve
      obtain ⟨hmade, -, -, hlanes, hempty, -, -⟩ :=
        hworking.getLane hroom₁ hsupported (hreserved.lanes.trans hl)
      refine hadded s₁ _ _ hnone hreserve hworking (quiet_getLane s₁ event) hmade.toLaneInv hlanes ?_ ?_
      · rw [hempty]
        rfl
      · unfold HotRefreshBackpressure.queueEvent
        simp only [hstopped, hl, hreserve, Bool.false_eq_true, if_false]

theorem queueEvent_frame (s : HotRefreshBackpressure) (event : MarketEvent) (callback : Nat) :
    (s.queueEvent event callback).stopped = s.stopped ∧
      s.starts.length ≤ (s.queueEvent event callback).starts.length := by
  have hwake : ∀ (m : HotRefreshBackpressure) k l, m.stopped = s.stopped ∧ m.starts = s.starts →
      (m.wakeLane k l callback).stopped = s.stopped ∧
        s.starts.length ≤ (m.wakeLane k l callback).starts.length := by
    intro m k l hm
    rcases wakeLane_quiet m k l callback with hquiet | ⟨hmore, hstopped⟩
    · refine ⟨hquiet.stopped.trans hm.1, ?_⟩
      rw [hquiet.starts, hm.2]
    · refine ⟨hstopped.trans hm.1, ?_⟩
      rw [hmore, hm.2]
      exact Nat.le_succ _
  have hreserve : ∀ s', s.reservePendingSignature (laneKind event) (createLaneKey event) event = some s' →
      s'.stopped = s.stopped ∧ s'.starts = s.starts := by
    intro s' hs'
    unfold HotRefreshBackpressure.reservePendingSignature at hs'
    split at hs'
    · cases hs'
      exact ⟨rfl, rfl⟩
    split at hs'
    · cases hs'
    next w _ =>
    split at hs'
    · cases hs'
    cases hs'
    unfold HotRefreshBackpressure.evictWeakest
    split
    · exact ⟨rfl, rfl⟩
    · have hquiet := quiet_releaseLane (s.takeOutPending (laneKind event) w) w.laneKey w.lane
      exact ⟨hquiet.stopped, hquiet.starts⟩
  have hadded : ∀ (m : HotRefreshBackpressure) k l g, m.stopped = s.stopped ∧ m.starts = s.starts →
      ((m.addPending k l g event).countSignal l).stopped = s.stopped ∧
        ((m.addPending k l g event).countSignal l).starts = s.starts := by
    intro m k l g hm
    have hsame : ((m.addPending k l g event).countSignal l).stopped = m.stopped ∧
      ((m.addPending k l g event).countSignal l).starts = m.starts := ⟨rfl, rfl⟩
    exact ⟨hsame.1.trans hm.1, hsame.2.trans hm.2⟩
  unfold HotRefreshBackpressure.queueEvent
  split
  · exact ⟨rfl, Nat.le_refl _⟩
  dsimp only
  split
  · split
    · exact hwake _ _ _ ⟨rfl, rfl⟩
    split
    · exact ⟨rfl, Nat.le_refl _⟩
    · next s' hs' => exact hwake _ _ _ (hadded _ _ _ _ (hreserve s' hs'))
  · split
    · exact ⟨rfl, Nat.le_refl _⟩
    next s' hs' =>
    have hquiet := quiet_getLane s' event
    obtain ⟨hstopped, hstarts⟩ := hreserve s' hs'
    exact hwake _ _ _ (hadded _ _ _ _ ⟨hquiet.stopped.trans hstopped, hquiet.starts.trans hstarts⟩)

end Event

/-! ## 3. Runs -/

theorem empty_of_fewer {l l' : List PendingEventReference} (hempty : l = [])
    (hfewer : ∀ r ∈ l', r ∈ l) : l' = [] := by
  refine List.eq_nil_iff_forall_not_mem.mpr fun r hr => ?_
  have hbefore := hfewer r hr
  rw [hempty] at hbefore
  exact absurd hbefore List.not_mem_nil

variable {s : HotRefreshBackpressure}

theorem queueEvent_of_stopped (h : s.stopped = true) (event : MarketEvent)
    (callback : Nat) : s.queueEvent event callback = s := by
  unfold HotRefreshBackpressure.queueEvent
  rw [if_pos h]

theorem QueuesInv.step (h : QueuesInv s) (hs : SchedulerInv s)
    (e : HotRefreshEvent) : QueuesInv (s.step e) := by
  by_cases he : ∃ event callback, e = .event event callback
  · obtain ⟨event, callback, rfl⟩ := he
    simp only [HotRefreshBackpressure.step]
    split
    · cases hgoing : s.stopped with
      | true =>
        rw [queueEvent_of_stopped hgoing]
        exact h
      | false =>
        obtain ⟨hworking, -⟩ := hs.going hgoing
        refine ⟨h.sorted.queueEvent hworking.toLaneInv event callback, fun hended => ?_⟩
        rw [(queueEvent_frame s event callback).1, hgoing] at hended
        cases hended
    · exact h
  by_cases hstop : e = .stop
  · subst hstop
    obtain ⟨hsorted, hfewer⟩ := h.sorted.stop
    refine ⟨hsorted, fun _ kind => ?_⟩
    cases hgoing : s.stopped with
    | true => exact empty_of_fewer (h.ended hgoing kind) (hfewer kind)
    | false => exact (hs.going hgoing).1.toLaneInv.stop_empty h.sorted kind
  · have hshrunk : Shrunk s (s.step e) :=
      h.sorted.step_shrunk (fun event callback heq => he ⟨event, callback, heq⟩) hstop
    refine ⟨hshrunk.sorted, fun hended kind => ?_⟩
    rw [hshrunk.stopped] at hended
    exact empty_of_fewer (h.ended hended kind) (hshrunk.fewer kind)

/-- The scheduler and its queues. -/
structure Steady (s : HotRefreshBackpressure) : Prop where
  scheduler : SchedulerInv s
  queues : QueuesInv s

theorem Steady.step (h : Steady s) (e : HotRefreshEvent) : Steady (s.step e) :=
  ⟨h.scheduler.step e, h.queues.step h.scheduler e⟩

theorem Steady.run (options : HotRefreshBackpressureOptions) (now : Nat) (es : List HotRefreshEvent) :
    Steady (Machine.run HotRefreshBackpressure.step (HotRefreshBackpressure.create options now) es) :=
  Machine.run_invariant (fun _ e h => h.step e) ⟨.create options now, .create options now⟩ es

theorem Steady.queueEvent (h : Steady s) {event : MarketEvent}
    (hsupported : isSupportedHotRefreshEvent event = true) (callback : Nat) :
    Steady (s.queueEvent event callback) := by
  have hstep := h.step (.event event callback)
  simp only [HotRefreshBackpressure.step, hsupported, if_true] at hstep
  exact hstep

/-- The events of a stream, with their callbacks, one after the other. -/
def queueEvents (s : HotRefreshBackpressure) (events : List (MarketEvent × Nat)) : HotRefreshBackpressure :=
  Machine.run (fun s e => s.queueEvent e.1 e.2) s events

/-- The price came for the lane key and the signature: with one of the events, or it was retained. -/
def Came (s : HotRefreshBackpressure) (kind : HotRefreshLaneKind) (events : List (MarketEvent × Nat))
    (key : String × String) (x : Int) : Prop :=
  held s kind key = some x ∨
    ∃ e ∈ events, (createLaneKey e.1, createEventSignature e.1) = key ∧ e.1.getUnitPrice = x

theorem queueEvents_of_stopped (h : s.stopped = true)
    (events : List (MarketEvent × Nat)) : queueEvents s events = s := by
  induction events with
  | nil => rfl
  | cons e rest ih =>
    show queueEvents (s.queueEvent e.1 e.2) rest = s
    rw [queueEvent_of_stopped h]
    exact ih

theorem queueEvents_starts (s : HotRefreshBackpressure) (events : List (MarketEvent × Nat)) :
    s.starts.length ≤ (queueEvents s events).starts.length := by
  induction events generalizing s with
  | nil => exact Nat.le_refl _
  | cons e rest ih => exact Nat.le_trans (queueEvent_frame s e.1 e.2).2 (ih _)

theorem Steady.topK {kind : HotRefreshLaneKind} (events : List (MarketEvent × Nat))
    (h : Steady s) (hgoing : s.stopped = false)
    (hkinds : ∀ e ∈ events, isSupportedHotRefreshEvent e.1 = true ∧ laneKind e.1 = kind)
    (hstarts : (queueEvents s events).starts.length = s.starts.length) {came : String × String → Int → Prop}
    (htop : Retention.TopK (Full s kind) (held s kind) came) :
    Steady (queueEvents s events) ∧ (queueEvents s events).stopped = false ∧
    Retention.TopK (Full (queueEvents s events) kind) (held (queueEvents s events) kind) fun key x =>
      came key x ∨
        ∃ e ∈ events, (createLaneKey e.1, createEventSignature e.1) = key ∧ e.1.getUnitPrice = x := by
  induction events generalizing s came with
  | nil =>
    refine ⟨h, hgoing, htop.congr fun key x => ⟨.inl, fun hx => ?_⟩⟩
    rcases hx with hx | ⟨e, he, -⟩
    · exact hx
    · exact absurd he List.not_mem_nil
  | cons e rest ih =>
    obtain ⟨hsupported, rfl⟩ := hkinds e List.mem_cons_self
    obtain ⟨hstopped, hmore⟩ := queueEvent_frame s e.1 e.2
    -- passes only start, so the first event has started none
    have hlater : (s.queueEvent e.1 e.2).starts.length ≤ (queueEvents s (e :: rest)).starts.length :=
      queueEvents_starts _ rest
    have hfirst : (s.queueEvent e.1 e.2).starts.length = s.starts.length := by omega
    obtain ⟨hworking, hroom⟩ := h.scheduler.going hgoing
    obtain ⟨haccept, hfull⟩ := hworking.accept hroom h.queues.sorted hgoing hsupported hfirst
    obtain ⟨hsteady, hgoing', htop'⟩ := ih (h.queueEvent hsupported e.2) (hstopped.trans hgoing)
      (fun e' he' => hkinds e' (List.mem_cons_of_mem _ he')) (hstarts.trans hfirst.symm)
      (htop.accept haccept hfull)
    refine ⟨hsteady, hgoing', htop'.congr fun key x => ?_⟩
    rw [List.exists_mem_cons_iff, or_assoc]
    refine or_congr_right (or_congr_left ?_)
    exact ⟨fun hx => ⟨hx.1.symm, hx.2.symm⟩, fun hx => ⟨hx.1.symm, hx.2.symm⟩⟩

/-- **Retention of the strongest.**  However the priority queue is used, no event in it is weaker than its
parent, the positions are exact, and `peek` returns one of the smallest price.  And however a state was
reached: while events of one kind come and no pass starts, no more signatures are retained than may be; each
carries the largest price that came for it; and a price that came for a signature that is not retained is no
larger than any that is retained, and is given up only when there is no room. -/
theorem pending_retention_is_top_k : (∀ (pending : Nat → PendingHotRefreshEvent) (ops : List QueueOp),
      let s := Machine.run PendingQueue.step (PendingQueue.create pending) ops
      (∀ i parent child, 0 < i → s.queue.heap[(i - 1) / 2]? = some parent → s.queue.heap[i]? = some child →
        priceIn s.pending parent ≤ priceIn s.pending child) ∧
      (∀ p i, s.queue.index p = some i ↔ (s.queue.heap[i]?).map PendingEventReference.pending = some p) ∧
      ∀ w, s.queue.peek = some w → w ∈ s.queue.heap ∧
        ∀ r ∈ s.queue.heap, priceIn s.pending w ≤ priceIn s.pending r) ∧
    ∀ (options : HotRefreshBackpressureOptions) (now : Nat) (before : List HotRefreshEvent)
      (kind : HotRefreshLaneKind) (events : List (MarketEvent × Nat)),
      (∀ e ∈ events, isSupportedHotRefreshEvent e.1 = true ∧ laneKind e.1 = kind) →
      let s := Machine.run HotRefreshBackpressure.step (create options now) before
      let s' := queueEvents s events
      s'.starts.length = s.starts.length →
      (s'.pendingEventsByLaneKind kind).heap.length ≤ s'.getMaxPendingSignatures kind ∧
      (∀ r ∈ (s'.pendingEventsByLaneKind kind).heap,
        Came s kind events (r.laneKey, r.signature) (priceIn s'.pending r) ∧
        ∀ y, Came s kind events (r.laneKey, r.signature) y → y ≤ priceIn s'.pending r) ∧
      ∀ key y, Came s kind events key y →
        (∀ r ∈ (s'.pendingEventsByLaneKind kind).heap, (r.laneKey, r.signature) ≠ key) →
        (s.stopped = false → Full s' kind) ∧
        ∀ r ∈ (s'.pendingEventsByLaneKind kind).heap, y ≤ priceIn s'.pending r := by
  constructor
  · intro pending ops s
    have hsorted := PendingQueue.sorted_run pending ops
    refine ⟨fun i parent child hi hparent hchild => ?_, hsorted.indexed, fun w hw => ⟨List.mem_of_head? hw, ?_⟩⟩
    · exact hsorted.ordered _ i ⟨hi, rfl⟩ parent child hparent hchild
    · exact fun r hr => hsorted.ordered.peek_le hw hr
  · intro options now before kind events hkinds s s' hstarts
    have hsteady : Steady s := Steady.run options now before
    cases hgoing : s.stopped with
    | true =>
      -- a stopped scheduler retains nothing
      have hempty := hsteady.queues.ended hgoing kind
      have hsame : s' = s := queueEvents_of_stopped hgoing events
      rw [hsame, hempty]
      refine ⟨Nat.zero_le _, fun r hr => absurd hr List.not_mem_nil, fun key y _ _ => ⟨(fun h => nomatch h), ?_⟩⟩
      exact fun r hr => absurd hr List.not_mem_nil
    | false =>
      obtain ⟨hsteady', hgoing', htop⟩ := hsteady.topK events hgoing hkinds hstarts (.start _ _)
      obtain ⟨hworking, -⟩ := hsteady'.scheduler.going hgoing'
      refine ⟨hworking.bounded kind, fun r hr => htop.carries _ _ (hworking.held_mem hr), ?_⟩
      intro key y hy hnot
      have hnone : held s' kind key = none := by
        refine Option.eq_none_iff_forall_not_mem.mpr fun x hx => ?_
        obtain ⟨r, hr, hkey, -⟩ := hworking.held_eq_some.mp hx
        exact hnot r hr hkey
      obtain ⟨hfull, hbelow⟩ := htop.rest key y hy hnone
      exact ⟨fun _ => hfull, fun r hr => hbelow _ _ (hworking.held_mem hr)⟩

/-- Three collections compete for two places while the only pass runs. -/
def threeCollections : List (MarketEvent × Nat) :=
  [(⟨.collection, "b", "", [], 5, 1⟩, 0), (⟨.collection, "c", "", [], 7, 1⟩, 0),
    (⟨.collection, "d", "", [], 6, 1⟩, 0), (⟨.collection, "c", "", [], 9, 1⟩, 0)]

theorem weakest_collection_gives_way :
    let s := Machine.run HotRefreshBackpressure.step (create oneByOne 0)
      [.event ⟨.collection, "a", "", [], 5, 1⟩ 0]
    let s' := queueEvents s threeCollections
    (s'.pendingEventsByLaneKind .broad).heap.map (fun r => (r.laneKey, priceIn s'.pending r)) =
        [("collection:d", 6), ("collection:c", 9)] ∧
      ∀ r ∈ (s'.pendingEventsByLaneKind .broad).heap, (5 : Int) ≤ priceIn s'.pending r :=
  ⟨by decide +kernel, (((pending_retention_is_top_k.2 oneByOne 0
    [.event ⟨.collection, "a", "", [], 5, 1⟩ 0] .broad threeCollections (by decide +kernel)
    (by decide +kernel)).2.2 ("collection:b", "collection") 5
      (.inr ⟨(⟨.collection, "b", "", [], 5, 1⟩, 0), by decide +kernel, by decide +kernel, by decide +kernel⟩)
      (by decide +kernel)).2)⟩

/-- **Stopping is final.**  Whatever happens after a stop, the scheduler stays stopped, starts no pass and holds no
pending event. -/
theorem hot_refresh_stop_is_final (options : HotRefreshBackpressureOptions) (now : Nat)
    (before after : List HotRefreshEvent) :
    let s := Machine.run HotRefreshBackpressure.step (create options now) before
    let s' := Machine.run HotRefreshBackpressure.step (s.step .stop) after
    s'.stopped = true ∧ s'.starts = s.starts ∧ ∀ kind, (s'.pendingEventsByLaneKind kind).heap = [] := by
  intro s s'
  have hsteady : Steady s' :=
    Machine.run_invariant (fun _ e h => h.step e) ((Steady.run options now before).step .stop) after
  obtain ⟨hstopped, hstarts⟩ := stopLanes_frame _
    { s with stopped := true, readyLanes := .empty }.clearRetainedCooldownLanes
  have hfinal : s'.stopped = true ∧ s'.starts = s.starts := by
    refine Machine.run_invariant (fun (t : HotRefreshBackpressure) e (h : t.stopped = true ∧ t.starts = s.starts) => ?_)
      ⟨hstopped, hstarts⟩ after
    obtain ⟨hstays, hnone⟩ := step_of_stopped h.1 e
    exact ⟨hstays, hnone.trans h.2⟩
  exact ⟨hfinal.1, hfinal.2, hsteady.queues.ended hfinal.1⟩

end Artgod.Trading
