/-
# Delivery of a hot-refresh pass

A pass takes the pending events of its lane and gives them to the callback one after the other.  When the
callback fails the rest is not delivered and nothing is put back (`pass_delivery_iff`).
-/
import Artgod.Trading.HotRefreshRetention

namespace Artgod.Trading

open Store Js HotRefreshBackpressure

/-! ## 1. The loop of a pass -/

/-- The loop of a pass: the events that the callback was called with, and whether the loop came to its end.
The callback succeeds for the event at a position, or fails. -/
def deliverEvents : (Nat → Bool) → List MarketEvent → List MarketEvent × Bool
  | _, [] => ([], true)
  | callback, event :: rest =>
    if callback 0 then
      let (delivered, succeeded) := deliverEvents (fun i => callback (i + 1)) rest
      (event :: delivered, succeeded)
    else ([event], false)

/-- The callback fails for no event but the last. -/
def FailsOnlyAtEnd (callback : Nat → Bool) (events : List MarketEvent) : Prop :=
  ∀ i, i + 1 < events.length → callback i = true

theorem failsOnlyAtEnd_cons {callback : Nat → Bool} {event : MarketEvent} {rest : List MarketEvent} :
    FailsOnlyAtEnd callback (event :: rest) ↔
      (rest ≠ [] → callback 0 = true) ∧ FailsOnlyAtEnd (fun i => callback (i + 1)) rest := by
  constructor
  · intro h
    refine ⟨fun hrest => h 0 ?_, fun i hi => h (i + 1) (Nat.succ_lt_succ hi)⟩
    exact Nat.succ_lt_succ (List.length_pos_of_ne_nil hrest)
  rintro ⟨hfirst, hrest⟩ i hi
  cases i with
  | zero => exact hfirst (List.ne_nil_of_length_pos (Nat.lt_of_succ_lt_succ hi))
  | succ i => exact hrest i (Nat.lt_of_succ_lt_succ hi)

theorem deliverEvents_initial (callback : Nat → Bool) (events : List MarketEvent) :
    (deliverEvents callback events).1 <+: events := by
  induction events generalizing callback with
  | nil => exact List.prefix_rfl
  | cons event rest ih =>
    unfold deliverEvents
    split
    · exact (List.prefix_cons_inj event).mpr (ih _)
    · exact ⟨rest, rfl⟩

/-- **All events are delivered exactly when the callback fails for none but the last.** -/
theorem deliverEvents_all_iff (callback : Nat → Bool) (events : List MarketEvent) :
    (deliverEvents callback events).1 = events ↔ FailsOnlyAtEnd callback events := by
  induction events generalizing callback with
  | nil => exact ⟨fun _ i hi => absurd hi (Nat.not_lt_zero _), fun _ => rfl⟩
  | cons event rest ih =>
    rw [failsOnlyAtEnd_cons]
    unfold deliverEvents
    split
    · next hfirst =>
      rw [List.cons_inj_right, ih]
      exact ⟨fun hrest => ⟨fun _ => hfirst, hrest⟩, fun h => h.2⟩
    next hfirst =>
    rw [List.cons_inj_right]
    constructor
    · rintro rfl
      exact ⟨fun hne => absurd rfl hne, fun i hi => absurd hi (Nat.not_lt_zero _)⟩
    · rintro ⟨hmust, -⟩
      by_contra hne
      exact hfirst (hmust fun hnil => hne hnil.symm)

/-! ## 2. A pass -/

/-- A pass runs its loop and ends: what it delivered, and the state it leaves. -/
def settlePass (s : HotRefreshBackpressure) (id : Nat) (pass : HotRefreshPass) (callback : Nat → Bool) :
    List MarketEvent × HotRefreshBackpressure :=
  ((deliverEvents callback pass.events).1, s.finishPass id pass)

/-- A pending event that was not pending before. -/
def PutBack (s s' : HotRefreshBackpressure) (event : MarketEvent) : Prop :=
  ∃ kind, ∃ r ∈ (s'.pendingEventsByLaneKind kind).heap, r ∉ (s.pendingEventsByLaneKind kind).heap ∧
    (s'.pending r.pending).event = event

/-- Every event of the pass, at its position, is delivered or put back. -/
def PassDelivers (s : HotRefreshBackpressure) (id : Nat) (pass : HotRefreshPass) (callback : Nat → Bool) :
    Prop :=
  ∀ (i : Nat) (event : MarketEvent), pass.events[i]? = some event →
    (settlePass s id pass callback).1[i]? = some event ∨ PutBack s (settlePass s id pass callback).2 event

theorem Sorted.not_putBack {s : HotRefreshBackpressure} (hs : Sorted s) (id : Nat) (pass : HotRefreshPass)
    (callback : Nat → Bool) (event : MarketEvent) : ¬ PutBack s (settlePass s id pass callback).2 event := by
  rintro ⟨kind, r, hr, hnew, -⟩
  exact hnew ((hs.finishPass id pass).fewer kind r hr)

/-- **What a pass delivers.**  In every state of every run, for every pass and whatever the callback does:
every event that the pass took is delivered or put back exactly when the callback fails for no event of the
pass but the last. -/
theorem pass_delivery_iff (options : HotRefreshBackpressureOptions) (now : Nat) (es : List HotRefreshEvent)
    (id : Nat) (pass : HotRefreshPass) (callback : Nat → Bool) :
    PassDelivers (Machine.run HotRefreshBackpressure.step (create options now) es) id pass callback ↔
      FailsOnlyAtEnd callback pass.events := by
  have hsorted := (Steady.run options now es).queues.sorted
  rw [← deliverEvents_all_iff]
  constructor
  · intro h
    refine (deliverEvents_initial callback pass.events).eq_of_length_le ?_
    by_contra hshort
    obtain ⟨event, hevent⟩ : ∃ event, pass.events[(deliverEvents callback pass.events).1.length]? = some event :=
      ⟨_, List.getElem?_eq_getElem (Nat.lt_of_not_le hshort)⟩
    rcases h _ event hevent with hdelivered | hback
    · have hlt := (List.getElem?_eq_some_iff.mp hdelivered).1
      exact absurd hlt (Nat.lt_irrefl _)
    · exact hsorted.not_putBack id pass callback event hback
  · intro hall i event hevent
    refine .inl ?_
    show (deliverEvents callback pass.events).1[i]? = some event
    rw [hall]
    exact hevent

/-- Two trait offers wait while the only pass runs, and are then taken by one pass. -/
def twoTraitOffers : List HotRefreshEvent :=
  [.event ⟨.collection, "a", "", [], 5, 1⟩ 0,
    .event ⟨.trait, "b", "", [.exactValue ⟨"Hat", "Red"⟩], 7, 1⟩ 0,
    .event ⟨.trait, "b", "", [.exactValue ⟨"Hat", "Blue"⟩], 6, 1⟩ 0, .passSettled 0 true]

theorem second_offer_lost :
    let s := Machine.run HotRefreshBackpressure.step (create oneByOne 0) twoTraitOffers
    ∃ pass, s.passes.get 1 = some pass ∧ pass.events.length = 2 ∧ ¬ PassDelivers s 1 pass fun i => i ≠ 0 := by
  intro s
  have hlost : (s.passes.get 1).map (fun pass => pass.events.map MarketEvent.totalPrice) = some [7, 6] := by
    decide +kernel
  obtain ⟨pass, hpass, hprices⟩ := Option.map_eq_some_iff.mp hlost
  have hlength : pass.events.length = 2 := by
    have hlengths := congrArg List.length hprices
    rw [List.length_map] at hlengths
    exact hlengths
  refine ⟨pass, hpass, hlength, fun hall => ?_⟩
  obtain ⟨first, second, hevents⟩ := List.length_eq_two.mp hlength
  rcases hall 1 second (by rw [hevents]; rfl) with hdelivered | hback
  · rw [settlePass, hevents] at hdelivered
    cases hdelivered
  · exact (Steady.run oneByOne 0 twoTraitOffers).queues.sorted.not_putBack 1 pass _ second hback

end Artgod.Trading
