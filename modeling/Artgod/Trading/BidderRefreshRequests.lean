/-
# What the bidder keeps about its requests

`RequestInv`: a request that is not answered sits in one place, in the pending request of its job or in
the options of its loop, and no callback is called twice.

Every step of a loop is a `Turn`: it changes the entry of one job, tells some of the requests that the
entry held, and keeps the others.  `LoopMove` lists these steps, and the proofs about runs go by cases
on it.
-/
import Mathlib.Data.List.Induction
import Artgod.Trading.BidderRefreshInvariant

namespace Artgod.Trading

open Js
open Function (update_of_ne update_self)

namespace BidderRefreshes

variable {s : BidderRefreshes}

/-! ## 1. Requests and their callbacks -/

variable {jobId : String} {succeeded : Bool} {s' : BidderRefreshes} {entry : JobEntry}
  {told : List RefreshRequest} {r : Nat} {loop : JobLoop}

variable {completions : Nat → List Bool} {requests : List RefreshRequest} {observed : Bool}
  {request : RefreshRequest} {trigger : BidderRefreshTrigger} {now : Int} {promise : Nat}

theorem callObservers_nil :
    callObservers [] succeeded completions = completions := by
  funext r
  simp [callObservers]

theorem callObservers_of_not_mem (h : r ∉ requests.map RefreshRequest.id) :
    callObservers requests succeeded completions r = completions r := by
  have hnone : (requests.filter fun request => request.observed && request.id = r) = [] := by
    rw [List.filter_eq_nil_iff]
    intro request hmem hand
    simp only [Bool.and_eq_true, decide_eq_true_eq] at hand
    exact h (List.mem_map.mpr ⟨request, hmem, hand.2⟩)
  rw [callObservers, hnone, List.map_nil, List.append_nil]

theorem callObservers_of_mem {requests : List RefreshRequest} {succeeded : Bool}
    {completions : Nat → List Bool} {request : RefreshRequest}
    (hnodup : (requests.map RefreshRequest.id).Nodup) (hmem : request ∈ requests) :
    callObservers requests succeeded completions request.id =
      completions request.id ++ (if request.observed then [succeeded] else []) := by
  unfold callObservers
  congr 1
  induction requests with
  | nil => cases hmem
  | cons first rest ih =>
    rw [List.map_cons, List.nodup_cons] at hnodup
    rcases List.mem_cons.mp hmem with rfl | hrest
    · have hnone : (rest.filter fun other => other.observed && other.id = request.id) = [] := by
        rw [List.filter_eq_nil_iff]
        intro other hother hand
        simp only [Bool.and_eq_true, decide_eq_true_eq] at hand
        exact hnodup.1 (List.mem_map.mpr ⟨other, hother, hand.2⟩)
      cases hobserved : request.observed
      · simp [hobserved, hnone]
      · simp [hobserved, hnone]
    · have hne : first.id ≠ request.id :=
        fun heq => hnodup.1 (heq ▸ List.mem_map.mpr ⟨request, hrest, rfl⟩)
      rw [List.filter_cons_of_neg (by simp [hne]), ih hnodup.2 hrest]

/-- An unanswered request sits in one place, and no callback is called twice. -/
structure RequestInv (s : BidderRefreshes) : Prop where
  fresh : ∀ r, s.nextRequest ≤ r → s.requested r = none ∧ s.completions r = []
  nodup : ∀ jobId, ((s.entry jobId).held.map RefreshRequest.id).Nodup
  held : ∀ jobId, ∀ request ∈ (s.entry jobId).held, s.completions request.id = [] ∧
    ∃ record, s.requested request.id = some record ∧ record.jobId = jobId ∧
      record.observed = request.observed
  once : ∀ r, (s.completions r).length ≤ 1
  awaits : ∀ jobId, ∀ request ∈ (s.entry jobId).held, ∀ record, s.requested request.id = some record →
    record.promise = (s.entry jobId).state.inFlightPromise

/-- A step of the loop of one job: it tells `told` and keeps the rest of what the entry held. -/
structure Turn (s s' : BidderRefreshes) (jobId : String) (entry : JobEntry) (told : List RefreshRequest)
    (succeeded : Bool) : Prop where
  entries : s'.entries = (s.putEntry jobId entry).entries
  completions : s'.completions = callObservers told succeeded s.completions
  requested : s'.requested = s.requested
  nextRequest : s'.nextRequest = s.nextRequest
  kept : (entry.held ++ told).Sublist (s.entry jobId).held
  promise : entry.held ≠ [] → entry.state.inFlightPromise = (s.entry jobId).state.inFlightPromise
  immediates : s'.immediates = s.immediates

theorem Turn.entry_self (h : s.Turn s' jobId entry told succeeded) :
    s'.entry jobId = entry := by
  unfold BidderRefreshes.entry
  rw [h.entries]
  exact entry_putEntry_self

theorem Turn.entry_of_ne {other : String}
    (h : s.Turn s' jobId entry told succeeded)
    (hne : other ≠ jobId) : s'.entry other = s.entry other := by
  unfold BidderRefreshes.entry
  rw [h.entries]
  exact entry_putEntry_of_ne hne

theorem RequestInv.record_of_id (h : s.RequestInv)
    (hsub : ∀ request ∈ requests, request ∈ (s.entry jobId).held)
    (hmem : r ∈ requests.map RefreshRequest.id) :
    s.completions r = [] ∧ ∃ record, s.requested r = some record ∧ record.jobId = jobId := by
  obtain ⟨request, hrequest, rfl⟩ := List.mem_map.mp hmem
  obtain ⟨hnone, record, hrecord, hjob, -⟩ := h.held jobId request (hsub request hrequest)
  exact ⟨hnone, record, hrecord, hjob⟩

theorem RequestInv.untold (h : s.RequestInv)
    (hsub : ∀ request ∈ told, request ∈ (s.entry jobId).held)
    (hother : ∀ record, s.requested r = some record → record.jobId ≠ jobId) :
    callObservers told succeeded s.completions r = s.completions r := by
  refine callObservers_of_not_mem fun hmem => ?_
  obtain ⟨-, record, hrecord, hjob⟩ := h.record_of_id hsub hmem
  exact hother record hrecord hjob

theorem RequestInv.turn (h : s.RequestInv)
    (hturn : s.Turn s' jobId entry told succeeded) :
    s'.RequestInv := by
  have htold : ∀ request ∈ told, request ∈ (s.entry jobId).held :=
    fun request hmem => hturn.kept.subset (List.mem_append_right _ hmem)
  have hnodup : ((entry.held ++ told).map RefreshRequest.id).Nodup :=
    (h.nodup jobId).sublist (hturn.kept.map RefreshRequest.id)
  refine ⟨?_, ?_, ?_, ?_, ?_⟩
  · intro r hle
    rw [hturn.nextRequest] at hle
    obtain ⟨hrequested, hcompletions⟩ := h.fresh r hle
    rw [hturn.requested, hturn.completions, h.untold htold fun record hrecord => by
      rw [hrequested] at hrecord
      cases hrecord]
    exact ⟨hrequested, hcompletions⟩
  · intro other
    rcases eq_or_ne other jobId with rfl | hne
    · rw [hturn.entry_self]
      rw [List.map_append] at hnodup
      exact (List.nodup_append.mp hnodup).1
    · rw [hturn.entry_of_ne hne]
      exact h.nodup other
  · intro other request hmem
    rw [hturn.requested, hturn.completions]
    rcases eq_or_ne other jobId with rfl | hne
    · rw [hturn.entry_self] at hmem
      obtain ⟨hnone, hrecord⟩ :=
        h.held other request (hturn.kept.subset (List.mem_append_left _ hmem))
      refine ⟨?_, hrecord⟩
      rw [callObservers_of_not_mem, hnone]
      intro hid
      rw [List.map_append] at hnodup
      exact (List.disjoint_of_nodup_append hnodup) (List.mem_map.mpr ⟨request, hmem, rfl⟩) hid
    · rw [hturn.entry_of_ne hne] at hmem
      obtain ⟨hnone, record, hrecord, hjob, hobserved⟩ := h.held other request hmem
      refine ⟨?_, record, hrecord, hjob, hobserved⟩
      rw [h.untold htold fun record' hrecord' => by
        rw [hrecord] at hrecord'
        cases hrecord'
        exact hjob ▸ hne]
      exact hnone
  · intro r
    rw [hturn.completions]
    by_cases hmem : r ∈ told.map RefreshRequest.id
    · obtain ⟨request, hrequest, rfl⟩ := List.mem_map.mp hmem
      rw [List.map_append] at hnodup
      rw [callObservers_of_mem (List.nodup_append.mp hnodup).2.1 hrequest,
        (h.held jobId request (htold request hrequest)).1]
      split <;> simp
    · rw [callObservers_of_not_mem hmem]
      exact h.once r
  · intro other request hmem record hrecord
    rw [hturn.requested] at hrecord
    rcases eq_or_ne other jobId with rfl | hne
    · rw [hturn.entry_self] at hmem ⊢
      rw [hturn.promise (List.ne_nil_of_mem hmem)]
      exact h.awaits other request (hturn.kept.subset (List.mem_append_left _ hmem)) record hrecord
    · rw [hturn.entry_of_ne hne] at hmem ⊢
      exact h.awaits other request hmem record hrecord

/-! ## 2. What a step of a loop can do -/

theorem held_of_loop (h : entry.loop = some loop) :
    entry.held = entry.state.pendingRequests ++ loop.carried := by
  rw [JobEntry.held, h]
  rfl

theorem carried_of_phase (h : loop.phase = .slot ∨ loop.phase = .mutex ∨
    loop.phase = .executing) : loop.carried = loop.options.requests := by
  unfold JobLoop.carried JobLoop.waiting
  rcases h with h | h | h
  · simp [h]
  · simp [h]
  · simp [h]

theorem carried_eq_nil (h : loop.phase = .released ∨ ∃ fulfilled,
    loop.phase = .returned fulfilled) : loop.carried = [] := by
  unfold JobLoop.carried JobLoop.waiting
  rcases h with h | ⟨fulfilled, h⟩
  · simp [h]
  · simp [h]

/-- The steps of the loop of a job, with what each changes in the entry and which requests it tells. -/
inductive LoopMove (s s' : BidderRefreshes) (jobId : String) : Prop
  | granted {loop : JobLoop} (at_loop : (s.entry jobId).loop = some loop) (phase : loop.phase = .slot)
      (turn : s.Turn s' jobId { s.entry jobId with loop := some { loop with phase := .mutex } } [] true)
      (executions : s'.executions = s.executions)
  | entered {loop : JobLoop} (at_loop : (s.entry jobId).loop = some loop) (phase : loop.phase = .mutex)
      (accepting : s.acceptingBackgroundRefreshes = true)
      (turn : s.Turn s' jobId
        { state := { (s.entry jobId).state with executing := true }
          loop := some { loop with phase := .executing } } [] true)
      (executions : s'.executions = s.executions ++
        [⟨jobId, loop.promise, true, loop.options.requests.map RefreshRequest.id, s.tick,
          s.scheduled jobId⟩])
  | discarded {loop : JobLoop} (at_loop : (s.entry jobId).loop = some loop) (phase : loop.phase = .mutex)
      (closed : s.acceptingBackgroundRefreshes = false)
      (turn : s.Turn s' jobId { s.entry jobId with loop := some { loop with phase := .released } }
        loop.options.requests false)
      (executions : s'.executions = s.executions)
  | finished {loop : JobLoop} (at_loop : (s.entry jobId).loop = some loop)
      (phase : loop.phase = .executing) (succeeded : Bool)
      (turn : s.Turn s' jobId
        { state := { (s.entry jobId).state with executing := false }
          loop := some { loop with phase := .released } } loop.options.requests succeeded)
      (executions : s'.executions = s.executions)
  | taken {loop : JobLoop} (at_loop : (s.entry jobId).loop = some loop) (phase : loop.phase = .released)
      (pending : (s.entry jobId).pending = true) (now : Int)
      (turn : s.Turn s' jobId
        { state := (s.entry jobId).state.clearPending
          loop := some
            { loop with
              context := (s.entry jobId).state.pendingContext
              options := (s.entry jobId).state.takenOptions now
              phase := .slot } } [] true)
      (executions : s'.executions = s.executions)
  | returned {loop : JobLoop} (at_loop : (s.entry jobId).loop = some loop)
      (phase : loop.phase = .released) (pending : (s.entry jobId).pending = false)
      (turn : s.Turn s' jobId { s.entry jobId with loop := some { loop with phase := .returned true } }
        [] true)
      (executions : s'.executions = s.executions)
  | ended {loop : JobLoop} (at_loop : (s.entry jobId).loop = some loop) (fulfilled : Bool)
      (phase : loop.phase = .returned fulfilled)
      (turn : s.Turn s' jobId
        { state := { (s.entry jobId).state.clearPending with running := false, inFlightPromise := none }
          loop := none } [] true)
      (executions : s'.executions = s.executions)
      (settled : s'.settled = Function.update s.settled loop.promise (some fulfilled))

theorem Turn.quiet
    (hentries : s'.entries = (s.putEntry jobId entry).entries) (hcompletions : s'.completions = s.completions)
    (hrequested : s'.requested = s.requested) (hnext : s'.nextRequest = s.nextRequest)
    (hkept : entry.held.Sublist (s.entry jobId).held)
    (hpromise : entry.held ≠ [] → entry.state.inFlightPromise = (s.entry jobId).state.inFlightPromise)
    (himmediates : s'.immediates = s.immediates) : s.Turn s' jobId entry [] true := by
  refine ⟨hentries, ?_, hrequested, hnext, ?_, hpromise, himmediates⟩
  · rw [callObservers_nil, hcompletions]
  · rw [List.append_nil]
    exact hkept

theorem grantSlot_cases (jobId : String) : s.grantSlot jobId = s ∨ s.LoopMove (s.grantSlot jobId) jobId := by
  unfold BidderRefreshes.grantSlot
  split
  · exact .inl rfl
  rename_i loop hloop
  split
  · rename_i hphase
    refine .inr (.granted hloop hphase.1 (Turn.quiet rfl rfl rfl rfl ?_ (fun _ => rfl) rfl) rfl)
    rw [held_of_loop hloop, held_of_loop rfl, carried_of_phase (.inl hphase.1),
      carried_of_phase (.inr (.inl rfl))]
  · exact .inl rfl

theorem grantMutex_cases (jobId : String) :
    s.grantMutex jobId = s ∨ s.LoopMove (s.grantMutex jobId) jobId := by
  unfold BidderRefreshes.grantMutex
  split
  · exact .inl rfl
  rename_i loop hloop
  split
  · rename_i hphase
    have hcarried := carried_of_phase (.inr (.inl hphase.1))
    split
    · rename_i hclosed
      refine .inr (.discarded hloop hphase.1 (by simpa using hclosed) ⟨rfl, rfl, rfl, rfl, ?_, fun _ => rfl, rfl⟩ rfl)
      rw [held_of_loop hloop, held_of_loop rfl, hcarried, carried_eq_nil (.inl rfl), List.append_nil]
    · rename_i hopen
      refine .inr (.entered hloop hphase.1 (by simpa using hopen) (Turn.quiet rfl rfl rfl rfl ?_ (fun _ => rfl) rfl) rfl)
      rw [held_of_loop hloop, held_of_loop rfl, hcarried, carried_of_phase (.inr (.inr rfl))]
  · exact .inl rfl

theorem finishExecution_cases (h : s.EntriesInv) (jobId : String) (succeeded : Bool) :
    s.finishExecution jobId succeeded = s ∨ s.LoopMove (s.finishExecution jobId succeeded) jobId := by
  unfold BidderRefreshes.finishExecution
  split
  · exact .inl rfl
  rename_i loop hloop
  split
  · rename_i hphase
    rw [h.finishedPhase hloop]
    refine .inr (.finished hloop hphase succeeded ⟨rfl, rfl, rfl, rfl, ?_, fun _ => rfl, rfl⟩ rfl)
    rw [held_of_loop hloop, held_of_loop rfl, carried_of_phase (.inr (.inr hphase)),
      carried_eq_nil (.inl rfl), List.append_nil]
  · exact .inl rfl

theorem continueLoop_cases (jobId : String) (now : Int) :
    s.continueLoop jobId now = s ∨ s.LoopMove (s.continueLoop jobId now) jobId := by
  unfold BidderRefreshes.continueLoop
  split
  · exact .inl rfl
  rename_i loop hloop
  split
  · rename_i hphase
    have hcarried := carried_eq_nil (.inl hphase)
    split
    · rename_i hpending
      refine .inr (.taken hloop hphase hpending now (Turn.quiet rfl rfl rfl rfl ?_ (fun _ => rfl) rfl) rfl)
      rw [held_of_loop hloop, held_of_loop rfl, hcarried, carried_of_phase (.inl rfl), List.append_nil]
      exact List.Sublist.refl _
    · rename_i hpending
      refine .inr (.returned hloop hphase (by simpa using hpending) (Turn.quiet rfl rfl rfl rfl ?_ (fun _ => rfl) rfl) rfl)
      rw [held_of_loop hloop, held_of_loop rfl, hcarried, carried_eq_nil (.inr ⟨true, rfl⟩)]
  · exact .inl rfl

theorem runFinally_cases (jobId : String) :
    s.runFinally jobId = s ∨ s.LoopMove (s.runFinally jobId) jobId := by
  unfold BidderRefreshes.runFinally
  split
  · exact .inl rfl
  rename_i loop hloop
  split
  · rename_i fulfilled hphase
    refine .inr (.ended hloop fulfilled hphase ?_ rfl rfl)
    exact Turn.quiet rfl rfl rfl rfl (List.nil_sublist _) (fun hno => absurd rfl hno) rfl
  · exact .inl rfl

theorem RequestInv.move (h : s.RequestInv)
    (hmove : s.LoopMove s' jobId) : s'.RequestInv := by
  cases hmove with
  | granted _ _ turn => exact h.turn turn
  | entered _ _ _ turn => exact h.turn turn
  | discarded _ _ _ turn => exact h.turn turn
  | finished _ _ _ turn => exact h.turn turn
  | taken _ _ _ _ turn => exact h.turn turn
  | returned _ _ _ turn => exact h.turn turn
  | ended _ _ _ turn => exact h.turn turn

theorem RequestInv.next_not_held (h : s.RequestInv) (jobId : String) :
    s.nextRequest ∉ (s.entry jobId).held.map RefreshRequest.id := by
  intro hmem
  obtain ⟨-, record, hrecord, -⟩ := h.record_of_id (fun _ => id) hmem
  rw [(h.fresh s.nextRequest (Nat.le_refl _)).1] at hrecord
  cases hrecord

theorem RequestInv.accept (h : s.RequestInv)
    {record : RequestRecord} (hjob : record.jobId = jobId)
    (hobserved : record.observed = observed)
    (hentries : s'.entries = (s.putEntry jobId entry).entries) (hcompletions : s'.completions = s.completions)
    (hrequested : s'.requested = Function.update s.requested s.nextRequest (some record))
    (hnext : s'.nextRequest = s.nextRequest + 1)
    (hheld : entry.held.Perm (⟨s.nextRequest, observed⟩ :: (s.entry jobId).held))
    (hpromise : record.promise = entry.state.inFlightPromise)
    (hsame : (s.entry jobId).held ≠ [] →
      entry.state.inFlightPromise = (s.entry jobId).state.inFlightPromise) : s'.RequestInv := by
  have hself : s'.entry jobId = entry := by
    unfold BidderRefreshes.entry
    rw [hentries]
    exact entry_putEntry_self
  have hother : ∀ other, other ≠ jobId → s'.entry other = s.entry other := by
    intro other hne
    unfold BidderRefreshes.entry
    rw [hentries]
    exact entry_putEntry_of_ne hne
  -- an old request keeps its record
  have hold : ∀ other, ∀ request ∈ (s.entry other).held, s'.completions request.id = [] ∧
      ∃ record, s'.requested request.id = some record ∧ record.jobId = other ∧
        record.observed = request.observed := by
    intro other request hmem
    have hne : request.id ≠ s.nextRequest :=
      fun heq => h.next_not_held other (heq ▸ List.mem_map.mpr ⟨request, hmem, rfl⟩)
    rw [hcompletions, hrequested, update_of_ne hne]
    exact h.held other request hmem
  have hawaits : ∀ other, ∀ request ∈ (s.entry other).held, ∀ record,
      s'.requested request.id = some record →
        record.promise = (s.entry other).state.inFlightPromise := by
    intro other request hmem record hrecord
    have hne : request.id ≠ s.nextRequest :=
      fun heq => h.next_not_held other (heq ▸ List.mem_map.mpr ⟨request, hmem, rfl⟩)
    rw [hrequested, update_of_ne hne] at hrecord
    exact h.awaits other request hmem record hrecord
  refine ⟨?_, ?_, ?_, ?_, ?_⟩
  · intro r hle
    rw [hnext] at hle
    rw [hcompletions, hrequested, update_of_ne (Nat.ne_of_gt hle)]
    exact h.fresh r (Nat.le_of_succ_le hle)
  · intro other
    rcases eq_or_ne other jobId with rfl | hne
    · rw [hself, (hheld.map RefreshRequest.id).nodup_iff, List.map_cons, List.nodup_cons]
      exact ⟨h.next_not_held other, h.nodup other⟩
    · rw [hother other hne]
      exact h.nodup other
  · intro other request hmem
    rcases eq_or_ne other jobId with rfl | hne
    · rw [hself] at hmem
      rcases List.mem_cons.mp (hheld.subset hmem) with rfl | hmem'
      · refine ⟨?_, record, ?_, hjob, hobserved⟩
        · rw [hcompletions]
          exact (h.fresh s.nextRequest (Nat.le_refl _)).2
        · rw [hrequested, update_self]
      · exact hold other request hmem'
    · rw [hother other hne] at hmem
      exact hold other request hmem
  · intro r
    rw [hcompletions]
    exact h.once r
  · intro other request hmem record' hrecord'
    rcases eq_or_ne other jobId with rfl | hne
    · rw [hself] at hmem ⊢
      rcases List.mem_cons.mp (hheld.subset hmem) with rfl | hmem'
      · rw [hrequested, update_self] at hrecord'
        cases hrecord'
        exact hpromise
      · rw [hsame (List.ne_nil_of_mem hmem')]
        exact hawaits other request hmem' record' hrecord'
    · rw [hother other hne] at hmem ⊢
      exact hawaits other request hmem record' hrecord'

theorem RequestInv.refuse (h : s.RequestInv) (jobId : String) (observed : Bool) :
    RequestInv { s.record jobId observed none with
      completions := callObservers [⟨s.nextRequest, observed⟩] false s.completions } := by
  have hcompletions : ∀ r, r ≠ s.nextRequest →
      callObservers [⟨s.nextRequest, observed⟩] false s.completions r = s.completions r :=
    fun r hne => callObservers_of_not_mem (by simpa using hne)
  refine ⟨?_, h.nodup, ?_, ?_, ?_⟩
  · intro r hle
    have hne : r ≠ s.nextRequest := Nat.ne_of_gt hle
    obtain ⟨hrequested, hnone⟩ := h.fresh r (Nat.le_of_succ_le hle)
    exact ⟨(update_of_ne hne ..).trans hrequested, (hcompletions r hne).trans hnone⟩
  · intro other request hmem
    have hne : request.id ≠ s.nextRequest :=
      fun heq => h.next_not_held other (heq ▸ List.mem_map.mpr ⟨request, hmem, rfl⟩)
    obtain ⟨hnone, record, hrecord, hjob, hobserved⟩ := h.held other request hmem
    exact ⟨(hcompletions _ hne).trans hnone, record, (update_of_ne hne ..).trans hrecord, hjob,
      hobserved⟩
  · intro r
    by_cases hr : r = s.nextRequest
    · have hone : callObservers [⟨s.nextRequest, observed⟩] false s.completions s.nextRequest =
          s.completions s.nextRequest ++ (if observed then [false] else []) :=
        @callObservers_of_mem _ false s.completions ⟨s.nextRequest, observed⟩ (by simp)
          (List.mem_singleton_self _)
      show (callObservers [⟨s.nextRequest, observed⟩] false s.completions r).length ≤ 1
      rw [hr, hone, (h.fresh s.nextRequest (Nat.le_refl _)).2]
      split <;> simp
    · show (callObservers [⟨s.nextRequest, observed⟩] false s.completions r).length ≤ 1
      rw [hcompletions r hr]
      exact h.once r
  · intro other request hmem record hrecord
    have hne : request.id ≠ s.nextRequest :=
      fun heq => h.next_not_held other (heq ▸ List.mem_map.mpr ⟨request, hmem, rfl⟩)
    exact h.awaits other request hmem record ((update_of_ne hne ..).symm.trans hrecord)

theorem RequestInv.refreshJobWithOptions (h : s.RequestInv) (hentries : s.EntriesInv) (jobId : String)
    (context : Option ProgressContext) (throwOnFailure : Bool) (trigger : BidderRefreshTrigger) (now : Int)
    (observed : Bool) :
    (s.refreshJobWithOptions jobId context throwOnFailure trigger now observed).RequestInv := by
  unfold BidderRefreshes.refreshJobWithOptions
  simp only
  split
  · exact h.refuse jobId observed
  split
  · refine h.accept rfl rfl rfl rfl rfl rfl ?_ (by rfl) ?_
    · unfold JobEntry.held JobExecutionState.coalesce
      simp only [List.append_assoc]
      exact List.perm_middle
    · exact fun _ => rfl
  · rename_i hidle
    have hnot : (s.entry jobId).state.running = false := by simpa using hidle
    have hnone : (s.entry jobId).held = [] := by
      rw [JobEntry.held, hentries.idle_loop hnot,
        (hentries jobId).unpended ((hentries jobId).idle hnot)]
      rfl
    refine h.accept rfl rfl rfl rfl rfl rfl ?_ rfl fun hno => absurd hnone hno
    rw [hnone]
    exact List.Perm.refl _

theorem entry_of_get (h : s.entries.get jobId = some entry) :
    s.entry jobId = entry := by
  rw [BidderRefreshes.entry, h]
  rfl

/-- The pending requests of all jobs. -/
def allPending (s : BidderRefreshes) : List RefreshRequest :=
  s.entries.values.flatMap fun entry => entry.state.pendingRequests

theorem mem_allPending :
    request ∈ s.allPending ↔ ∃ jobId, request ∈ (s.entry jobId).state.pendingRequests := by
  unfold allPending
  rw [List.mem_flatMap]
  constructor
  · rintro ⟨entry, hentry, hmem⟩
    obtain ⟨jobId, hget⟩ := OrderedMap.mem_values.mp hentry
    exact ⟨jobId, entry_of_get hget ▸ hmem⟩
  · rintro ⟨jobId, hmem⟩
    cases hget : s.entries.get jobId with
    | none =>
      rw [BidderRefreshes.entry, hget] at hmem
      cases hmem
    | some entry =>
      exact ⟨entry, OrderedMap.mem_values.mpr ⟨jobId, hget⟩, entry_of_get hget ▸ hmem⟩

theorem pending_subset_held (h : request ∈ entry.state.pendingRequests) : request ∈ entry.held :=
  List.mem_append_left _ h

theorem RequestInv.allPending_nodup (h : s.RequestInv) : (s.allPending.map RefreshRequest.id).Nodup := by
  have hjobs : (s.entries.entries.map Prod.fst).Nodup := s.entries.table.keyed
  have hlist : s.allPending.map RefreshRequest.id = s.entries.entries.flatMap fun keyed =>
      keyed.2.state.pendingRequests.map RefreshRequest.id := by
    rw [allPending, OrderedMap.values, List.flatMap_map, List.map_flatMap]
  rw [hlist, List.nodup_flatMap]
  refine ⟨?_, ?_⟩
  · rintro ⟨jobId, entry⟩ hmem
    have hentry := entry_of_get (OrderedMap.mem_entries.mp hmem)
    have hnodup := h.nodup jobId
    rw [hentry, JobEntry.held, List.map_append] at hnodup
    exact (List.nodup_append.mp hnodup).1
  · refine (List.pairwise_map.mp hjobs).imp_of_mem ?_
    rintro ⟨job₁, entry₁⟩ ⟨job₂, entry₂⟩ hmem₁ hmem₂ hne r hr₁ hr₂
    have hentry₁ := entry_of_get (OrderedMap.mem_entries.mp hmem₁)
    have hentry₂ := entry_of_get (OrderedMap.mem_entries.mp hmem₂)
    obtain ⟨-, record₁, hrecord₁, hjob₁⟩ :=
      h.record_of_id (fun _ hmem => hentry₁ ▸ pending_subset_held hmem) hr₁
    obtain ⟨-, record₂, hrecord₂, hjob₂⟩ :=
      h.record_of_id (fun _ hmem => hentry₂ ▸ pending_subset_held hmem) hr₂
    rw [hrecord₁] at hrecord₂
    cases hrecord₂
    exact hne (hjob₁.symm.trans hjob₂)

theorem held_close : (s.closeBackgroundRefreshAdmission.entry jobId).held =
    ((s.entry jobId).loop.map JobLoop.carried).getD [] := by
  rw [entry_close]
  rfl

theorem RequestInv.close (h : s.RequestInv) : s.closeBackgroundRefreshAdmission.RequestInv := by
  have hcompletions : s.closeBackgroundRefreshAdmission.completions =
      callObservers s.allPending false s.completions := rfl
  refine ⟨?_, ?_, ?_, ?_, ?_⟩
  · intro r hle
    obtain ⟨hrequested, hnone⟩ := h.fresh r hle
    refine ⟨hrequested, ?_⟩
    rw [hcompletions, callObservers_of_not_mem, hnone]
    intro hmem
    obtain ⟨request, hrequest, rfl⟩ := List.mem_map.mp hmem
    obtain ⟨jobId, hpending⟩ := mem_allPending.mp hrequest
    obtain ⟨-, record, hrecord, -⟩ := h.held jobId request (pending_subset_held hpending)
    rw [hrequested] at hrecord
    cases hrecord
  · intro jobId
    rw [held_close]
    have hnodup := h.nodup jobId
    rw [JobEntry.held, List.map_append] at hnodup
    exact (List.nodup_append.mp hnodup).2.1
  · intro jobId request hmem
    rw [held_close] at hmem
    obtain ⟨hnone, record, hrecord, hjob, hobserved⟩ :=
      h.held jobId request (List.mem_append_right _ hmem)
    refine ⟨?_, record, hrecord, hjob, hobserved⟩
    rw [hcompletions, callObservers_of_not_mem, hnone]
    -- a pending request with this number would be pending at this job, beside the carried one
    intro hpending
    obtain ⟨other, hother, hid⟩ := List.mem_map.mp hpending
    obtain ⟨otherJob, hpending'⟩ := mem_allPending.mp hother
    obtain ⟨-, record', hrecord', hjob', -⟩ := h.held otherJob other (pending_subset_held hpending')
    rw [hid, hrecord] at hrecord'
    cases hrecord'
    have hnodup := h.nodup jobId
    rw [JobEntry.held, List.map_append] at hnodup
    refine List.disjoint_of_nodup_append hnodup (List.mem_map.mpr ⟨other, ?_, hid⟩)
      (List.mem_map.mpr ⟨request, hmem, rfl⟩)
    rw [← hjob, hjob']
    exact hpending'
  · intro r
    rw [hcompletions]
    by_cases hmem : r ∈ s.allPending.map RefreshRequest.id
    · obtain ⟨request, hrequest, rfl⟩ := List.mem_map.mp hmem
      obtain ⟨jobId, hpending⟩ := mem_allPending.mp hrequest
      rw [callObservers_of_mem h.allPending_nodup hrequest,
        (h.held jobId request (pending_subset_held hpending)).1]
      split <;> simp
    · rw [callObservers_of_not_mem hmem]
      exact h.once r
  · intro jobId request hmem record hrecord
    rw [held_close] at hmem
    rw [entry_close]
    exact h.awaits jobId request (List.mem_append_right _ hmem) record hrecord

theorem RequestInv.congr (h : s.RequestInv) (hentries : s'.entries = s.entries)
    (hrequested : s'.requested = s.requested) (hnext : s'.nextRequest = s.nextRequest)
    (hcompletions : s'.completions = s.completions) : s'.RequestInv := by
  have hentry : ∀ jobId, s'.entry jobId = s.entry jobId := by
    intro jobId
    rw [BidderRefreshes.entry, hentries]
    rfl
  refine ⟨?_, ?_, ?_, ?_, ?_⟩
  · rw [hrequested, hnext, hcompletions]
    exact h.fresh
  · intro jobId
    rw [hentry]
    exact h.nodup jobId
  · intro jobId
    rw [hentry, hrequested, hcompletions]
    exact h.held jobId
  · rw [hcompletions]
    exact h.once
  · intro jobId
    rw [hentry, hrequested]
    exact h.awaits jobId

theorem RequestInv.of_cases (h : s.RequestInv)
    (hcases : s' = s ∨ s.LoopMove s' jobId) : s'.RequestInv := by
  rcases hcases with rfl | hmove
  · exact h
  · exact h.move hmove

theorem RequestInv.immediate (h : s.RequestInv) {e : RefreshEvent}
    (he : (∃ jobId trigger, e = .refreshJobImmediately jobId trigger) ∨ (∃ promise, e = .grantImmediate promise) ∨
      ∃ promise succeeded, e = .finishImmediate promise succeeded) : (s.handle e).RequestInv := by
  rcases he with ⟨jobId, trigger, rfl⟩ | ⟨promise, rfl⟩ | ⟨promise, succeeded, rfl⟩
  · simp only [BidderRefreshes.handle]
    unfold BidderRefreshes.refreshJobImmediately
    split
    · exact h
    · split
      · exact h
      · exact h.congr rfl rfl rfl rfl
  · simp only [BidderRefreshes.handle]
    unfold BidderRefreshes.grantImmediate
    split
    · exact h
    split
    · split
      · exact h.congr rfl rfl rfl rfl
      · exact h.congr rfl rfl rfl rfl
    · exact h
  · simp only [BidderRefreshes.handle]
    unfold BidderRefreshes.finishImmediate
    split
    · exact h
    · split
      · exact h.congr rfl rfl rfl rfl
      · exact h

theorem RequestInv.handle (h : s.RequestInv) (hentries : s.EntriesInv) (e : RefreshEvent) :
    (s.handle e).RequestInv := by
  cases e with
  | addJob jobId => exact h.congr rfl rfl rfl rfl
  | removeJob jobId => exact h.congr rfl rfl rfl rfl
  | refreshJob jobId context trigger now => exact h.refreshJobWithOptions hentries jobId _ _ _ _ _
  | refreshJobForScan jobId context now => exact h.refreshJobWithOptions hentries jobId _ _ _ _ _
  | refreshJobImmediately jobId trigger => exact h.immediate (.inl ⟨jobId, trigger, rfl⟩)
  | grantSlot jobId => exact h.of_cases (grantSlot_cases jobId)
  | grantMutex jobId => exact h.of_cases (grantMutex_cases jobId)
  | finishExecution jobId succeeded => exact h.of_cases (finishExecution_cases hentries jobId succeeded)
  | continueLoop jobId now => exact h.of_cases (continueLoop_cases jobId now)
  | runFinally jobId => exact h.of_cases (runFinally_cases jobId)
  | grantImmediate promise => exact h.immediate (.inr (.inl ⟨promise, rfl⟩))
  | finishImmediate promise succeeded => exact h.immediate (.inr (.inr ⟨promise, succeeded, rfl⟩))
  | lockElsewhere jobId => exact h.congr rfl rfl rfl rfl
  | unlockElsewhere jobId => exact h.congr rfl rfl rfl rfl
  | closeBackgroundRefreshAdmission => exact h.close
  | stop =>
    have hopen : RequestInv { s with acceptingRefreshes := false } := h.congr rfl rfl rfl rfl
    exact hopen.close

/-! ## 3. All runs -/

/-- What only the calls that name it change: the clock, the admission and the schedule. -/
structure SameSettings (s s' : BidderRefreshes) : Prop where
  tick : s'.tick = s.tick
  accepting : s'.acceptingBackgroundRefreshes = s.acceptingBackgroundRefreshes
  scheduled : s'.scheduled = s.scheduled

theorem SameSettings.refl (s : BidderRefreshes) : s.SameSettings s := ⟨rfl, rfl, rfl⟩

theorem sameSettings_refreshJobWithOptions {context : Option ProgressContext}
    {throwOnFailure : Bool} :
    s.SameSettings (s.refreshJobWithOptions jobId context throwOnFailure trigger now observed) := by
  unfold BidderRefreshes.refreshJobWithOptions
  simp only
  split
  · exact ⟨rfl, rfl, rfl⟩
  · split
    · exact ⟨rfl, rfl, rfl⟩
    · exact ⟨rfl, rfl, rfl⟩

theorem sameSettings_refreshJobImmediately :
    s.SameSettings (s.refreshJobImmediately jobId trigger) := by
  unfold BidderRefreshes.refreshJobImmediately
  split
  · exact .refl s
  · split
    · exact .refl s
    · exact ⟨rfl, rfl, rfl⟩

theorem sameSettings_grantSlot : s.SameSettings (s.grantSlot jobId) := by
  unfold BidderRefreshes.grantSlot
  split
  · exact .refl s
  · split
    · exact ⟨rfl, rfl, rfl⟩
    · exact .refl s

theorem sameSettings_grantMutex : s.SameSettings (s.grantMutex jobId) := by
  unfold BidderRefreshes.grantMutex
  split
  · exact .refl s
  split
  · split
    · exact ⟨rfl, rfl, rfl⟩
    · exact ⟨rfl, rfl, rfl⟩
  · exact .refl s

theorem sameSettings_finishExecution :
    s.SameSettings (s.finishExecution jobId succeeded) := by
  unfold BidderRefreshes.finishExecution
  split
  · exact .refl s
  · split
    · exact ⟨rfl, rfl, rfl⟩
    · exact .refl s

theorem sameSettings_continueLoop :
    s.SameSettings (s.continueLoop jobId now) := by
  unfold BidderRefreshes.continueLoop
  split
  · exact .refl s
  split
  · split
    · exact ⟨rfl, rfl, rfl⟩
    · exact ⟨rfl, rfl, rfl⟩
  · exact .refl s

theorem sameSettings_runFinally : s.SameSettings (s.runFinally jobId) := by
  unfold BidderRefreshes.runFinally
  split
  · exact .refl s
  · split
    · exact ⟨rfl, rfl, rfl⟩
    · exact .refl s

theorem sameSettings_grantImmediate : s.SameSettings (s.grantImmediate promise) := by
  unfold BidderRefreshes.grantImmediate
  split
  · exact .refl s
  split
  · split
    · exact ⟨rfl, rfl, rfl⟩
    · exact ⟨rfl, rfl, rfl⟩
  · exact .refl s

theorem sameSettings_finishImmediate :
    s.SameSettings (s.finishImmediate promise succeeded) := by
  unfold BidderRefreshes.finishImmediate
  split
  · exact .refl s
  · split
    · exact ⟨rfl, rfl, rfl⟩
    · exact .refl s

theorem settings_handle (s : BidderRefreshes) (e : RefreshEvent) :
    s.SameSettings (s.handle e) ∨ (∃ jobId, e = .addJob jobId) ∨ (∃ jobId, e = .removeJob jobId) ∨
      e = .closeBackgroundRefreshAdmission ∨ e = .stop := by
  cases e with
  | addJob jobId => exact .inr (.inl ⟨jobId, rfl⟩)
  | removeJob jobId => exact .inr (.inr (.inl ⟨jobId, rfl⟩))
  | refreshJob jobId context trigger now => exact .inl sameSettings_refreshJobWithOptions
  | refreshJobForScan jobId context now => exact .inl sameSettings_refreshJobWithOptions
  | refreshJobImmediately jobId trigger => exact .inl sameSettings_refreshJobImmediately
  | grantSlot jobId => exact .inl sameSettings_grantSlot
  | grantMutex jobId => exact .inl sameSettings_grantMutex
  | finishExecution jobId succeeded => exact .inl sameSettings_finishExecution
  | continueLoop jobId now => exact .inl sameSettings_continueLoop
  | runFinally jobId => exact .inl sameSettings_runFinally
  | grantImmediate promise => exact .inl sameSettings_grantImmediate
  | finishImmediate promise succeeded => exact .inl sameSettings_finishImmediate
  | lockElsewhere jobId => exact .inl ⟨rfl, rfl, rfl⟩
  | unlockElsewhere jobId => exact .inl ⟨rfl, rfl, rfl⟩
  | closeBackgroundRefreshAdmission => exact .inr (.inr (.inr (.inl rfl)))
  | stop => exact .inr (.inr (.inr (.inr rfl)))

theorem tick_handle (s : BidderRefreshes) (e : RefreshEvent) : (s.handle e).tick = s.tick := by
  rcases settings_handle s e with hsame | ⟨jobId, rfl⟩ | ⟨jobId, rfl⟩ | rfl | rfl
  · exact hsame.tick
  · rfl
  · rfl
  · rfl
  · rfl

@[simp] theorem tick_step (s : BidderRefreshes) (e : RefreshEvent) : (s.step e).tick = s.tick + 1 :=
  congrArg (· + 1) (tick_handle s e)

theorem tick_after (maxConcurrentJobs : Nat) (es : List RefreshEvent) :
    (BidderRefreshes.after maxConcurrentJobs es).tick = es.length := by
  induction es using List.reverseRecOn with
  | nil => rfl
  | append_singleton es e ih =>
    rw [BidderRefreshes.after, Machine.run_concat, tick_step, List.length_append, List.length_singleton]
    exact congrArg (· + 1) ih

/-- The invariant of the bidder's refreshes. -/
structure RefreshInv (s : BidderRefreshes) : Prop where
  entries : s.EntriesInv
  pressure : s.PressureInv
  requests : s.RequestInv

theorem RefreshInv.initial (maxConcurrentJobs : Nat) :
    (BidderRefreshes.initial maxConcurrentJobs).RefreshInv where
  entries := fun _ => EntryInv.ofIdle
  pressure := .initial maxConcurrentJobs
  requests := ⟨fun _ _ => ⟨rfl, rfl⟩, fun _ => List.nodup_nil, (fun _ _ hmem => nomatch hmem),
    fun _ => Nat.zero_le _, (fun _ _ hmem => nomatch hmem)⟩

theorem RefreshInv.step (h : s.RefreshInv) (e : RefreshEvent) : (s.step e).RefreshInv where
  entries := h.entries.step e
  pressure := h.pressure.step h.entries e
  requests := (h.requests.handle h.entries e).congr rfl rfl rfl rfl

/-- **The counters, the places of the requests and the single callbacks hold in every run.** -/
theorem RefreshInv.after (maxConcurrentJobs : Nat) (es : List RefreshEvent) :
    (BidderRefreshes.after maxConcurrentJobs es).RefreshInv :=
  Machine.run_invariant (fun _ e h => h.step e) (.initial maxConcurrentJobs) es

end BidderRefreshes

end Artgod.Trading
