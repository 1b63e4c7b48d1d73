/-
# Closing background admission

After `closeBackgroundRefreshAdmission` no request is accepted and a loop can only go to its end (`Ending`), so
whoever waits for a dropped request is answered after at most four steps of it.  Commands are not touched by
the closing (`CommandKept`).
-/
import Artgod.Trading.BidderRefreshRuns

namespace Artgod.Trading

open Js

namespace BidderRefreshes

variable {s : BidderRefreshes}

/-! ## 1. A closed bidder -/

/-- Admission is closed and nothing is pending. -/
structure AdmissionClosed (s : BidderRefreshes) : Prop where
  closed : s.acceptingBackgroundRefreshes = false
  unpended : ∀ jobId, (s.entry jobId).pending = false

theorem admissionClosed_close : s.closeBackgroundRefreshAdmission.AdmissionClosed := by
  refine ⟨rfl, fun jobId => ?_⟩
  rw [entry_close]
  rfl

/-- What an event does to a job of a closed bidder: its loop stays, or goes one step towards its end. -/
inductive ClosedMove (s s' : BidderRefreshes) (jobId : String) : Prop
  | still (loop : (s'.entry jobId).loop = (s.entry jobId).loop)
      (pending : (s'.entry jobId).pending = false)
  | moved (move : s.LoopMove s' jobId)

variable {jobId : String} {p : Nat} {s' : BidderRefreshes}

theorem ClosedMove.same (h : s.AdmissionClosed)
    (hentry : s'.entry jobId = s.entry jobId) : s.ClosedMove s' jobId :=
  .still (by rw [hentry]) (by rw [hentry]; exact h.unpended jobId)

variable {other : String} {promise : Nat}

theorem closedMove_of_cases (h : s.AdmissionClosed)
    (hcases : s' = s ∨ s.LoopMove s' other) : s.ClosedMove s' jobId := by
  rcases hcases with rfl | hmove
  · exact .same h rfl
  · rcases eq_or_ne jobId other with rfl | hne
    · exact .moved hmove
    · exact .same h (hmove.entry_of_ne hne)

theorem entry_refuse {context : Option ProgressContext} {throwOnFailure : Bool}
    {trigger : BidderRefreshTrigger} {now : Int} {observed : Bool} (h : s.AdmissionClosed) :
    (s.refreshJobWithOptions other context throwOnFailure trigger now observed).entry jobId =
      s.entry jobId := by
  unfold BidderRefreshes.refreshJobWithOptions
  simp only [h.closed, Bool.not_false, if_true]
  rfl

theorem closedMove_handle (h : s.AdmissionClosed) (hentries : s.EntriesInv) (jobId : String)
    (e : RefreshEvent) : s.ClosedMove (s.handle e) jobId := by
  cases e with
  | addJob other => exact .same h rfl
  | removeJob other => exact .same h rfl
  | refreshJob other context trigger now => exact .same h (entry_refuse h)
  | refreshJobForScan other context now => exact .same h (entry_refuse h)
  | refreshJobImmediately other trigger => exact .same h (entry_congr entries_refreshJobImmediately jobId)
  | grantSlot other => exact closedMove_of_cases h (grantSlot_cases other)
  | grantMutex other => exact closedMove_of_cases h (grantMutex_cases other)
  | finishExecution other succeeded =>
    exact closedMove_of_cases h (finishExecution_cases hentries other succeeded)
  | continueLoop other now => exact closedMove_of_cases h (continueLoop_cases other now)
  | runFinally other => exact closedMove_of_cases h (runFinally_cases other)
  | grantImmediate promise => exact .same h (entry_congr entries_grantImmediate jobId)
  | finishImmediate promise succeeded => exact .same h (entry_congr entries_finishImmediate jobId)
  | lockElsewhere other => exact .same h rfl
  | unlockElsewhere other => exact .same h rfl
  | closeBackgroundRefreshAdmission =>
    refine .still ?_ (admissionClosed_close.unpended jobId)
    rw [BidderRefreshes.handle, entry_close]
  | stop =>
    refine .still ?_ ((@admissionClosed_close { s with acceptingRefreshes := false }).unpended jobId)
    rw [BidderRefreshes.handle, BidderRefreshes.stop, entry_close]
    rfl

theorem LoopMove.unpended (hmove : s.LoopMove s' jobId)
    (h : s.AdmissionClosed) : (s'.entry jobId).pending = false := by
  have hpending := h.unpended jobId
  cases hmove with
  | granted _ _ turn => rw [turn.entry_self]; exact hpending
  | entered _ _ _ turn => rw [turn.entry_self]; exact hpending
  | discarded _ _ _ turn => rw [turn.entry_self]; exact hpending
  | finished _ _ _ turn => rw [turn.entry_self]; exact hpending
  | taken _ _ _ _ turn => rw [turn.entry_self]; rfl
  | returned _ _ _ turn => rw [turn.entry_self]; exact hpending
  | ended _ _ _ turn => rw [turn.entry_self]; rfl

theorem AdmissionClosed.handle (h : s.AdmissionClosed) (hentries : s.EntriesInv) (e : RefreshEvent) :
    (s.handle e).AdmissionClosed := by
  refine ⟨?_, fun jobId => ?_⟩
  · rcases settings_handle s e with hsame | ⟨other, rfl⟩ | ⟨other, rfl⟩ | rfl | rfl
    · exact hsame.accepting.trans h.closed
    · exact h.closed
    · exact h.closed
    · rfl
    · rfl
  · cases closedMove_handle h hentries jobId e with
    | still _ pending => exact pending
    | moved move => exact move.unpended h

theorem AdmissionClosed.step (h : s.AdmissionClosed) (hentries : s.EntriesInv) (e : RefreshEvent) :
    (s.step e).AdmissionClosed :=
  ⟨(h.handle hentries e).closed, (h.handle hentries e).unpended⟩

/-! ## 2. The way of a dropped request -/

theorem settled_finallyLoop (h : s.settled p ≠ none) : (s.runFinally jobId).settled p ≠ none := by
  unfold runFinally
  split
  · exact h
  rename_i loop _
  split
  · show Function.update s.settled loop.promise _ p ≠ none
    rw [Function.update_apply]
    split
    · exact nofun
    · exact h
  · exact h

theorem settled_grantImmediate (h : s.settled p ≠ none) : (s.grantImmediate promise).settled p ≠ none := by
  unfold BidderRefreshes.grantImmediate
  split
  · exact h
  split
  · split
    · show Function.update s.settled promise _ p ≠ none
      rw [Function.update_apply]
      split
      · exact nofun
      · exact h
    · exact h
  · exact h

theorem settled_finishImmediate {succeeded : Bool} (h : s.settled p ≠ none) :
    (s.finishImmediate promise succeeded).settled p ≠ none := by
  unfold BidderRefreshes.finishImmediate
  split
  · exact h
  split
  · show Function.update s.settled promise _ p ≠ none
    rw [Function.update_apply]
    split
    · exact nofun
    · exact h
  · exact h

theorem settled_handle (h : s.settled p ≠ none) (e : RefreshEvent) : (s.handle e).settled p ≠ none := by
  cases e with
  | addJob jobId => exact h
  | removeJob jobId => exact h
  | refreshJob jobId context trigger now =>
    unfold BidderRefreshes.handle BidderRefreshes.refreshJob BidderRefreshes.refreshJobWithOptions
    simp only
    split
    · exact h
    · split <;> exact h
  | refreshJobForScan jobId context now =>
    unfold BidderRefreshes.handle BidderRefreshes.refreshJobForScan BidderRefreshes.refreshJobWithOptions
    simp only
    split
    · exact h
    · split <;> exact h
  | refreshJobImmediately jobId trigger =>
    unfold BidderRefreshes.handle BidderRefreshes.refreshJobImmediately
    simp only
    split
    · exact h
    · split <;> exact h
  | grantSlot jobId =>
    unfold BidderRefreshes.handle BidderRefreshes.grantSlot
    simp only
    split
    · exact h
    · split <;> exact h
  | grantMutex jobId =>
    unfold BidderRefreshes.handle BidderRefreshes.grantMutex
    simp only
    split
    · exact h
    · split
      · split <;> exact h
      · exact h
  | finishExecution jobId succeeded =>
    unfold BidderRefreshes.handle BidderRefreshes.finishExecution
    simp only
    split
    · exact h
    · split <;> exact h
  | continueLoop jobId now =>
    unfold BidderRefreshes.handle BidderRefreshes.continueLoop
    simp only
    split
    · exact h
    · split
      · split <;> exact h
      · exact h
  | runFinally jobId => exact settled_finallyLoop h
  | grantImmediate promise => exact settled_grantImmediate h
  | finishImmediate promise succeeded => exact settled_finishImmediate h
  | lockElsewhere jobId => exact h
  | unlockElsewhere jobId => exact h
  | closeBackgroundRefreshAdmission => exact h
  | stop => exact h

end BidderRefreshes

/-- The steps of a loop to its end, when nothing is pending and admission is closed. -/
def LoopPhase.toEnd : LoopPhase → Nat
  | .slot => 4
  | .mutex => 3
  | .executing => 3
  | .released => 2
  | .returned _ => 1

theorem LoopPhase.toEnd_le (phase : LoopPhase) : phase.toEnd ≤ 4 := by
  cases phase <;> simp [LoopPhase.toEnd]

namespace BidderRefreshes

variable {s : BidderRefreshes}

/-- Where a dropped request is, with the steps that its loop, whose promise its caller awaits, has still
to make. -/
inductive DroppedPlace (s : BidderRefreshes) (jobId : String) (request : RefreshRequest) (p : Nat) :
    Nat → Prop
  | queued {loop : JobLoop} (at_loop : (s.entry jobId).loop = some loop) (promise : loop.promise = p)
      (waiting : loop.waiting = true) (carried : request ∈ loop.options.requests) :
      DroppedPlace s jobId request p loop.phase.toEnd
  | told {loop : JobLoop} (at_loop : (s.entry jobId).loop = some loop) (promise : loop.promise = p)
      (answered : request.observed = true → s.completions request.id = [false]) :
      DroppedPlace s jobId request p loop.phase.toEnd
  | settled (settled : s.settled p ≠ none)
      (answered : request.observed = true → s.completions request.id = [false]) :
      DroppedPlace s jobId request p 0

variable {jobId : String} {n p promise : Nat} {request : RefreshRequest} {s' : BidderRefreshes}

theorem completions_stay
    (hanswered : request.observed = true → s.completions request.id = [false]) (hgrow : s.LogsGrow s')
    (honce : (s'.completions request.id).length ≤ 1) :
    request.observed = true → s'.completions request.id = [false] := by
  intro hobserved
  obtain ⟨more, hmore⟩ := hgrow.completions request.id
  rw [hmore, hanswered hobserved] at honce ⊢
  have hnil : more = [] := by
    rw [List.length_append, List.length_singleton] at honce
    exact List.eq_nil_of_length_eq_zero (by omega)
  rw [hnil]
  rfl

theorem DroppedPlace.move
    (h : s.DroppedPlace jobId request p n) (hinv : s.RefreshInv) (hclosed : s.AdmissionClosed)
    (hmove : s.LoopMove s' jobId) (hsettled : s.settled p ≠ none → s'.settled p ≠ none)
    (honce : (s'.completions request.id).length ≤ 1) :
    ∃ n', s'.DroppedPlace jobId request p n' ∧ (n' = 0 ∨ n' + 1 ≤ n) := by
  have hgrow := LogsGrow.move hmove
  cases h with
  | settled settled answered =>
    exact ⟨0, .settled (hsettled settled) (completions_stay answered hgrow honce), .inl rfl⟩
  | @told loop at_loop promise answered =>
    have hanswered := completions_stay answered hgrow honce
    cases hmove with
    | @granted loop' at_loop' phase' turn =>
      cases at_loop.symm.trans at_loop'
      refine ⟨_, .told turn.loop_self promise hanswered, ?_⟩
      rw [phase']
      exact .inr (Nat.le_refl _)
    | entered _ _ accepting =>
      rw [hclosed.closed] at accepting
      cases accepting
    | @discarded loop' at_loop' phase' _ turn =>
      cases at_loop.symm.trans at_loop'
      refine ⟨_, .told turn.loop_self promise hanswered, ?_⟩
      rw [phase']
      exact .inr (Nat.le_refl _)
    | @finished loop' at_loop' phase' succeeded turn =>
      cases at_loop.symm.trans at_loop'
      refine ⟨_, .told turn.loop_self promise hanswered, ?_⟩
      rw [phase']
      exact .inr (Nat.le_refl _)
    | taken _ _ pending =>
      rw [hclosed.unpended jobId] at pending
      cases pending
    | @returned loop' at_loop' phase' _ turn =>
      cases at_loop.symm.trans at_loop'
      refine ⟨_, .told turn.loop_self promise hanswered, ?_⟩
      rw [phase']
      exact .inr (Nat.le_refl _)
    | @ended loop' at_loop' fulfilled phase' turn _ settled =>
      cases at_loop.symm.trans at_loop'
      refine ⟨0, .settled ?_ hanswered, .inl rfl⟩
      rw [settled, promise, Function.update_self]
      exact nofun
  | @queued loop at_loop promise waiting carried =>
    cases hmove with
    | @granted loop' at_loop' phase' turn =>
      cases at_loop.symm.trans at_loop'
      refine ⟨_, .queued turn.loop_self promise rfl carried, ?_⟩
      rw [phase']
      exact .inr (Nat.le_refl _)
    | entered _ _ accepting =>
      rw [hclosed.closed] at accepting
      cases accepting
    | @discarded loop' at_loop' phase' _ turn =>
      cases at_loop.symm.trans at_loop'
      refine ⟨_, .told turn.loop_self promise ?_, ?_⟩
      · intro hobserved
        have hheld : request ∈ (s.entry jobId).held := by
          rw [held_of_loop at_loop, carried_of_phase (.inr (.inl phase'))]
          exact List.mem_append_right _ carried
        have hnodup := (hinv.requests.nodup jobId).sublist (turn.kept.map RefreshRequest.id)
        rw [List.map_append] at hnodup
        rw [turn.completions, callObservers_of_mem (List.nodup_append.mp hnodup).2.1 carried,
          (hinv.requests.held jobId request hheld).1, if_pos hobserved]
        rfl
      · rw [phase']
        exact .inr (Nat.le_refl _)
    | @finished loop' at_loop' phase' =>
      cases at_loop.symm.trans at_loop'
      rw [JobLoop.waiting, phase'] at waiting
      cases waiting
    | taken _ _ pending =>
      rw [hclosed.unpended jobId] at pending
      cases pending
    | @returned loop' at_loop' phase' =>
      cases at_loop.symm.trans at_loop'
      rw [JobLoop.waiting, phase'] at waiting
      cases waiting
    | @ended loop' at_loop' fulfilled phase' =>
      cases at_loop.symm.trans at_loop'
      rw [JobLoop.waiting, phase'] at waiting
      cases waiting

theorem DroppedPlace.keep
    (h : s.DroppedPlace jobId request p n) (hloop : (s'.entry jobId).loop = (s.entry jobId).loop)
    (hsettled : s.settled p ≠ none → s'.settled p ≠ none) (hgrow : s.LogsGrow s')
    (honce : (s'.completions request.id).length ≤ 1) : s'.DroppedPlace jobId request p n := by
  cases h with
  | queued at_loop promise waiting carried => exact .queued (hloop.trans at_loop) promise waiting carried
  | told at_loop promise answered =>
    exact .told (hloop.trans at_loop) promise (completions_stay answered hgrow honce)
  | settled settled answered =>
    exact .settled (hsettled settled) (completions_stay answered hgrow honce)

/-- **Every step of its loop brings a dropped request nearer to its answer.** -/
theorem DroppedPlace.step
    (h : s.DroppedPlace jobId request p n) (hinv : s.RefreshInv) (hclosed : s.AdmissionClosed)
    (e : RefreshEvent) : ∃ n', (s.step e).DroppedPlace jobId request p n' ∧
      (n' = 0 ∨ n' + (if s.loopMoved (s.step e) jobId then 1 else 0) ≤ n) := by
  have honce : ((s.handle e).completions request.id).length ≤ 1 := (hinv.step e).requests.once request.id
  have hgrow := logsGrow_handle hinv.entries e
  have hsettled : s.settled p ≠ none → (s.handle e).settled p ≠ none := fun hp => settled_handle hp e
  have hstep : ∀ {n'}, (s.handle e).DroppedPlace jobId request p n' →
      (s.step e).DroppedPlace jobId request p n' :=
    fun hplace => hplace.keep rfl id (.same rfl rfl) honce
  cases closedMove_handle hclosed hinv.entries jobId e with
  | still loop _ =>
    refine ⟨n, hstep (h.keep loop hsettled hgrow honce), .inr ?_⟩
    have hstill : s.loopMoved (s.step e) jobId = false := by
      unfold loopMoved
      rw [show ((s.step e).entry jobId).loop = (s.entry jobId).loop from loop]
      simp
    rw [hstill]
    exact Nat.le_refl _
  | moved move =>
    obtain ⟨n', hplace, hle⟩ := h.move hinv hclosed move hsettled honce
    refine ⟨n', hstep hplace, ?_⟩
    rcases hle with hzero | hle
    · exact .inl hzero
    refine .inr ?_
    split
    · exact hle
    · exact Nat.le_of_succ_le hle

theorem DroppedPlace.run {jobId : String} {request : RefreshRequest} {p : Nat} {post : List RefreshEvent}
    {s : BidderRefreshes} {n : Nat} (h : s.DroppedPlace jobId request p n) (hinv : s.RefreshInv)
    (hclosed : s.AdmissionClosed) :
    ∃ n', (Machine.run BidderRefreshes.step s post).DroppedPlace jobId request p n' ∧
      (n' = 0 ∨ n' + loopSteps jobId s post ≤ n) := by
  induction post generalizing s n with
  | nil => exact ⟨n, h, .inr (Nat.le_refl _)⟩
  | cons e rest ih =>
    obtain ⟨n₁, hplace, hle⟩ := h.step hinv hclosed e
    obtain ⟨n₂, hplace₂, hle₂⟩ := ih hplace (hinv.step e) (hclosed.step hinv.entries e)
    refine ⟨n₂, hplace₂, ?_⟩
    rcases hle₂ with hzero | hle₂
    · exact .inl hzero
    rcases hle with rfl | hle
    · exact .inl (by omega)
    · refine .inr ?_
      rw [loopSteps]
      omega

theorem DroppedPlace.answered (h : s.DroppedPlace jobId request p 0) :
    s.settled p ≠ none ∧ (request.observed = true → s.completions request.id = [false]) := by
  generalize hn : 0 = n at h
  cases h with
  | @queued loop => cases hphase : loop.phase <;> simp [hphase, LoopPhase.toEnd] at hn
  | @told loop => cases hphase : loop.phase <;> simp [hphase, LoopPhase.toEnd] at hn
  | settled settled answered => exact ⟨settled, answered⟩

/-! ## 3. Commands -/

/-- An execution that is part of the promise. -/
def ExecutedFor (s : BidderRefreshes) (promise : Nat) (jobId : String) : Prop :=
  ∃ execution ∈ s.executions, execution.promise = promise ∧ execution.jobId = jobId ∧
    execution.background = false

theorem ExecutedFor.mono
    (h : s.ExecutedFor promise jobId) (hgrow : s.LogsGrow s') : s'.ExecutedFor promise jobId := by
  obtain ⟨execution, hmem, hrest⟩ := h
  obtain ⟨more, hmore⟩ := hgrow.executions
  exact ⟨execution, hmore ▸ List.mem_append_left more hmem, hrest⟩

/-- A command that was admitted is still there, or it was executed and has settled. -/
inductive CommandKept (s : BidderRefreshes) (promise : Nat) (jobId : String) : Prop
  | waiting (admitted : s.immediates.get promise = some ⟨jobId, .userCommand, false⟩)
  | executing (admitted : s.immediates.get promise = some ⟨jobId, .userCommand, true⟩)
      (executed : s.ExecutedFor promise jobId)
  | settled (settled : s.settled promise ≠ none) (executed : s.ExecutedFor promise jobId)

theorem CommandKept.keep (h : s.CommandKept promise jobId)
    (hget : s.immediates.get promise ≠ none → s'.immediates.get promise = s.immediates.get promise)
    (hsettled : s.settled promise ≠ none → s'.settled promise ≠ none) (hgrow : s.LogsGrow s') :
    s'.CommandKept promise jobId := by
  cases h with
  | waiting admitted => exact .waiting ((hget (by rw [admitted]; exact nofun)).trans admitted)
  | executing admitted executed =>
    exact .executing ((hget (by rw [admitted]; exact nofun)).trans admitted) (executed.mono hgrow)
  | settled settled executed => exact .settled (hsettled settled) (executed.mono hgrow)

theorem grantImmediate_command (h : s.immediates.get promise = some ⟨jobId, .userCommand, false⟩) :
    s.grantImmediate promise = s ∨
      (s.grantImmediate promise).immediates.get promise = some ⟨jobId, .userCommand, true⟩ ∧
        (s.grantImmediate promise).ExecutedFor promise jobId := by
  unfold BidderRefreshes.grantImmediate
  rw [h]
  simp only
  split
  · rw [if_neg (by simp)]
    refine .inr ⟨?_, ?_⟩
    · show (s.immediates.set promise _).get promise = _
      rw [OrderedMap.get_set, if_pos rfl]
    · exact ⟨_, List.mem_append_right _ (List.mem_singleton_self _), rfl, rfl, rfl⟩
  · exact .inl rfl

variable {other : Nat} {succeeded : Bool} {trigger : BidderRefreshTrigger}

theorem immediates_grant_of_ne (hne : promise ≠ other) :
    (s.grantImmediate other).immediates.get promise = s.immediates.get promise := by
  unfold BidderRefreshes.grantImmediate
  split
  · rfl
  split
  · split
    · show (s.immediates.delete other).get promise = _
      rw [OrderedMap.get_delete, if_neg hne]
    · show (s.immediates.set other _).get promise = _
      rw [OrderedMap.get_set, if_neg hne]
  · rfl

theorem immediates_finish_of_ne (hne : promise ≠ other) :
    (s.finishImmediate other succeeded).immediates.get promise = s.immediates.get promise := by
  unfold BidderRefreshes.finishImmediate
  split
  · rfl
  split
  · show (s.immediates.delete other).get promise = _
    rw [OrderedMap.get_delete, if_neg hne]
  · rfl

theorem settled_of_executing (h : s.immediates.get promise = some ⟨jobId, .userCommand, true⟩) :
    (s.finishImmediate promise succeeded).settled promise ≠ none := by
  unfold BidderRefreshes.finishImmediate
  rw [h]
  simp only [if_true]
  rw [Function.update_self]
  exact nofun

theorem LoopMove.immediates (h : s.LoopMove s' jobId) : s'.immediates = s.immediates := by
  cases h with
  | granted _ _ turn => exact turn.immediates
  | entered _ _ _ turn => exact turn.immediates
  | discarded _ _ _ turn => exact turn.immediates
  | finished _ _ _ turn => exact turn.immediates
  | taken _ _ _ _ turn => exact turn.immediates
  | returned _ _ _ turn => exact turn.immediates
  | ended _ _ _ turn => exact turn.immediates

theorem immediates_of_cases (h : s' = s ∨ s.LoopMove s' jobId) : s'.immediates = s.immediates := by
  rcases h with rfl | hmove
  · rfl
  · exact hmove.immediates

theorem immediates_refreshJobWithOptions {context : Option ProgressContext}
    {throwOnFailure : Bool} {now : Int} {observed : Bool} :
    (s.refreshJobWithOptions jobId context throwOnFailure trigger now observed).immediates =
      s.immediates := by
  unfold BidderRefreshes.refreshJobWithOptions
  simp only
  split
  · rfl
  · split <;> rfl

theorem immediates_refreshJobImmediately (h : s.PressureInv) (hknown : s.immediates.get promise ≠ none) :
    (s.refreshJobImmediately jobId trigger).immediates.get promise = s.immediates.get promise := by
  unfold BidderRefreshes.refreshJobImmediately
  split
  · rfl
  split
  · rfl
  have hne : promise ≠ s.nextPromise := by
    rintro rfl
    exact hknown (h.known s.nextPromise (Nat.le_refl _))
  show (s.immediates.set s.nextPromise _).get promise = _
  rw [OrderedMap.get_set, if_neg hne]

/-- **No event takes an admitted command away before it was executed.** -/
theorem CommandKept.handle (h : s.CommandKept promise jobId)
    (hinv : s.RefreshInv) (e : RefreshEvent) : (s.handle e).CommandKept promise jobId := by
  have hgrow := logsGrow_handle hinv.entries e
  have hsettled : s.settled promise ≠ none → (s.handle e).settled promise ≠ none :=
    fun hp => settled_handle hp e
  have hsame : (s.handle e).immediates = s.immediates → (s.handle e).CommandKept promise jobId :=
    fun heq => h.keep (fun _ => by rw [heq]) hsettled hgrow
  cases e with
  | addJob other => exact hsame rfl
  | removeJob other => exact hsame rfl
  | refreshJob other context trigger now => exact hsame immediates_refreshJobWithOptions
  | refreshJobForScan other context now => exact hsame immediates_refreshJobWithOptions
  | refreshJobImmediately other trigger =>
    exact h.keep (immediates_refreshJobImmediately hinv.pressure) hsettled hgrow
  | grantSlot other => exact hsame (immediates_of_cases (grantSlot_cases other))
  | grantMutex other => exact hsame (immediates_of_cases (grantMutex_cases other))
  | finishExecution other succeeded =>
    exact hsame (immediates_of_cases (finishExecution_cases hinv.entries other succeeded))
  | continueLoop other now => exact hsame (immediates_of_cases (continueLoop_cases other now))
  | runFinally other => exact hsame (immediates_of_cases (runFinally_cases other))
  | grantImmediate other =>
    rcases eq_or_ne promise other with rfl | hne
    · cases h with
      | waiting admitted =>
        rcases grantImmediate_command admitted with hstill | ⟨hget, hexecuted⟩
        · exact hsame (congrArg BidderRefreshes.immediates hstill)
        · exact .executing hget hexecuted
      | executing admitted executed =>
        refine .executing ?_ (executed.mono hgrow)
        simp only [BidderRefreshes.handle, BidderRefreshes.grantImmediate, admitted, Bool.true_eq_false,
          false_and, if_false]
      | settled settled executed => exact .settled (hsettled settled) (executed.mono hgrow)
    · exact h.keep (fun _ => immediates_grant_of_ne hne) hsettled hgrow
  | finishImmediate other succeeded =>
    rcases eq_or_ne promise other with rfl | hne
    · cases h with
      | waiting admitted =>
        refine .waiting ?_
        simp only [BidderRefreshes.handle, BidderRefreshes.finishImmediate, admitted, Bool.false_eq_true,
          if_false]
      | executing admitted executed => exact .settled (settled_of_executing admitted) (executed.mono hgrow)
      | settled settled executed => exact .settled (hsettled settled) (executed.mono hgrow)
    · exact h.keep (fun _ => immediates_finish_of_ne hne) hsettled hgrow
  | lockElsewhere other => exact hsame rfl
  | unlockElsewhere other => exact hsame rfl
  | closeBackgroundRefreshAdmission => exact hsame rfl
  | stop => exact hsame rfl

theorem CommandKept.run {promise : Nat} {jobId : String} {post : List RefreshEvent} {s : BidderRefreshes}
    (h : s.CommandKept promise jobId) (hinv : s.RefreshInv) :
    (Machine.run BidderRefreshes.step s post).CommandKept promise jobId := by
  induction post generalizing s with
  | nil => exact h
  | cons e rest ih =>
    have hnext := h.handle hinv e
    exact ih (hnext.keep (fun _ => rfl) id (.same rfl rfl)) (hinv.step e)

theorem commandKept_admitted (h : s.acceptingRefreshes = true) :
    (s.step (.refreshJobImmediately jobId .userCommand)).CommandKept s.nextPromise jobId := by
  refine .waiting ?_
  show (s.refreshJobImmediately jobId .userCommand).immediates.get s.nextPromise = _
  unfold BidderRefreshes.refreshJobImmediately
  rw [if_neg (by simp [h]), if_neg (by simp)]
  show (s.immediates.set s.nextPromise _).get s.nextPromise = _
  rw [OrderedMap.get_set, if_pos rfl]

theorem command_begins
    (h : s.immediates.get promise = some ⟨jobId, .userCommand, false⟩) (hfree : s.mutexes jobId = none) :
    (s.step (.grantImmediate promise)).immediates.get promise = some ⟨jobId, .userCommand, true⟩ := by
  show (s.grantImmediate promise).immediates.get promise = _
  have hentered : s.grantImmediate promise = s.enterImmediate promise ⟨jobId, .userCommand, false⟩ := by
    simp [BidderRefreshes.grantImmediate, h, hfree]
  rw [hentered]
  show (s.immediates.set promise _).get promise = _
  rw [OrderedMap.get_set, if_pos rfl]

/-! ## 4. Results -/

/-- The request is dropped by a closing in this state: it is pending, or its loop waits for the locks. -/
def Droppable (s : BidderRefreshes) (jobId : String) (request : RefreshRequest) : Prop :=
  request ∈ (s.entry jobId).state.pendingRequests ∨
    ∃ loop, (s.entry jobId).loop = some loop ∧ loop.waiting = true ∧ request ∈ loop.options.requests

theorem Droppable.held (h : s.Droppable jobId request) : request ∈ (s.entry jobId).held := by
  rcases h with hpending | ⟨loop, hloop, hwaiting, hmem⟩
  · exact pending_subset_held hpending
  rw [held_of_loop hloop]
  refine List.mem_append_right _ ?_
  rw [JobLoop.carried, hwaiting]
  exact hmem

theorem completions_close (h : s.RequestInv)
    (hpending : request ∈ (s.entry jobId).state.pendingRequests) (hobserved : request.observed = true) :
    s.closeBackgroundRefreshAdmission.completions request.id = [false] := by
  show callObservers s.allPending false s.completions request.id = [false]
  rw [callObservers_of_mem h.allPending_nodup (mem_allPending.mpr ⟨jobId, hpending⟩),
    (h.held jobId request (pending_subset_held hpending)).1, if_pos hobserved]
  rfl

theorem droppedPlace_close (h : s.RefreshInv) (hdropped : s.Droppable jobId request) :
    ∃ record p n, s.requested request.id = some record ∧ record.promise = some p ∧ n ≤ 4 ∧
      (s.step .closeBackgroundRefreshAdmission).DroppedPlace jobId request p n := by
  obtain ⟨-, record, hrecord, -⟩ := h.requests.held jobId request hdropped.held
  have hpromise := h.requests.awaits jobId request hdropped.held record hrecord
  have hkept : ((s.step .closeBackgroundRefreshAdmission).entry jobId).loop = (s.entry jobId).loop := by
    show (s.closeBackgroundRefreshAdmission.entry jobId).loop = _
    rw [entry_close]
  rcases hdropped with hpending | ⟨loop, hloop, hwaiting, hmem⟩
  · have hrunning : (s.entry jobId).state.running = true := by
      by_contra hidle
      have hnone := (h.entries jobId).unpended ((h.entries jobId).idle (by simpa using hidle))
      rw [hnone] at hpending
      cases hpending
    obtain ⟨loop, hloop⟩ := h.entries.loop_of_running hrunning
    rw [(h.entries jobId).promise, hloop] at hpromise
    refine ⟨record, loop.promise, _, hrecord, hpromise, loop.phase.toEnd_le, ?_⟩
    exact .told (hkept.trans hloop) rfl (completions_close h.requests hpending)
  · rw [(h.entries jobId).promise, hloop] at hpromise
    refine ⟨record, loop.promise, _, hrecord, hpromise, loop.phase.toEnd_le, ?_⟩
    exact .queued (hkept.trans hloop) rfl hwaiting hmem

theorem no_background_begins {post : List RefreshEvent} {s : BidderRefreshes} (hinv : s.RefreshInv)
    (hclosed : s.AdmissionClosed) : ∀ execution ∈ (Machine.run BidderRefreshes.step s post).executions,
      execution ∈ s.executions ∨ execution.background = false := by
  induction post generalizing s with
  | nil => exact fun _ hmem => .inl hmem
  | cons e rest ih =>
    intro execution hmem
    rcases ih (hinv.step e) (hclosed.step hinv.entries e) execution hmem with hold | hcommand
    · rcases executions_handle hinv.entries e execution hold with holder | ⟨-, hopen⟩
      · exact .inl holder
      refine .inr ?_
      by_contra hbackground
      have haccepting := hopen (by simpa using hbackground)
      rw [hclosed.closed] at haccepting
      cases haccepting
    · exact .inr hcommand

/-- The bidder after a run in which background admission is closed after `earlier`. -/
def closedAfter (maxConcurrentJobs : Nat) (earlier post : List RefreshEvent) : BidderRefreshes :=
  after maxConcurrentJobs (earlier ++ .closeBackgroundRefreshAdmission :: post)

/-- **Shutdown.**  In any run with a closing of background admission after `earlier`: no background
execution begins from the closing on; a command that was admitted before it is there, or was executed and
has settled, and a command that waits begins when the mutex of its job is free; a dropped request that was
pending is told by the closing, and four steps of its loop later the callback of a dropped request has
been called once and the promise its caller awaits has settled.  And in every state the counters are the
numbers of refreshes, loops and immediate ones together, that wait and that run, and of jobs with a
pending request. -/
theorem closing_settles_background_refreshes (maxConcurrentJobs : Nat) (earlier post : List RefreshEvent) :
    (∀ execution ∈ (closedAfter maxConcurrentJobs earlier post).executions,
      earlier.length ≤ execution.startedTick → execution.background = false) ∧
    (∀ before between jobId, earlier = before ++ .refreshJobImmediately jobId .userCommand :: between →
      (after maxConcurrentJobs before).acceptingRefreshes = true →
      (closedAfter maxConcurrentJobs earlier post).CommandKept
        (after maxConcurrentJobs before).nextPromise jobId) ∧
    (∀ promise jobId, (closedAfter maxConcurrentJobs earlier post).immediates.get promise =
        some ⟨jobId, .userCommand, false⟩ →
      (closedAfter maxConcurrentJobs earlier post).mutexes jobId = none →
      (closedAfter maxConcurrentJobs earlier (post ++ [.grantImmediate promise])).immediates.get promise =
        some ⟨jobId, .userCommand, true⟩) ∧
    (∀ jobId request, (after maxConcurrentJobs earlier).Droppable jobId request →
      (request ∈ ((after maxConcurrentJobs earlier).entry jobId).state.pendingRequests →
        request.observed = true →
        (closedAfter maxConcurrentJobs earlier post).completions request.id = [false]) ∧
      ∃ record p, (after maxConcurrentJobs earlier).requested request.id = some record ∧
        record.promise = some p ∧
        (4 ≤ loopSteps jobId (closedAfter maxConcurrentJobs earlier []) post →
          (closedAfter maxConcurrentJobs earlier post).settled p ≠ none ∧
          (request.observed = true →
            (closedAfter maxConcurrentJobs earlier post).completions request.id = [false]))) ∧
    ((after maxConcurrentJobs earlier).waitingRefreshCount =
        (after maxConcurrentJobs earlier).entries.count JobEntry.waiting +
          (after maxConcurrentJobs earlier).immediates.count (fun immediate => !immediate.executing) ∧
      (after maxConcurrentJobs earlier).activeRefreshCount =
        (after maxConcurrentJobs earlier).entries.count JobEntry.executing +
          (after maxConcurrentJobs earlier).immediates.count ImmediateRefresh.executing ∧
      (after maxConcurrentJobs earlier).pendingRefreshCount =
        (after maxConcurrentJobs earlier).entries.count JobEntry.pending) := by
  have hinv := RefreshInv.after maxConcurrentJobs earlier
  have hnext := hinv.step .closeBackgroundRefreshAdmission
  have hclosed : ((after maxConcurrentJobs earlier).step .closeBackgroundRefreshAdmission).AdmissionClosed :=
    ⟨rfl, (@admissionClosed_close (after maxConcurrentJobs earlier)).unpended⟩
  have hrun : closedAfter maxConcurrentJobs earlier post = Machine.run step
      ((after maxConcurrentJobs earlier).step .closeBackgroundRefreshAdmission) post := after_cons ..
  refine ⟨?_, ?_, ?_, ?_, hinv.pressure.waiting, hinv.pressure.active, hinv.pressure.pending⟩
  · intro execution hmem hstarted
    rw [hrun] at hmem
    rcases no_background_begins hnext hclosed execution hmem with hold | hcommand
    · exact absurd (executions_past maxConcurrentJobs earlier execution hold) (Nat.not_lt.mpr hstarted)
    · exact hcommand
  · intro before between jobId hearlier haccepting
    have hbefore := RefreshInv.after maxConcurrentJobs before
    rw [closedAfter, hearlier, List.append_assoc, List.cons_append, after_cons]
    exact (commandKept_admitted haccepting).run (hbefore.step _)
  · intro promise jobId hwaiting hfree
    have hlast : closedAfter maxConcurrentJobs earlier (post ++ [.grantImmediate promise]) =
        (closedAfter maxConcurrentJobs earlier post).step (.grantImmediate promise) := by
      rw [hrun, closedAfter, after_cons, Machine.run_concat]
    rw [hlast]
    exact command_begins hwaiting hfree
  · intro jobId request hdropped
    obtain ⟨record, p, n, hrecord, hpromise, hle, hplace⟩ := droppedPlace_close hinv hdropped
    refine ⟨?_, record, p, hrecord, hpromise, ?_⟩
    · intro hpending hobserved
      rw [hrun]
      have htold := completions_close hinv.requests hpending
      exact completions_stay (s := (after maxConcurrentJobs earlier).step .closeBackgroundRefreshAdmission)
        htold (logsGrow_run hnext post) ((Machine.run_invariant (fun _ e h => h.step e) hnext post :
          RefreshInv _).requests.once request.id) hobserved
    · intro hsteps
      rw [hrun]
      rw [show closedAfter maxConcurrentJobs earlier [] =
        (after maxConcurrentJobs earlier).step .closeBackgroundRefreshAdmission from after_cons ..] at hsteps
      obtain ⟨n', hfinal, hleft⟩ := @DroppedPlace.run jobId request p post _ n hplace hnext hclosed
      have hzero : n' = 0 := by omega
      subst hzero
      exact hfinal.answered

/-- **The counters are not those of the background refreshes alone.**  A command that waits for the mutex
of its job is counted as waiting, where no background refresh waits. -/
theorem waiting_command_is_counted : ¬ ∀ (maxConcurrentJobs : Nat) (es : List RefreshEvent),
      (after maxConcurrentJobs es).waitingRefreshCount =
        (after maxConcurrentJobs es).entries.count JobEntry.waiting +
          (after maxConcurrentJobs es).immediates.count fun immediate =>
            !immediate.executing && decide (immediate.trigger ≠ .userCommand) := by
  intro hclaim
  have hone := hclaim 1 [.addJob "job", .refreshJobImmediately "job" .userCommand]
  revert hone
  decide +kernel

end BidderRefreshes

end Artgod.Trading
