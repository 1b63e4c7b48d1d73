/-
# A coalesced request and its execution

A background request that comes while the loop of its job runs is answered by an execution that begins after
it exactly when it does not come in the finishing window.  The proof follows it through its places (`Place`);
the number of a place is the number of steps that the loop has still to make.
-/
import Artgod.Trading.BidderRefreshRequests

namespace Artgod.Trading

open Js

/-! ## 1. What an event does to one job -/

/-- The background request that an event makes: its job, and whether it has a callback. -/
def RefreshEvent.asksFor : RefreshEvent → Option (String × Bool)
  | .refreshJob jobId _ _ _ => some (jobId, false)
  | .refreshJobForScan jobId _ _ => some (jobId, true)
  | _ => none

/-- Background admission stays open, and the job stays scheduled. -/
def RefreshEvent.staysOpen (jobId : String) : RefreshEvent → Bool
  | .closeBackgroundRefreshAdmission => false
  | .stop => false
  | .removeJob other => other ≠ jobId
  | _ => true

namespace BidderRefreshes

variable {s : BidderRefreshes}

variable {jobId : String} {s' : BidderRefreshes}

variable {other : String} {succeeded : Bool} {trigger : BidderRefreshTrigger} {promise : Nat}

theorem LoopMove.entry_of_ne (h : s.LoopMove s' jobId)
    (hne : other ≠ jobId) : s'.entry other = s.entry other := by
  cases h with
  | granted _ _ turn => exact turn.entry_of_ne hne
  | entered _ _ _ turn => exact turn.entry_of_ne hne
  | discarded _ _ _ turn => exact turn.entry_of_ne hne
  | finished _ _ _ turn => exact turn.entry_of_ne hne
  | taken _ _ _ _ turn => exact turn.entry_of_ne hne
  | returned _ _ _ turn => exact turn.entry_of_ne hne
  | ended _ _ _ turn => exact turn.entry_of_ne hne

theorem Turn.loop_self {entry : JobEntry}
    {told : List RefreshRequest} (h : s.Turn s' jobId entry told succeeded) :
    (s'.entry jobId).loop = entry.loop := congrArg JobEntry.loop h.entry_self

/-- What an event can do to the entry of a job while admission is open. -/
inductive JobMove (s s' : BidderRefreshes) (jobId : String) : Prop
  | untouched (entry : s'.entry jobId = s.entry jobId)
  | moved (move : s.LoopMove s' jobId)
  | coalesced (context : Option ProgressContext) (options : JobExecutionOptions)
      (running : (s.entry jobId).state.running = true)
      (entry : s'.entry jobId =
        { s.entry jobId with state := (s.entry jobId).state.coalesce context options })
  | started (idle : (s.entry jobId).loop = none)

theorem jobMove_of_cases (h : s' = s ∨ s.LoopMove s' other) : s.JobMove s' jobId := by
  rcases h with rfl | hmove
  · exact .untouched rfl
  · rcases eq_or_ne jobId other with rfl | hne
    · exact .moved hmove
    · exact .untouched (hmove.entry_of_ne hne)

theorem jobMove_refreshJobWithOptions (h : s.EntriesInv) (jobId other : String)
    (context : Option ProgressContext) (throwOnFailure : Bool) (trigger : BidderRefreshTrigger) (now : Int)
    (observed : Bool) :
    s.JobMove (s.refreshJobWithOptions other context throwOnFailure trigger now observed) jobId := by
  unfold BidderRefreshes.refreshJobWithOptions
  simp only
  split
  · exact .untouched rfl
  split
  · rename_i hrunning
    rcases eq_or_ne jobId other with rfl | hne
    · exact .coalesced context _ hrunning entry_putEntry_self
    · exact .untouched (entry_putEntry_of_ne hne)
  · rename_i hidle
    rcases eq_or_ne jobId other with rfl | hne
    · exact .started (h.idle_loop (by simpa using hidle))
    · exact .untouched (entry_putEntry_of_ne hne)

theorem entry_congr (h : s'.entries = s.entries) (jobId : String) : s'.entry jobId = s.entry jobId := by
  rw [BidderRefreshes.entry, h]
  rfl

theorem handle_cases (h : s.EntriesInv) {e : RefreshEvent}
    (hopen : e.staysOpen jobId = true) : s.JobMove (s.handle e) jobId := by
  cases e with
  | addJob other => exact .untouched rfl
  | removeJob other => exact .untouched rfl
  | refreshJob other context trigger now => exact jobMove_refreshJobWithOptions h jobId other _ _ _ _ _
  | refreshJobForScan other context now => exact jobMove_refreshJobWithOptions h jobId other _ _ _ _ _
  | refreshJobImmediately other trigger => exact .untouched (entry_congr entries_refreshJobImmediately jobId)
  | grantSlot other => exact jobMove_of_cases (grantSlot_cases other)
  | grantMutex other => exact jobMove_of_cases (grantMutex_cases other)
  | finishExecution other succeeded => exact jobMove_of_cases (finishExecution_cases h other succeeded)
  | continueLoop other now => exact jobMove_of_cases (continueLoop_cases other now)
  | runFinally other => exact jobMove_of_cases (runFinally_cases other)
  | grantImmediate promise => exact .untouched (entry_congr entries_grantImmediate jobId)
  | finishImmediate promise succeeded => exact .untouched (entry_congr entries_finishImmediate jobId)
  | lockElsewhere other => exact .untouched rfl
  | unlockElsewhere other => exact .untouched rfl
  | closeBackgroundRefreshAdmission => cases hopen
  | stop => cases hopen

/-! ## 2. The logs grow -/

/-- Executions and calls of callbacks are only added. -/
structure LogsGrow (s s' : BidderRefreshes) : Prop where
  executions : ∃ more, s'.executions = s.executions ++ more
  completions : ∀ r, ∃ more, s'.completions r = s.completions r ++ more

theorem LogsGrow.same (hexecutions : s'.executions = s.executions)
    (hcompletions : s'.completions = s.completions) : s.LogsGrow s' :=
  ⟨⟨[], by rw [hexecutions, List.append_nil]⟩, fun r => ⟨[], by rw [hcompletions, List.append_nil]⟩⟩

theorem LogsGrow.told {s' : BidderRefreshes} {requests : List RefreshRequest} {succeeded : Bool}
    (hexecutions : ∃ more, s'.executions = s.executions ++ more)
    (hcompletions : s'.completions = callObservers requests succeeded s.completions) : s.LogsGrow s' := by
  refine ⟨hexecutions, fun r => ?_⟩
  rw [hcompletions]
  exact ⟨_, rfl⟩

theorem LogsGrow.move (h : s.LoopMove s' jobId) : s.LogsGrow s' := by
  cases h with
  | granted _ _ turn executions => exact .told ⟨[], by simp [executions]⟩ turn.completions
  | entered _ _ _ turn executions => exact .told ⟨_, executions⟩ turn.completions
  | discarded _ _ _ turn executions => exact .told ⟨[], by simp [executions]⟩ turn.completions
  | finished _ _ _ turn executions => exact .told ⟨[], by simp [executions]⟩ turn.completions
  | taken _ _ _ _ turn executions => exact .told ⟨[], by simp [executions]⟩ turn.completions
  | returned _ _ _ turn executions => exact .told ⟨[], by simp [executions]⟩ turn.completions
  | ended _ _ _ turn executions => exact .told ⟨[], by simp [executions]⟩ turn.completions

theorem LogsGrow.of_cases (h : s' = s ∨ s.LoopMove s' jobId) : s.LogsGrow s' := by
  rcases h with rfl | hmove
  · exact .same rfl rfl
  · exact .move hmove

theorem logsGrow_refreshJobWithOptions {context : Option ProgressContext}
    {throwOnFailure : Bool} {now : Int} {observed : Bool} :
    s.LogsGrow (s.refreshJobWithOptions jobId context throwOnFailure trigger now observed) := by
  unfold BidderRefreshes.refreshJobWithOptions
  simp only
  split
  · exact .told ⟨[], (List.append_nil _).symm⟩ rfl
  · split
    · exact .same rfl rfl
    · exact .same rfl rfl

theorem logsGrow_refreshJobImmediately : s.LogsGrow (s.refreshJobImmediately jobId trigger) := by
  unfold BidderRefreshes.refreshJobImmediately
  split
  · exact .same rfl rfl
  · split
    · exact .same rfl rfl
    · exact .same rfl rfl

theorem logsGrow_grantImmediate : s.LogsGrow (s.grantImmediate promise) := by
  unfold BidderRefreshes.grantImmediate
  split
  · exact .same rfl rfl
  split
  · split
    · exact .same rfl rfl
    · exact ⟨⟨_, rfl⟩, fun r => ⟨[], (List.append_nil _).symm⟩⟩
  · exact .same rfl rfl

theorem logsGrow_finishImmediate : s.LogsGrow (s.finishImmediate promise succeeded) := by
  unfold BidderRefreshes.finishImmediate
  split
  · exact .same rfl rfl
  · split
    · exact .same rfl rfl
    · exact .same rfl rfl

theorem logsGrow_close : s.LogsGrow s.closeBackgroundRefreshAdmission :=
  .told ⟨[], (List.append_nil _).symm⟩ rfl

theorem logsGrow_handle (h : s.EntriesInv) (e : RefreshEvent) : s.LogsGrow (s.handle e) := by
  cases e with
  | addJob jobId => exact .same rfl rfl
  | removeJob jobId => exact .same rfl rfl
  | refreshJob jobId context trigger now => exact logsGrow_refreshJobWithOptions
  | refreshJobForScan jobId context now => exact logsGrow_refreshJobWithOptions
  | refreshJobImmediately jobId trigger => exact logsGrow_refreshJobImmediately
  | grantSlot jobId => exact .of_cases (grantSlot_cases jobId)
  | grantMutex jobId => exact .of_cases (grantMutex_cases jobId)
  | finishExecution jobId succeeded => exact .of_cases (finishExecution_cases h jobId succeeded)
  | continueLoop jobId now => exact .of_cases (continueLoop_cases jobId now)
  | runFinally jobId => exact .of_cases (runFinally_cases jobId)
  | grantImmediate promise => exact logsGrow_grantImmediate
  | finishImmediate promise succeeded => exact logsGrow_finishImmediate
  | lockElsewhere jobId => exact .same rfl rfl
  | unlockElsewhere jobId => exact .same rfl rfl
  | closeBackgroundRefreshAdmission => exact logsGrow_close
  | stop =>
    have hgrow := @logsGrow_close { s with acceptingRefreshes := false }
    exact ⟨hgrow.executions, hgrow.completions⟩

theorem LogsGrow.trans {a b c : BidderRefreshes} (h : a.LogsGrow b) (h' : b.LogsGrow c) : a.LogsGrow c := by
  refine ⟨?_, fun r => ?_⟩
  · obtain ⟨more, hmore⟩ := h.executions
    obtain ⟨more', hmore'⟩ := h'.executions
    exact ⟨more ++ more', by rw [hmore', hmore, List.append_assoc]⟩
  · obtain ⟨more, hmore⟩ := h.completions r
    obtain ⟨more', hmore'⟩ := h'.completions r
    exact ⟨more ++ more', by rw [hmore', hmore, List.append_assoc]⟩

theorem logsGrow_step (h : s.EntriesInv) (e : RefreshEvent) : s.LogsGrow (s.step e) :=
  ⟨(logsGrow_handle h e).executions, (logsGrow_handle h e).completions⟩

theorem logsGrow_run (h : s.RefreshInv) (es : List RefreshEvent) : s.LogsGrow (Machine.run step s es) :=
  @Machine.run_related _ _ step RefreshInv LogsGrow (fun _ => .same rfl rfl) LogsGrow.trans
    (fun _ e hs => hs.step e) (fun _ e hs => logsGrow_step hs.entries e) s h es

/-! ## 3. The places of a request -/

/-- An execution of the scheduled job that answers the request and began after the step `since`. -/
def ExecutedSince (s : BidderRefreshes) (jobId : String) (r since : Nat) : Prop :=
  ∃ execution ∈ s.executions, execution.jobId = jobId ∧ r ∈ execution.requests ∧
    since < execution.startedTick ∧ execution.background = true ∧ execution.scheduled = true

theorem ExecutedSince.mono {r since : Nat}
    (h : s.ExecutedSince jobId r since) (hgrow : s.LogsGrow s') : s'.ExecutedSince jobId r since := by
  obtain ⟨execution, hmem, hrest⟩ := h
  obtain ⟨more, hmore⟩ := hgrow.executions
  exact ⟨execution, hmore ▸ List.mem_append_left more hmem, hrest⟩

/-- The request still waits for an execution: it is pending behind a loop that has not returned, or the
loop takes it to its locks. -/
def Owed (s : BidderRefreshes) (jobId : String) (r : Nat) : Prop :=
  ∃ loop, (s.entry jobId).loop = some loop ∧
    ((r ∈ (s.entry jobId).state.pendingRequests.map RefreshRequest.id ∧ (s.entry jobId).finishing = false) ∨
      (loop.waiting = true ∧ r ∈ loop.options.requests.map RefreshRequest.id))

end BidderRefreshes

/-- The steps of the loop up to its look at `state.pending`, that one included. -/
def LoopPhase.toRelease : LoopPhase → Nat
  | .slot => 4
  | .mutex => 3
  | .executing => 2
  | .released => 1
  | .returned _ => 0

theorem LoopPhase.toRelease_le (phase : LoopPhase) : phase.toRelease ≤ 4 := by
  cases phase <;> simp [LoopPhase.toRelease]

theorem JobEntry.finishing_iff {entry : JobEntry} : entry.finishing = true ↔
    ∃ loop fulfilled, entry.loop = some loop ∧ loop.phase = .returned fulfilled := by
  rw [JobEntry.finishing, Option.any_eq_true]
  constructor
  · rintro ⟨loop, hloop, hphase⟩
    rw [Bool.or_eq_true, decide_eq_true_eq, decide_eq_true_eq] at hphase
    rcases hphase with hphase | hphase
    · exact ⟨loop, true, hloop, hphase⟩
    · exact ⟨loop, false, hloop, hphase⟩
  · rintro ⟨loop, fulfilled, hloop, hphase⟩
    refine ⟨loop, hloop, ?_⟩
    cases fulfilled <;> simp [hphase]

namespace BidderRefreshes

variable {s : BidderRefreshes}

/-- Where a request is, with the number of steps that the loop has to make until it is answered. -/
inductive Place (s : BidderRefreshes) (jobId : String) (r since : Nat) (observed : Bool) : Nat → Prop
  | pending {loop : JobLoop} (at_loop : (s.entry jobId).loop = some loop)
      (behind : r ∈ (s.entry jobId).state.pendingRequests.map RefreshRequest.id)
      (phase : 0 < loop.phase.toRelease) :
      Place s jobId r since observed (loop.phase.toRelease + 3)
  | queued {loop : JobLoop} (at_loop : (s.entry jobId).loop = some loop) (waiting : loop.waiting = true)
      (carried : r ∈ loop.options.requests.map RefreshRequest.id) :
      Place s jobId r since observed (loop.phase.toRelease - 1)
  | executing {loop : JobLoop} (at_loop : (s.entry jobId).loop = some loop)
      (phase : loop.phase = .executing) (carried : r ∈ loop.options.requests.map RefreshRequest.id)
      (executed : s.ExecutedSince jobId r since) : Place s jobId r since observed 1
  | done (executed : s.ExecutedSince jobId r since)
      (answered : observed = true → (s.completions r).length = 1) : Place s jobId r since observed 0

/-- The loop of the job made a step. -/
def loopMoved (s s' : BidderRefreshes) (jobId : String) : Bool :=
  (s'.entry jobId).loop.map JobLoop.phase ≠ (s.entry jobId).loop.map JobLoop.phase

/-- The steps that the loop of the job makes in a run. -/
def loopSteps (jobId : String) : BidderRefreshes → List RefreshEvent → Nat
  | _, [] => 0
  | s, e :: rest => (if s.loopMoved (s.step e) jobId then 1 else 0) + loopSteps jobId (s.step e) rest

variable {jobId : String} {observed : Bool} {n r since : Nat} {s' : BidderRefreshes}
  {e : RefreshEvent}

theorem Place.done_mono (hexecuted : s.ExecutedSince jobId r since)
    (hanswered : observed = true → (s.completions r).length = 1) (hgrow : s.LogsGrow s')
    (honce : (s'.completions r).length ≤ 1) : s'.Place jobId r since observed 0 := by
  refine .done (hexecuted.mono hgrow) fun hobserved => ?_
  obtain ⟨more, hmore⟩ := hgrow.completions r
  have hone := hanswered hobserved
  rw [hmore, List.length_append] at honce ⊢
  omega

theorem Place.keep
    (h : s.Place jobId r since observed n) (hloop : (s'.entry jobId).loop = (s.entry jobId).loop)
    (hpending : r ∈ (s.entry jobId).state.pendingRequests.map RefreshRequest.id →
      r ∈ (s'.entry jobId).state.pendingRequests.map RefreshRequest.id)
    (hgrow : s.LogsGrow s') (honce : (s'.completions r).length ≤ 1) : s'.Place jobId r since observed n := by
  cases h with
  | pending at_loop behind phase => exact .pending (hloop.trans at_loop) (hpending behind) phase
  | queued at_loop waiting carried => exact .queued (hloop.trans at_loop) waiting carried
  | executing at_loop phase carried executed =>
    exact .executing (hloop.trans at_loop) phase carried (executed.mono hgrow)
  | done executed answered => exact Place.done_mono executed answered hgrow honce

/-- What a step needs to know about the request. -/
structure Following (s : BidderRefreshes) (jobId : String) (r since : Nat) (observed : Bool) : Prop where
  inv : s.RefreshInv
  accepting : s.acceptingBackgroundRefreshes = true
  scheduled : s.scheduled jobId = true
  past : since < s.tick
  recorded : ∃ record, s.requested r = some record ∧ record.observed = observed

theorem Place.move (hf : s.Following jobId r since observed) (h : s.Place jobId r since observed n)
    (hmove : s.LoopMove s' jobId) (honce : (s'.completions r).length ≤ 1) :
    ∃ n', s'.Place jobId r since observed n' ∧ (n' = 0 ∨ n' + 1 ≤ n) := by
  have hgrow := LogsGrow.move hmove
  cases h with
  | done executed answered => exact ⟨0, Place.done_mono executed answered hgrow honce, .inl rfl⟩
  | @pending loop at_loop behind phase =>
    cases hmove with
    | @granted loop' at_loop' phase' turn =>
      cases at_loop.symm.trans at_loop'
      refine ⟨_, .pending turn.loop_self (by rw [turn.entry_self]; exact behind) (Nat.succ_pos _), ?_⟩
      rw [phase']
      exact .inr (Nat.le_refl _)
    | @entered loop' at_loop' phase' _ turn =>
      cases at_loop.symm.trans at_loop'
      refine ⟨_, .pending turn.loop_self (by rw [turn.entry_self]; exact behind) (Nat.succ_pos _), ?_⟩
      rw [phase']
      exact .inr (Nat.le_refl _)
    | discarded _ _ closed =>
      rw [hf.accepting] at closed
      cases closed
    | @finished loop' at_loop' phase' succeeded turn =>
      cases at_loop.symm.trans at_loop'
      refine ⟨_, .pending turn.loop_self (by rw [turn.entry_self]; exact behind) (Nat.succ_pos _), ?_⟩
      rw [phase']
      exact .inr (Nat.le_refl _)
    | @taken loop' at_loop' phase' _ now turn =>
      cases at_loop.symm.trans at_loop'
      refine ⟨_, .queued turn.loop_self rfl behind, ?_⟩
      rw [phase']
      exact .inr (Nat.le_refl _)
    | returned _ _ pending =>
      rw [(hf.inv.entries jobId).unpended pending] at behind
      cases behind
    | @ended loop' at_loop' fulfilled phase' =>
      cases at_loop.symm.trans at_loop'
      rw [phase'] at phase
      cases phase
  | @queued loop at_loop waiting carried =>
    cases hmove with
    | @granted loop' at_loop' phase' turn =>
      cases at_loop.symm.trans at_loop'
      refine ⟨_, .queued turn.loop_self rfl carried, ?_⟩
      rw [phase']
      exact .inr (Nat.le_refl _)
    | @entered loop' at_loop' phase' _ turn executions =>
      cases at_loop.symm.trans at_loop'
      refine ⟨_, .executing turn.loop_self rfl carried ?_, ?_⟩
      · refine ⟨_, executions ▸ List.mem_append_right _ (List.mem_singleton_self _), rfl, carried, hf.past,
          rfl, hf.scheduled⟩
      · rw [phase']
        exact .inr (Nat.le_refl _)
    | discarded _ _ closed =>
      rw [hf.accepting] at closed
      cases closed
    | @finished loop' at_loop' phase' =>
      cases at_loop.symm.trans at_loop'
      rw [JobLoop.waiting, phase'] at waiting
      cases waiting
    | @taken loop' at_loop' phase' =>
      cases at_loop.symm.trans at_loop'
      rw [JobLoop.waiting, phase'] at waiting
      cases waiting
    | @returned loop' at_loop' phase' =>
      cases at_loop.symm.trans at_loop'
      rw [JobLoop.waiting, phase'] at waiting
      cases waiting
    | @ended loop' at_loop' fulfilled phase' =>
      cases at_loop.symm.trans at_loop'
      rw [JobLoop.waiting, phase'] at waiting
      cases waiting
  | @executing loop at_loop phase carried executed =>
    cases hmove with
    | @finished loop' at_loop' phase' succeeded turn =>
      cases at_loop.symm.trans at_loop'
      refine ⟨0, .done (executed.mono hgrow) ?_, .inl rfl⟩
      intro hobserved
      obtain ⟨request, hrequest, rfl⟩ := List.mem_map.mp carried
      have hheld : request ∈ (s.entry jobId).held := by
        rw [held_of_loop at_loop, carried_of_phase (.inr (.inr phase))]
        exact List.mem_append_right _ hrequest
      obtain ⟨hnone, record, hrecord, -, hsame⟩ := hf.inv.requests.held jobId request hheld
      obtain ⟨record', hrecord', hobserved'⟩ := hf.recorded
      cases hrecord.symm.trans hrecord'
      have hnodup := (hf.inv.requests.nodup jobId).sublist (turn.kept.map RefreshRequest.id)
      rw [List.map_append] at hnodup
      rw [turn.completions, callObservers_of_mem (List.nodup_append.mp hnodup).2.1 hrequest, hnone,
        ← hsame, hobserved', hobserved]
      rfl
    | @granted loop' at_loop' phase' =>
      cases at_loop.symm.trans at_loop'
      cases phase.symm.trans phase'
    | @entered loop' at_loop' phase' =>
      cases at_loop.symm.trans at_loop'
      cases phase.symm.trans phase'
    | @discarded loop' at_loop' phase' =>
      cases at_loop.symm.trans at_loop'
      cases phase.symm.trans phase'
    | @taken loop' at_loop' phase' =>
      cases at_loop.symm.trans at_loop'
      cases phase.symm.trans phase'
    | @returned loop' at_loop' phase' =>
      cases at_loop.symm.trans at_loop'
      cases phase.symm.trans phase'
    | @ended loop' at_loop' fulfilled phase' =>
      cases at_loop.symm.trans at_loop'
      cases phase.symm.trans phase'

/-! ## 4. Following a request through a run -/

theorem LoopMove.requested (h : s.LoopMove s' jobId) : s'.requested = s.requested := by
  cases h with
  | granted _ _ turn => exact turn.requested
  | entered _ _ _ turn => exact turn.requested
  | discarded _ _ _ turn => exact turn.requested
  | finished _ _ _ turn => exact turn.requested
  | taken _ _ _ _ turn => exact turn.requested
  | returned _ _ _ turn => exact turn.requested
  | ended _ _ _ turn => exact turn.requested

theorem requested_of_cases (h : s' = s ∨ s.LoopMove s' jobId) : s'.requested = s.requested := by
  rcases h with rfl | hmove
  · rfl
  · exact hmove.requested

theorem requested_refreshJobWithOptions {jobId : String} {context : Option ProgressContext}
    {throwOnFailure : Bool} {trigger : BidderRefreshTrigger} {now : Int} {observed : Bool} :
    ∃ record, (s.refreshJobWithOptions jobId context throwOnFailure trigger now observed).requested =
      Function.update s.requested s.nextRequest (some record) ∧ record.observed = observed := by
  unfold BidderRefreshes.refreshJobWithOptions
  simp only
  split
  · exact ⟨_, rfl, rfl⟩
  · split
    · exact ⟨_, rfl, rfl⟩
    · exact ⟨_, rfl, rfl⟩

theorem requested_immediate (he : (∃ jobId trigger, e = .refreshJobImmediately jobId trigger) ∨
      (∃ promise, e = .grantImmediate promise) ∨
      ∃ promise succeeded, e = .finishImmediate promise succeeded) :
    (s.handle e).requested = s.requested := by
  rcases he with ⟨jobId, trigger, rfl⟩ | ⟨promise, rfl⟩ | ⟨promise, succeeded, rfl⟩
  · simp only [BidderRefreshes.handle]
    unfold BidderRefreshes.refreshJobImmediately
    split
    · rfl
    · split <;> rfl
  · simp only [BidderRefreshes.handle]
    unfold BidderRefreshes.grantImmediate
    split
    · rfl
    · split
      · split <;> rfl
      · rfl
  · simp only [BidderRefreshes.handle]
    unfold BidderRefreshes.finishImmediate
    split
    · rfl
    · split <;> rfl

theorem requested_handle (h : s.RefreshInv) {record : RequestRecord}
    (hrecord : s.requested r = some record) (e : RefreshEvent) :
    (s.handle e).requested r = some record := by
  have hne : r ≠ s.nextRequest := by
    rintro rfl
    rw [(h.requests.fresh s.nextRequest (Nat.le_refl _)).1] at hrecord
    cases hrecord
  have hasked : ∀ {s' : BidderRefreshes} {observed : Bool}, (∃ record', s'.requested =
      Function.update s.requested s.nextRequest (some record') ∧ record'.observed = observed) →
      s'.requested r = some record := by
    rintro s' observed ⟨record', hupdate, -⟩
    rw [hupdate, Function.update_of_ne hne]
    exact hrecord
  cases e with
  | addJob jobId => exact hrecord
  | removeJob jobId => exact hrecord
  | refreshJob jobId context trigger now => exact hasked requested_refreshJobWithOptions
  | refreshJobForScan jobId context now => exact hasked requested_refreshJobWithOptions
  | refreshJobImmediately jobId trigger =>
    rw [requested_immediate (.inl ⟨jobId, trigger, rfl⟩)]
    exact hrecord
  | grantSlot jobId => exact (congrFun (requested_of_cases (grantSlot_cases jobId)) r).trans hrecord
  | grantMutex jobId => exact (congrFun (requested_of_cases (grantMutex_cases jobId)) r).trans hrecord
  | finishExecution jobId succeeded =>
    exact (congrFun (requested_of_cases (finishExecution_cases h.entries jobId succeeded)) r).trans hrecord
  | continueLoop jobId now =>
    exact (congrFun (requested_of_cases (continueLoop_cases jobId now)) r).trans hrecord
  | runFinally jobId => exact (congrFun (requested_of_cases (runFinally_cases jobId)) r).trans hrecord
  | grantImmediate promise =>
    rw [requested_immediate (.inr (.inl ⟨promise, rfl⟩))]
    exact hrecord
  | finishImmediate promise succeeded =>
    rw [requested_immediate (.inr (.inr ⟨promise, succeeded, rfl⟩))]
    exact hrecord
  | lockElsewhere jobId => exact hrecord
  | unlockElsewhere jobId => exact hrecord
  | closeBackgroundRefreshAdmission => exact hrecord
  | stop => exact hrecord

theorem settings_of_staysOpen (hopen : e.staysOpen jobId = true)
    (haccepting : s.acceptingBackgroundRefreshes = true) (hscheduled : s.scheduled jobId = true) :
    (s.step e).acceptingBackgroundRefreshes = true ∧ (s.step e).scheduled jobId = true := by
  rcases settings_handle s e with hsame | ⟨other, rfl⟩ | ⟨other, rfl⟩ | rfl | rfl
  · exact ⟨hsame.accepting.trans haccepting, (congrFun hsame.scheduled jobId).trans hscheduled⟩
  · refine ⟨haccepting, ?_⟩
    show Function.update s.scheduled other true jobId = true
    rw [Function.update_apply, hscheduled, ite_self]
  · refine ⟨haccepting, ?_⟩
    have hne : jobId ≠ other := by
      rintro rfl
      simp [RefreshEvent.staysOpen] at hopen
    show Function.update s.scheduled other false jobId = true
    rw [Function.update_of_ne hne]
    exact hscheduled
  · cases hopen
  · cases hopen

theorem Following.step (hf : s.Following jobId r since observed) (hopen : e.staysOpen jobId = true) :
    (s.step e).Following jobId r since observed := by
  obtain ⟨haccepting, hscheduled⟩ := settings_of_staysOpen hopen hf.accepting hf.scheduled
  obtain ⟨record, hrecord, hobserved⟩ := hf.recorded
  refine ⟨hf.inv.step e, haccepting, hscheduled, ?_, record, ?_, hobserved⟩
  · rw [tick_step]
    exact Nat.lt_succ_of_lt hf.past
  · exact requested_handle hf.inv hrecord e

/-- **Every step keeps a request in its places, and a step of its loop brings it nearer.** -/
theorem Place.step (hf : s.Following jobId r since observed) (h : s.Place jobId r since observed n)
    (hopen : e.staysOpen jobId = true) :
    ∃ n', (s.step e).Place jobId r since observed n' ∧
      (n' = 0 ∨ n' + (if s.loopMoved (s.step e) jobId then 1 else 0) ≤ n) := by
  have honce : ((s.handle e).completions r).length ≤ 1 := (hf.inv.step e).requests.once r
  have hgrow := logsGrow_handle hf.inv.entries e
  have hstep : ∀ {n'}, (s.handle e).Place jobId r since observed n' →
      (s.step e).Place jobId r since observed n' :=
    fun hplace => hplace.keep rfl id (.same rfl rfl) honce
  cases handle_cases hf.inv.entries hopen with
  | untouched entry =>
    refine ⟨n, hstep (h.keep (by rw [entry]) (by rw [entry]; exact id) hgrow honce), .inr ?_⟩
    have hstill : s.loopMoved (s.step e) jobId = false := by
      unfold loopMoved
      rw [show (s.step e).entry jobId = s.entry jobId from entry]
      simp
    rw [hstill]
    exact Nat.le_refl _
  | moved move =>
    obtain ⟨n', hplace, hle⟩ := Place.move hf h move honce
    refine ⟨n', hstep hplace, ?_⟩
    rcases hle with hzero | hle
    · exact .inl hzero
    refine .inr ?_
    split
    · exact hle
    · exact Nat.le_of_succ_le hle
  | coalesced context options running entry =>
    refine ⟨n, hstep (h.keep (by rw [entry]) ?_ hgrow honce), .inr ?_⟩
    · rw [entry]
      intro hmem
      show r ∈ ((s.entry jobId).state.pendingRequests ++ options.requests).map RefreshRequest.id
      rw [List.map_append]
      exact List.mem_append_left _ hmem
    · have hstill : s.loopMoved (s.step e) jobId = false := by
        unfold loopMoved
        rw [show (s.step e).entry jobId = _ from entry]
        simp
      rw [hstill]
      exact Nat.le_refl _
  | started idle =>
    cases h with
    | pending at_loop => cases idle.symm.trans at_loop
    | queued at_loop => cases idle.symm.trans at_loop
    | executing at_loop => cases idle.symm.trans at_loop
    | done executed answered =>
      exact ⟨0, hstep (Place.done_mono executed answered hgrow honce), .inl rfl⟩

theorem Place.run {jobId : String} {r since : Nat} {observed : Bool} {post : List RefreshEvent}
    (hopen : ∀ e ∈ post, e.staysOpen jobId = true) {s : BidderRefreshes} {n : Nat}
    (hf : s.Following jobId r since observed) (h : s.Place jobId r since observed n) :
    (Machine.run BidderRefreshes.step s post).Following jobId r since observed ∧
      ∃ n', (Machine.run BidderRefreshes.step s post).Place jobId r since observed n' ∧
        (n' = 0 ∨ n' + loopSteps jobId s post ≤ n) := by
  induction post generalizing s n with
  | nil => exact ⟨hf, n, h, .inr (Nat.le_refl _)⟩
  | cons e rest ih =>
    have hfirst := hopen e List.mem_cons_self
    obtain ⟨n₁, hplace, hle⟩ := h.step hf hfirst
    obtain ⟨hfollow, n₂, hplace₂, hle₂⟩ :=
      ih (fun e' he' => hopen e' (List.mem_cons_of_mem _ he')) (hf.step hfirst) hplace
    refine ⟨hfollow, n₂, hplace₂, ?_⟩
    rcases hle₂ with hzero | hle₂
    · exact .inl hzero
    rcases hle with rfl | hle
    · exact .inl (by omega)
    · refine .inr ?_
      rw [loopSteps]
      omega

/-! ## 5. When an execution begins -/

/-- An execution that a state has and the state before it had not: it began in this step, and a background
one only while admission is open. -/
def Begins (s : BidderRefreshes) (execution : StrategyExecution) : Prop :=
  execution.startedTick = s.tick ∧ (execution.background = true → s.acceptingBackgroundRefreshes = true)

theorem LoopMove.executions (h : s.LoopMove s' jobId) :
    ∀ execution ∈ s'.executions, execution ∈ s.executions ∨ s.Begins execution := by
  intro execution hmem
  cases h with
  | granted _ _ _ executions => exact .inl (executions ▸ hmem)
  | entered _ _ accepting _ executions =>
    rw [executions] at hmem
    rcases List.mem_append.mp hmem with hold | hnew
    · exact .inl hold
    · rw [List.mem_singleton] at hnew
      subst hnew
      exact .inr ⟨rfl, fun _ => accepting⟩
  | discarded _ _ _ _ executions => exact .inl (executions ▸ hmem)
  | finished _ _ _ _ executions => exact .inl (executions ▸ hmem)
  | taken _ _ _ _ _ executions => exact .inl (executions ▸ hmem)
  | returned _ _ _ _ executions => exact .inl (executions ▸ hmem)
  | ended _ _ _ _ executions => exact .inl (executions ▸ hmem)

theorem executions_of_cases (h : s' = s ∨ s.LoopMove s' jobId) :
    ∀ execution ∈ s'.executions, execution ∈ s.executions ∨ s.Begins execution := by
  rcases h with rfl | hmove
  · exact fun _ hmem => .inl hmem
  · exact hmove.executions

theorem executions_refreshJobWithOptions {context : Option ProgressContext}
    {throwOnFailure : Bool} {trigger : BidderRefreshTrigger} {now : Int} :
    (s.refreshJobWithOptions jobId context throwOnFailure trigger now observed).executions =
      s.executions := by
  unfold BidderRefreshes.refreshJobWithOptions
  simp only
  split
  · rfl
  · split <;> rfl

theorem executions_grantImmediate {promise : Nat} : ∀ execution ∈ (s.grantImmediate promise).executions,
    execution ∈ s.executions ∨ s.Begins execution := by
  unfold BidderRefreshes.grantImmediate
  intro execution hmem
  split at hmem
  · exact .inl hmem
  rename_i immediate himmediate
  split at hmem
  · split at hmem
    · exact .inl hmem
    rename_i hwanted
    rcases List.mem_append.mp hmem with hold | hnew
    · exact .inl hold
    rw [List.mem_singleton] at hnew
    subst hnew
    refine .inr ⟨rfl, fun hbackground => ?_⟩
    simp only [Bool.and_eq_true, Bool.not_eq_true'] at hwanted
    by_contra hclosed
    exact hwanted ⟨by simpa using hclosed, hbackground⟩
  · exact .inl hmem

theorem executions_handle (h : s.EntriesInv) (e : RefreshEvent) :
    ∀ execution ∈ (s.handle e).executions, execution ∈ s.executions ∨ s.Begins execution := by
  have hsame : ∀ {s' : BidderRefreshes}, s'.executions = s.executions →
      ∀ execution ∈ s'.executions, execution ∈ s.executions ∨ s.Begins execution :=
    fun heq execution hmem => .inl (heq ▸ hmem)
  cases e with
  | addJob jobId => exact hsame rfl
  | removeJob jobId => exact hsame rfl
  | refreshJob jobId context trigger now => exact hsame executions_refreshJobWithOptions
  | refreshJobForScan jobId context now => exact hsame executions_refreshJobWithOptions
  | refreshJobImmediately jobId trigger =>
    refine hsame ?_
    simp only [BidderRefreshes.handle]
    unfold BidderRefreshes.refreshJobImmediately
    split
    · rfl
    · split <;> rfl
  | grantSlot jobId => exact executions_of_cases (grantSlot_cases jobId)
  | grantMutex jobId => exact executions_of_cases (grantMutex_cases jobId)
  | finishExecution jobId succeeded => exact executions_of_cases (finishExecution_cases h jobId succeeded)
  | continueLoop jobId now => exact executions_of_cases (continueLoop_cases jobId now)
  | runFinally jobId => exact executions_of_cases (runFinally_cases jobId)
  | grantImmediate promise => exact executions_grantImmediate
  | finishImmediate promise succeeded =>
    refine hsame ?_
    simp only [BidderRefreshes.handle]
    unfold BidderRefreshes.finishImmediate
    split
    · rfl
    · split <;> rfl
  | lockElsewhere jobId => exact hsame rfl
  | unlockElsewhere jobId => exact hsame rfl
  | closeBackgroundRefreshAdmission => exact hsame rfl
  | stop => exact hsame rfl

theorem executions_past (maxConcurrentJobs : Nat) (es : List RefreshEvent) :
    ∀ execution ∈ (BidderRefreshes.after maxConcurrentJobs es).executions,
      execution.startedTick < es.length := by
  induction es using List.reverseRecOn with
  | nil => exact fun _ hmem => nomatch hmem
  | append_singleton es e ih =>
    intro execution hmem
    rw [List.length_append, List.length_singleton]
    rw [BidderRefreshes.after, Machine.run_concat] at hmem
    rcases executions_handle (RefreshInv.after maxConcurrentJobs es).entries e execution hmem with
      hold | ⟨htick, -⟩
    · exact Nat.lt_succ_of_lt (ih execution hold)
    · rw [htick, tick_after]
      exact Nat.lt_succ_self _

/-! ## 6. A coalesced request -/

/-- The request that `e` makes after `earlier` is followed, whatever comes while admission stays open and
the job stays scheduled: its callback is called at most once; an execution for it has begun, or it is
still owed one; and when the loop has made seven steps, the execution has begun and ended and the callback
has been called. -/
def RequestFollowed (maxConcurrentJobs : Nat) (earlier : List RefreshEvent) (e : RefreshEvent)
    (jobId : String) (observed : Bool) : Prop :=
  ∀ post : List RefreshEvent, (∀ e' ∈ post, e'.staysOpen jobId = true) →
    ((after maxConcurrentJobs (earlier ++ e :: post)).completions
        (after maxConcurrentJobs earlier).nextRequest).length ≤ 1 ∧
    ((after maxConcurrentJobs (earlier ++ e :: post)).ExecutedSince jobId
          (after maxConcurrentJobs earlier).nextRequest earlier.length ∨
      (after maxConcurrentJobs (earlier ++ e :: post)).Owed jobId
        (after maxConcurrentJobs earlier).nextRequest) ∧
    (7 ≤ loopSteps jobId (after maxConcurrentJobs (earlier ++ [e])) post →
      (after maxConcurrentJobs (earlier ++ e :: post)).ExecutedSince jobId
          (after maxConcurrentJobs earlier).nextRequest earlier.length ∧
        (observed = true → ((after maxConcurrentJobs (earlier ++ e :: post)).completions
          (after maxConcurrentJobs earlier).nextRequest).length = 1))

theorem Place.executed_or_owed
    (h : s.Place jobId r since observed n) : s.ExecutedSince jobId r since ∨ s.Owed jobId r := by
  cases h with
  | @pending loop at_loop behind phase =>
    refine .inr ⟨loop, at_loop, .inl ⟨behind, ?_⟩⟩
    by_contra hfinishing
    obtain ⟨loop', fulfilled, hloop, hphase⟩ := JobEntry.finishing_iff.mp (by simpa using hfinishing)
    cases at_loop.symm.trans hloop
    rw [hphase] at phase
    cases phase
  | queued at_loop waiting carried => exact .inr ⟨_, at_loop, .inr ⟨waiting, carried⟩⟩
  | executing _ _ _ executed => exact .inl executed
  | done executed _ => exact .inl executed

theorem Place.answered (h : s.Place jobId r since observed 0) :
    s.ExecutedSince jobId r since ∧ (observed = true → (s.completions r).length = 1) := by
  generalize hn : 0 = n at h
  cases h with
  | pending => omega
  | @queued loop at_loop waiting =>
    rw [JobLoop.waiting] at waiting
    cases hphase : loop.phase <;> simp [hphase, LoopPhase.toRelease] at waiting hn
  | executing => omega
  | done executed answered => exact ⟨executed, answered⟩

theorem step_coalesced
    (he : e.asksFor = some (jobId, observed)) (hopen : s.acceptingBackgroundRefreshes = true)
    (hrunning : (s.entry jobId).state.running = true) :
    (∃ context options, options.requests = [⟨s.nextRequest, observed⟩] ∧ (s.step e).entry jobId =
        { s.entry jobId with state := (s.entry jobId).state.coalesce context options }) ∧
      (∃ record, (s.step e).requested s.nextRequest = some record ∧ record.observed = observed) ∧
      e.staysOpen jobId = true := by
  have hasked : ∀ context trigger now, (∃ context' options, options.requests = [⟨s.nextRequest, observed⟩] ∧
        (s.refreshJobWithOptions jobId context false trigger now observed).entry jobId =
          { s.entry jobId with state := (s.entry jobId).state.coalesce context' options }) ∧
      ∃ record, (s.refreshJobWithOptions jobId context false trigger now observed).requested
        s.nextRequest = some record ∧ record.observed = observed := by
    intro context trigger now
    refine ⟨⟨context, ⟨false, trigger, now, [⟨s.nextRequest, observed⟩]⟩, rfl, ?_⟩, ?_⟩
    · unfold BidderRefreshes.refreshJobWithOptions
      simp only [hopen, hrunning, Bool.not_true, Bool.false_eq_true, if_false, if_true]
      exact entry_putEntry_self
    · obtain ⟨record, hrequested, hobserved⟩ := @requested_refreshJobWithOptions s jobId context false
        trigger now observed
      exact ⟨record, by rw [hrequested, Function.update_self], hobserved⟩
  cases e with
  | refreshJob other context trigger now =>
    cases he
    exact ⟨(hasked _ _ _).1, (hasked _ _ _).2, rfl⟩
  | refreshJobForScan other context now =>
    cases he
    exact ⟨(hasked _ _ _).1, (hasked _ _ _).2, rfl⟩
  | _ => cases he

theorem after_cons (maxConcurrentJobs : Nat) (earlier : List RefreshEvent) (e : RefreshEvent)
    (post : List RefreshEvent) : after maxConcurrentJobs (earlier ++ e :: post) =
      Machine.run step ((after maxConcurrentJobs earlier).step e) post := by
  rw [after, Machine.run_append, Machine.run_cons]
  rfl

variable {maxConcurrentJobs : Nat} {earlier : List RefreshEvent}

theorem requestFollowed_of_not_finishing (he : e.asksFor = some (jobId, observed))
    (hopen : (after maxConcurrentJobs earlier).acceptingBackgroundRefreshes = true)
    (hscheduled : (after maxConcurrentJobs earlier).scheduled jobId = true)
    (hrunning : ((after maxConcurrentJobs earlier).entry jobId).state.running = true)
    (hwindow : ((after maxConcurrentJobs earlier).entry jobId).finishing = false) :
    RequestFollowed maxConcurrentJobs earlier e jobId observed := by
  intro post hpost
  have hinv := RefreshInv.after maxConcurrentJobs earlier
  have htick := tick_after maxConcurrentJobs earlier
  rw [after_cons, show after maxConcurrentJobs (earlier ++ [e]) =
    (after maxConcurrentJobs earlier).step e from Machine.run_concat]
  generalize after maxConcurrentJobs earlier = s at *
  obtain ⟨⟨context, options, hrequests, hentry⟩, hrecord, hstays⟩ := step_coalesced he hopen hrunning
  obtain ⟨loop, hloop⟩ := hinv.entries.loop_of_running hrunning
  obtain ⟨haccepting, hstill⟩ := settings_of_staysOpen hstays hopen hscheduled
  have hfollow : (s.step e).Following jobId s.nextRequest earlier.length observed :=
    ⟨hinv.step e, haccepting, hstill, by rw [tick_step, htick]; exact Nat.lt_succ_self _, hrecord⟩
  have hphase : 0 < loop.phase.toRelease := by
    cases hphase : loop.phase with
    | returned fulfilled =>
      rw [JobEntry.finishing_iff.mpr ⟨loop, fulfilled, hloop, hphase⟩] at hwindow
      cases hwindow
    | _ => exact Nat.succ_pos _
  have hplace : (s.step e).Place jobId s.nextRequest earlier.length observed (loop.phase.toRelease + 3) := by
    refine .pending (by rw [hentry]; exact hloop) ?_ hphase
    rw [hentry]
    show s.nextRequest ∈ ((s.entry jobId).state.pendingRequests ++ options.requests).map RefreshRequest.id
    rw [hrequests, List.map_append]
    exact List.mem_append_right _ (List.mem_singleton_self _)
  have hseven := loop.phase.toRelease_le
  obtain ⟨hend, n, hfinal, hle⟩ := hplace.run hpost hfollow
  refine ⟨hend.inv.requests.once _, hfinal.executed_or_owed, ?_⟩
  intro hsteps
  have hzero : n = 0 := by omega
  subst hzero
  exact hfinal.answered

theorem runFinally_of_returned {loop : JobLoop} {fulfilled : Bool}
    (hloop : (s.entry jobId).loop = some loop) (hphase : loop.phase = .returned fulfilled) :
    s.runFinally jobId = s.finishLoop jobId loop fulfilled := by
  unfold runFinally
  rw [hloop]
  simp only [hphase]

theorem not_requestFollowed_of_finishing (he : e.asksFor = some (jobId, observed))
    (hopen : (after maxConcurrentJobs earlier).acceptingBackgroundRefreshes = true)
    (hrunning : ((after maxConcurrentJobs earlier).entry jobId).state.running = true)
    (hwindow : ((after maxConcurrentJobs earlier).entry jobId).finishing = true) :
    ¬ RequestFollowed maxConcurrentJobs earlier e jobId observed := by
  intro hfollowed
  obtain ⟨-, hone, -⟩ := hfollowed [.runFinally jobId] (by simp [RefreshEvent.staysOpen])
  have hpast := executions_past maxConcurrentJobs earlier
  have hinv := RefreshInv.after maxConcurrentJobs earlier
  have htick := tick_after maxConcurrentJobs earlier
  rw [after_cons] at hone
  generalize after maxConcurrentJobs earlier = s at *
  obtain ⟨⟨context, options, hrequests, hentry⟩, -, -⟩ := step_coalesced he hopen hrunning
  obtain ⟨loop, fulfilled, hloop, hphase⟩ := JobEntry.finishing_iff.mp hwindow
  -- the callback finds the loop returned, and leaves neither loop nor pending request
  have hloop' : ((s.step e).entry jobId).loop = some loop := by
    rw [hentry]
    exact hloop
  have hfinal : (s.step e).handle (.runFinally jobId) = (s.step e).finishLoop jobId loop fulfilled :=
    runFinally_of_returned hloop' hphase
  have hrun : Machine.run step (s.step e) [.runFinally jobId] = (s.step e).step (.runFinally jobId) := rfl
  rw [hrun, step, hfinal] at hone
  rcases hone with ⟨execution, hmem, -, -, hsince, -⟩ | ⟨loop', hloop'', -⟩
  · rcases executions_handle hinv.entries e execution hmem with hold | ⟨hnow, -⟩
    · exact Nat.lt_asymm hsince (hpast execution hold)
    · rw [hnow, htick] at hsince
      exact Nat.lt_irrefl _ hsince
  · have hnone : (((s.step e).finishLoop jobId loop fulfilled).entry jobId).loop = none :=
      congrArg JobEntry.loop entry_putEntry_self
    cases hnone.symm.trans hloop''

/-- **A request that finds the loop of its job running is followed exactly when it does not come in the
loop's finishing window.** -/
theorem coalesced_request_followed_iff (maxConcurrentJobs : Nat) (earlier : List RefreshEvent)
    (e : RefreshEvent) (jobId : String) (observed : Bool) (he : e.asksFor = some (jobId, observed))
    (hopen : (after maxConcurrentJobs earlier).acceptingBackgroundRefreshes = true)
    (hscheduled : (after maxConcurrentJobs earlier).scheduled jobId = true)
    (hrunning : ((after maxConcurrentJobs earlier).entry jobId).state.running = true) :
    RequestFollowed maxConcurrentJobs earlier e jobId observed ↔
      ((after maxConcurrentJobs earlier).entry jobId).finishing = false := by
  constructor
  · intro hfollowed
    by_contra hwindow
    exact not_requestFollowed_of_finishing he hopen hrunning (by simpa using hwindow) hfollowed
  · exact requestFollowed_of_not_finishing he hopen hscheduled hrunning

/-- A job that is refreshed while its loop executes. -/
def refreshedWhileExecuting : List RefreshEvent :=
  [.addJob "job", .refreshJob "job" none .hotStream 0, .grantSlot "job", .grantMutex "job"]

/-- The same job when the loop has returned and its callback has not run. -/
def refreshedWhileFinishing : List RefreshEvent :=
  refreshedWhileExecuting ++ [.finishExecution "job" true, .continueLoop "job" 1]

theorem request_during_execution_followed :
    RequestFollowed 1 refreshedWhileExecuting (.refreshJobForScan "job" ⟨1, 1⟩ 2) "job" true :=
  (coalesced_request_followed_iff 1 refreshedWhileExecuting (.refreshJobForScan "job" ⟨1, 1⟩ 2) "job" true
    rfl rfl rfl (by decide +kernel)).mpr (by decide +kernel)

/-- **A request is lost in the finishing window.**  The job is scheduled, admission is open, and the loop
is marked running.  After the callback no loop is left, nothing is pending, the only execution is the one
that began before the request, and the request's callback has not been called. -/
theorem request_lost_in_finishing_window :
    ¬ (∀ (maxConcurrentJobs : Nat) (earlier : List RefreshEvent) (e : RefreshEvent) (jobId : String)
        (observed : Bool), e.asksFor = some (jobId, observed) →
        (after maxConcurrentJobs earlier).acceptingBackgroundRefreshes = true →
        (after maxConcurrentJobs earlier).scheduled jobId = true →
        ((after maxConcurrentJobs earlier).entry jobId).state.running = true →
        RequestFollowed maxConcurrentJobs earlier e jobId observed) ∧
    (after 1 (refreshedWhileFinishing ++
        [.refreshJobForScan "job" ⟨1, 1⟩ 2, .runFinally "job"])).entry "job" = JobEntry.idle ∧
    (after 1 (refreshedWhileFinishing ++
        [.refreshJobForScan "job" ⟨1, 1⟩ 2, .runFinally "job"])).executions.map
          StrategyExecution.startedTick = [3] ∧
    (after 1 (refreshedWhileFinishing ++
        [.refreshJobForScan "job" ⟨1, 1⟩ 2, .runFinally "job"])).completions 1 = [] := by
  refine ⟨?_, by decide +kernel, by decide +kernel, by decide +kernel⟩
  intro hclaim
  have hfollowed := hclaim 1 refreshedWhileFinishing (.refreshJobForScan "job" ⟨1, 1⟩ 2) "job" true rfl
    (by decide +kernel) (by decide +kernel) (by decide +kernel)
  exact not_requestFollowed_of_finishing rfl (by decide +kernel) (by decide +kernel) (by decide +kernel)
    hfollowed

end BidderRefreshes

end Artgod.Trading
