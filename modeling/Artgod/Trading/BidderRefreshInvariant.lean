/-
# What the bidder keeps about its jobs and counters

Two invariants of every run, closing included.

* `EntryInv`, of one job: `running` says that a loop is there, what is pending belongs to a running loop,
  and no background execution throws.
* `PressureInv`: the three counters are the numbers of refreshes that wait, run and are pending.
-/
import Artgod.Trading.BidderRefresh

namespace Artgod.Trading

open Js

/-! ## 1. One job -/

/-- What holds of the entry of a job. -/
structure EntryInv (entry : JobEntry) : Prop where
  running : entry.state.running = entry.loop.isSome
  promise : entry.state.inFlightPromise = entry.loop.map JobLoop.promise
  unpended : entry.state.pending = false → entry.state.pendingRequests = []
  idle : entry.state.running = false → entry.state.pending = false
  lenient : ∀ loop, entry.loop = some loop →
    loop.options.throwOnFailure = false ∧ loop.phase ≠ .returned false
  pendingLenient : entry.state.pendingThrowOnFailure = false

theorem EntryInv.ofIdle : EntryInv JobEntry.idle := by
  refine ⟨rfl, rfl, fun _ => rfl, fun _ => rfl, ?_, rfl⟩
  intro loop h
  cases h

variable {entry : JobEntry}

theorem EntryInv.clearPending (h : EntryInv entry) :
    EntryInv { entry with state := entry.state.clearPending } :=
  ⟨h.running, h.promise, fun _ => rfl, fun _ => rfl, h.lenient, rfl⟩

variable {context : Option ProgressContext} {options : JobExecutionOptions}

theorem EntryInv.coalesce (h : EntryInv entry)
    (hrunning : entry.state.running = true)
    (hlenient : options.throwOnFailure = false) :
    EntryInv { entry with state := entry.state.coalesce context options } := by
  refine ⟨h.running, h.promise, (fun hno => nomatch hno), ?_, h.lenient, ?_⟩
  · intro hidle
    rw [show entry.state.running = false from hidle] at hrunning
    cases hrunning
  · simp [JobExecutionState.coalesce, h.pendingLenient, hlenient]

theorem EntryInv.setLoop {loop loop' : JobLoop} {executing : Bool} (h : EntryInv entry)
    (hloop : entry.loop = some loop) (hpromise : loop'.promise = loop.promise)
    (hlenient : loop'.options.throwOnFailure = false) (hphase : loop'.phase ≠ .returned false) :
    EntryInv { state := { entry.state with executing := executing }, loop := some loop' } := by
  have hrunning := h.running
  have hinFlight := h.promise
  rw [hloop] at hrunning hinFlight
  refine ⟨hrunning, ?_, h.unpended, h.idle, ?_, h.pendingLenient⟩
  · rw [hinFlight, Option.map_some, Option.map_some, hpromise]
  · rintro other ⟨⟩
    exact ⟨hlenient, hphase⟩

theorem EntryInv.start {promise : Nat}
    (hlenient : options.throwOnFailure = false) :
    EntryInv
      { state :=
          { entry.state.clearPending with running := true, inFlightPromise := some promise }
        loop := some ⟨promise, context, options, .slot⟩ } := by
  refine ⟨rfl, rfl, fun _ => rfl, fun _ => rfl, ?_, rfl⟩
  rintro loop ⟨⟩
  exact ⟨hlenient, nofun⟩

theorem EntryInv.finish :
    EntryInv
      { state := { entry.state.clearPending with running := false, inFlightPromise := none }
        loop := none } := by
  refine ⟨rfl, rfl, fun _ => rfl, fun _ => rfl, ?_, rfl⟩
  rintro loop ⟨⟩

namespace BidderRefreshes

variable {s : BidderRefreshes}

variable {jobId : String} {entry : JobEntry}

theorem entry_putEntry_self :
    (s.putEntry jobId entry).entry jobId = entry := by
  simp [BidderRefreshes.entry, putEntry, OrderedMap.get_set]

theorem entry_putEntry_of_ne {other : String} (h : other ≠ jobId) :
    (s.putEntry jobId entry).entry other = s.entry other := by
  simp [BidderRefreshes.entry, putEntry, OrderedMap.get_set, h]

/-- Every job's entry is well formed. -/
def EntriesInv (s : BidderRefreshes) : Prop := ∀ jobId, EntryInv (s.entry jobId)

theorem EntriesInv.put (h : s.EntriesInv) (hentry : EntryInv entry) :
    (s.putEntry jobId entry).EntriesInv := by
  intro other
  rcases eq_or_ne other jobId with rfl | hne
  · rw [entry_putEntry_self]
    exact hentry
  · rw [entry_putEntry_of_ne hne]
    exact h other

theorem EntriesInv.loop_of_running (h : s.EntriesInv)
    (hrunning : (s.entry jobId).state.running = true) : ∃ loop, (s.entry jobId).loop = some loop := by
  rw [(h jobId).running] at hrunning
  exact Option.isSome_iff_exists.mp hrunning

theorem EntriesInv.idle_loop (h : s.EntriesInv)
    (hrunning : (s.entry jobId).state.running = false) : (s.entry jobId).loop = none := by
  rw [(h jobId).running] at hrunning
  exact Option.not_isSome_iff_eq_none.mp (by rw [hrunning]; decide)

variable {loop : JobLoop} {promise : Nat} {s' : BidderRefreshes}

theorem EntriesInv.putLoop (h : s.EntriesInv) {loop' : JobLoop} {executing : Bool}
    (hloop : (s.entry jobId).loop = some loop) (hpromise : loop'.promise = loop.promise)
    (hoptions : loop'.options = loop.options) (hphase : loop'.phase ≠ .returned false) :
    (s.putEntry jobId
      { state := { (s.entry jobId).state with executing := executing }
        loop := some loop' }).EntriesInv :=
  h.put ((h jobId).setLoop hloop hpromise (hoptions ▸ ((h jobId).lenient loop hloop).1) hphase)

theorem EntriesInv.refreshJobWithOptions (h : s.EntriesInv) (jobId : String)
    (context : Option ProgressContext) (trigger : BidderRefreshTrigger) (now : Int) (observed : Bool) :
    (s.refreshJobWithOptions jobId context false trigger now observed).EntriesInv := by
  unfold BidderRefreshes.refreshJobWithOptions
  simp only
  split
  · exact h
  split
  · rename_i hrunning
    exact h.put ((h jobId).coalesce hrunning rfl)
  · exact h.put (.start rfl)

theorem EntriesInv.grantSlot (h : s.EntriesInv) (jobId : String) : (s.grantSlot jobId).EntriesInv := by
  unfold BidderRefreshes.grantSlot
  split
  · exact h
  rename_i loop hloop
  split
  · exact h.putLoop hloop rfl rfl nofun
  · exact h

theorem EntriesInv.grantMutex (h : s.EntriesInv) (jobId : String) : (s.grantMutex jobId).EntriesInv := by
  unfold BidderRefreshes.grantMutex
  split
  · exact h
  rename_i loop hloop
  split
  · split
    · exact h.putLoop hloop rfl rfl nofun
    · exact h.putLoop hloop rfl rfl nofun
  · exact h

theorem EntriesInv.finishedPhase (h : s.EntriesInv)
    (hloop : (s.entry jobId).loop = some loop) (succeeded : Bool) :
    (if !succeeded && loop.options.throwOnFailure then LoopPhase.returned false else .released) =
      .released := by
  rw [((h jobId).lenient loop hloop).1, Bool.and_false]
  rfl

theorem EntriesInv.finishExecution (h : s.EntriesInv) (jobId : String) (succeeded : Bool) :
    (s.finishExecution jobId succeeded).EntriesInv := by
  unfold BidderRefreshes.finishExecution
  split
  · exact h
  rename_i loop hloop
  split
  · refine h.putLoop hloop rfl rfl ?_
    rw [h.finishedPhase hloop]
    exact nofun
  · exact h

theorem EntriesInv.continueLoop (h : s.EntriesInv) (jobId : String) (now : Int) :
    (s.continueLoop jobId now).EntriesInv := by
  unfold BidderRefreshes.continueLoop
  split
  · exact h
  rename_i loop hloop
  split
  · split
    · have hcleared := (h jobId).clearPending
      exact h.put (hcleared.setLoop hloop rfl (h jobId).pendingLenient nofun)
    · exact h.putLoop hloop rfl rfl nofun
  · exact h

theorem EntriesInv.runFinally (h : s.EntriesInv) (jobId : String) : (s.runFinally jobId).EntriesInv := by
  unfold BidderRefreshes.runFinally
  split
  · exact h
  · split
    · exact h.put .finish
    · exact h

theorem entry_close : s.closeBackgroundRefreshAdmission.entry jobId =
    { s.entry jobId with state := (s.entry jobId).state.clearPending } := by
  unfold BidderRefreshes.entry closeBackgroundRefreshAdmission
  simp only [OrderedMap.get_map]
  cases s.entries.get jobId <;> rfl

theorem EntriesInv.close (h : s.EntriesInv) : s.closeBackgroundRefreshAdmission.EntriesInv := by
  intro jobId
  rw [entry_close]
  exact (h jobId).clearPending

theorem entries_refreshJobImmediately {trigger : BidderRefreshTrigger} :
    (s.refreshJobImmediately jobId trigger).entries = s.entries := by
  unfold BidderRefreshes.refreshJobImmediately
  split
  · rfl
  · split
    · rfl
    · rfl

theorem entries_grantImmediate : (s.grantImmediate promise).entries = s.entries := by
  unfold BidderRefreshes.grantImmediate
  split
  · rfl
  split
  · split
    · rfl
    · rfl
  · rfl

theorem entries_finishImmediate {succeeded : Bool} :
    (s.finishImmediate promise succeeded).entries = s.entries := by
  unfold BidderRefreshes.finishImmediate
  split
  · rfl
  · split
    · rfl
    · rfl

theorem EntriesInv.congr (h : s.EntriesInv) (hentries : s'.entries = s.entries) :
    s'.EntriesInv := by
  intro jobId
  have hjob := h jobId
  unfold BidderRefreshes.entry at hjob ⊢
  rw [hentries]
  exact hjob

theorem EntriesInv.handle (h : s.EntriesInv) (e : RefreshEvent) : (s.handle e).EntriesInv := by
  cases e with
  | addJob jobId => exact h
  | removeJob jobId => exact h
  | refreshJob jobId context trigger now => exact h.refreshJobWithOptions jobId context trigger now false
  | refreshJobForScan jobId context now => exact h.refreshJobWithOptions jobId _ _ now true
  | refreshJobImmediately jobId trigger => exact h.congr entries_refreshJobImmediately
  | grantSlot jobId => exact h.grantSlot jobId
  | grantMutex jobId => exact h.grantMutex jobId
  | finishExecution jobId succeeded => exact h.finishExecution jobId succeeded
  | continueLoop jobId now => exact h.continueLoop jobId now
  | runFinally jobId => exact h.runFinally jobId
  | grantImmediate promise => exact h.congr entries_grantImmediate
  | finishImmediate promise succeeded => exact h.congr entries_finishImmediate
  | lockElsewhere jobId => exact h
  | unlockElsewhere jobId => exact h
  | closeBackgroundRefreshAdmission => exact h.close
  | stop => exact EntriesInv.close (s := { s with acceptingRefreshes := false }) h

theorem EntriesInv.step (h : s.EntriesInv) (e : RefreshEvent) : (s.step e).EntriesInv := h.handle e

/-! ## 2. The counters -/

/-- The counters are the numbers of refreshes that wait, run and are pending: the loops of the jobs and
the immediate refreshes together. -/
structure PressureInv (s : BidderRefreshes) : Prop where
  waiting : s.waitingRefreshCount =
    s.entries.count JobEntry.waiting + s.immediates.count fun immediate => !immediate.executing
  active : s.activeRefreshCount =
    s.entries.count JobEntry.executing + s.immediates.count ImmediateRefresh.executing
  pending : s.pendingRefreshCount = s.entries.count JobEntry.pending
  known : ∀ promise, s.nextPromise ≤ promise → s.immediates.get promise = none

theorem count_putEntry {p : JobEntry → Bool} {jobId : String} {entry : JobEntry}
    (hidle : p JobEntry.idle = false) :
    (s.putEntry jobId entry).entries.count p + (if p (s.entry jobId) then 1 else 0) =
      s.entries.count p + (if p entry then 1 else 0) := by
  have hset : (s.putEntry jobId entry).entries.count p + OrderedMap.tally p (s.entries.get jobId) =
      s.entries.count p + OrderedMap.tally p (some entry) := OrderedMap.count_set
  have htally : OrderedMap.tally p (s.entries.get jobId) = if p (s.entry jobId) then 1 else 0 := by
    unfold BidderRefreshes.entry
    cases s.entries.get jobId with
    | none => simp [hidle]
    | some old => rfl
  rw [htally, OrderedMap.tally_some] at hset
  exact hset

/-- The counters after a step that changes the entry of one job: each counter moves as the entry's mark
does. -/
theorem PressureInv.put (h : s.PressureInv)
    (hentries : s'.entries = (s.putEntry jobId entry).entries) (himmediates : s'.immediates = s.immediates)
    (hnext : s.nextPromise ≤ s'.nextPromise)
    (hwaiting : s'.waitingRefreshCount + (if (s.entry jobId).waiting then 1 else 0) =
      s.waitingRefreshCount + (if entry.waiting then 1 else 0))
    (hactive : s'.activeRefreshCount + (if (s.entry jobId).executing then 1 else 0) =
      s.activeRefreshCount + (if entry.executing then 1 else 0))
    (hpending : s'.pendingRefreshCount + (if (s.entry jobId).pending then 1 else 0) =
      s.pendingRefreshCount + (if entry.pending then 1 else 0)) : s'.PressureInv := by
  have hw := @count_putEntry s JobEntry.waiting jobId entry rfl
  have ha := @count_putEntry s JobEntry.executing jobId entry rfl
  have hp := @count_putEntry s JobEntry.pending jobId entry rfl
  have h₁ := h.waiting
  have h₂ := h.active
  have h₃ := h.pending
  refine ⟨?_, ?_, ?_, ?_⟩
  · rw [hentries, himmediates]
    omega
  · rw [hentries, himmediates]
    omega
  · rw [hentries]
    omega
  · intro promise hle
    rw [himmediates]
    exact h.known promise (Nat.le_trans hnext hle)

theorem count_pos {p : JobEntry → Bool} (hidle : p JobEntry.idle = false)
    (h : p (s.entry jobId) = true) : 0 < s.entries.count p := by
  have hcount := @count_putEntry s p jobId JobEntry.idle hidle
  rw [if_pos h, hidle] at hcount
  simp only [Bool.false_eq_true, if_false] at hcount
  omega

theorem PressureInv.countCleared (h : s.PressureInv) (jobId : String) :
    s.countCleared jobId + (if (s.entry jobId).pending then 1 else 0) = s.pendingRefreshCount := by
  unfold BidderRefreshes.countCleared
  by_cases hpending : (s.entry jobId).pending = true
  · have hpos : 0 < s.entries.count JobEntry.pending := count_pos rfl hpending
    have hcount := h.pending
    rw [if_pos hpending, if_pos hpending]
    omega
  · rw [if_neg hpending, if_neg hpending]
    rfl

theorem PressureInv.refreshJobWithOptions (h : s.PressureInv) (hentries : s.EntriesInv) (jobId : String)
    (context : Option ProgressContext) (throwOnFailure : Bool) (trigger : BidderRefreshTrigger) (now : Int)
    (observed : Bool) :
    (s.refreshJobWithOptions jobId context throwOnFailure trigger now observed).PressureInv := by
  unfold BidderRefreshes.refreshJobWithOptions
  simp only
  split
  · exact ⟨h.waiting, h.active, h.pending, h.known⟩
  split
  · refine h.put rfl rfl (Nat.le_refl _) rfl rfl ?_
    unfold BidderRefreshes.coalesce BidderRefreshes.record
    simp only
    by_cases hpending : (s.entry jobId).pending = true
    · rw [if_pos hpending, if_pos hpending]
      rfl
    · rw [if_neg hpending, if_neg hpending]
      rfl
  · rename_i hidle
    have hloop := hentries.idle_loop (by simpa using hidle)
    refine h.put rfl rfl (Nat.le_succ _) ?_ ?_ (h.countCleared jobId)
    · simp only [JobEntry.waiting, hloop]
      rfl
    · simp only [JobEntry.executing, hloop]
      rfl

theorem PressureInv.grantSlot (h : s.PressureInv) (jobId : String) : (s.grantSlot jobId).PressureInv := by
  unfold BidderRefreshes.grantSlot
  split
  · exact h
  rename_i loop hloop
  split
  · rename_i hphase
    refine h.put rfl rfl (Nat.le_refl _) ?_ ?_ rfl
    · simp only [JobEntry.waiting, hloop, Option.any_some, JobLoop.waiting, hphase.1]
      rfl
    · simp only [JobEntry.executing, hloop, Option.any_some, hphase.1]
      rfl
  · exact h

theorem PressureInv.grantMutex (h : s.PressureInv) (jobId : String) : (s.grantMutex jobId).PressureInv := by
  unfold BidderRefreshes.grantMutex
  split
  · exact h
  rename_i loop hloop
  split
  · rename_i hphase
    have hwaits : (s.entry jobId).waiting = true := by
      simp only [JobEntry.waiting, hloop, Option.any_some, JobLoop.waiting, hphase.1]
      rfl
    have hidle : (s.entry jobId).executing = false := by
      simp only [JobEntry.executing, hloop, Option.any_some, hphase.1]
      rfl
    have hpos : 0 < s.waitingRefreshCount := by
      have hcount : 0 < s.entries.count JobEntry.waiting := count_pos rfl hwaits
      have hw := h.waiting
      omega
    split
    · refine h.put rfl rfl (Nat.le_refl _) ?_ ?_ rfl
      · rw [if_pos hwaits]
        exact Nat.sub_add_cancel hpos
      · rw [hidle]
        rfl
    · refine h.put rfl rfl (Nat.le_refl _) ?_ ?_ rfl
      · rw [if_pos hwaits]
        exact Nat.sub_add_cancel hpos
      · rw [hidle]
        rfl
  · exact h

theorem PressureInv.finishExecution (h : s.PressureInv) (jobId : String) (succeeded : Bool) :
    (s.finishExecution jobId succeeded).PressureInv := by
  unfold BidderRefreshes.finishExecution
  split
  · exact h
  rename_i loop hloop
  split
  · rename_i hphase
    have hruns : (s.entry jobId).executing = true := by
      simp only [JobEntry.executing, hloop, Option.any_some, hphase]
      rfl
    have hpos : 0 < s.activeRefreshCount := by
      have hcount : 0 < s.entries.count JobEntry.executing := count_pos rfl hruns
      have ha := h.active
      omega
    refine h.put rfl rfl (Nat.le_refl _) ?_ ?_ rfl
    · simp only [JobEntry.waiting, hloop, Option.any_some, JobLoop.waiting, hphase]
      cases !succeeded && loop.options.throwOnFailure <;> rfl
    · rw [if_pos hruns]
      simp only [JobEntry.executing, Option.any_some]
      cases !succeeded && loop.options.throwOnFailure
      · exact Nat.sub_add_cancel hpos
      · exact Nat.sub_add_cancel hpos
  · exact h

theorem PressureInv.continueLoop (h : s.PressureInv) (jobId : String) (now : Int) :
    (s.continueLoop jobId now).PressureInv := by
  unfold BidderRefreshes.continueLoop
  split
  · exact h
  rename_i loop hloop
  split
  · rename_i hphase
    have hidle : (s.entry jobId).waiting = false ∧ (s.entry jobId).executing = false := by
      simp only [JobEntry.waiting, JobEntry.executing, hloop, Option.any_some, JobLoop.waiting, hphase]
      exact ⟨rfl, rfl⟩
    split
    · refine h.put rfl rfl (Nat.le_refl _) ?_ ?_ (h.countCleared jobId)
      · rw [hidle.1]
        rfl
      · rw [hidle.2]
        rfl
    · refine h.put rfl rfl (Nat.le_refl _) ?_ ?_ rfl
      · rw [hidle.1]
        rfl
      · rw [hidle.2]
        rfl
  · exact h

theorem PressureInv.runFinally (h : s.PressureInv) (jobId : String) : (s.runFinally jobId).PressureInv := by
  unfold BidderRefreshes.runFinally
  split
  · exact h
  rename_i loop hloop
  split
  · rename_i fulfilled hphase
    refine h.put rfl rfl (Nat.le_refl _) ?_ ?_ (h.countCleared jobId)
    · simp only [JobEntry.waiting, hloop, Option.any_some, JobLoop.waiting, hphase]
      rfl
    · simp only [JobEntry.executing, hloop, Option.any_some, hphase]
      rfl
  · exact h

theorem PressureInv.refreshJobImmediately (h : s.PressureInv) (jobId : String)
    (trigger : BidderRefreshTrigger) : (s.refreshJobImmediately jobId trigger).PressureInv := by
  unfold BidderRefreshes.refreshJobImmediately
  split
  · exact h
  split
  · exact h
  have hset : ∀ p, (s.immediates.set s.nextPromise ⟨jobId, trigger, false⟩).count p =
      s.immediates.count p + OrderedMap.tally p (some ⟨jobId, trigger, false⟩) := by
    intro p
    rw [← OrderedMap.count_set, h.known s.nextPromise (Nat.le_refl _), OrderedMap.tally_none, Nat.add_zero]
  refine ⟨?_, ?_, h.pending, ?_⟩
  · simp only [hset, OrderedMap.tally_some, h.waiting]
    rfl
  · simp only [hset, OrderedMap.tally_some, h.active]
    rfl
  · intro promise hle
    have hne : promise ≠ s.nextPromise := Nat.ne_of_gt hle
    simp only [OrderedMap.get_set, if_neg hne]
    exact h.known promise (Nat.le_of_succ_le hle)

theorem PressureInv.grantImmediate (h : s.PressureInv) (promise : Nat) :
    (s.grantImmediate promise).PressureInv := by
  unfold BidderRefreshes.grantImmediate
  split
  · exact h
  rename_i immediate himmediate
  split
  · rename_i hwaits
    have hold : ∀ p : ImmediateRefresh → Bool, OrderedMap.tally p (s.immediates.get promise) =
        if p immediate then 1 else 0 := by
      intro p
      rw [himmediate, OrderedMap.tally_some]
    have h₁ := h.waiting
    have h₂ := h.active
    split
    · have hdelete := @OrderedMap.count_delete _ _ _ s.immediates (fun i => !i.executing) promise
      have hdelete' := @OrderedMap.count_delete _ _ _ s.immediates ImmediateRefresh.executing promise
      simp only [hold, hwaits.1] at hdelete hdelete'
      refine ⟨?_, ?_, h.pending, ?_⟩
      · unfold discardImmediate
        simp at hdelete ⊢
        omega
      · unfold discardImmediate
        simp at hdelete' ⊢
        omega
      · intro other hle
        simp only [discardImmediate, OrderedMap.get_delete, h.known other hle, ite_self]
    · have hset := @OrderedMap.count_set _ _ _ s.immediates (fun i => !i.executing) promise
        { immediate with executing := true }
      have hset' := @OrderedMap.count_set _ _ _ s.immediates ImmediateRefresh.executing promise
        { immediate with executing := true }
      simp only [hold, hwaits.1, OrderedMap.tally_some] at hset hset'
      refine ⟨?_, ?_, h.pending, ?_⟩
      · unfold enterImmediate
        simp at hset ⊢
        omega
      · unfold enterImmediate
        simp at hset' ⊢
        omega
      · intro other hle
        have hne : other ≠ promise := by
          rintro rfl
          rw [h.known other hle] at himmediate
          cases himmediate
        simp only [enterImmediate, OrderedMap.get_set, if_neg hne]
        exact h.known other hle
  · exact h

theorem PressureInv.finishImmediate (h : s.PressureInv) (promise : Nat) (succeeded : Bool) :
    (s.finishImmediate promise succeeded).PressureInv := by
  unfold BidderRefreshes.finishImmediate
  split
  · exact h
  rename_i immediate himmediate
  split
  · rename_i hruns
    have hdelete := @OrderedMap.count_delete _ _ _ s.immediates (fun i => !i.executing) promise
    have hdelete' := @OrderedMap.count_delete _ _ _ s.immediates ImmediateRefresh.executing promise
    simp only [himmediate, OrderedMap.tally_some, hruns] at hdelete hdelete'
    have h₁ := h.waiting
    have h₂ := h.active
    refine ⟨?_, ?_, h.pending, ?_⟩
    · simp at hdelete ⊢
      omega
    · simp at hdelete' ⊢
      omega
    · intro other hle
      simp only [OrderedMap.get_delete, h.known other hle, ite_self]
  · exact h

theorem foldl_countCleared (entries : List JobEntry) (count : Nat) :
    entries.foldl (fun count entry => if entry.pending then count - 1 else count) count =
      count - entries.countP JobEntry.pending := by
  induction entries generalizing count with
  | nil => rfl
  | cons entry rest ih =>
    rw [List.foldl_cons, ih, List.countP_cons]
    by_cases hpending : entry.pending = true
    · rw [if_pos hpending, if_pos hpending]
      omega
    · rw [if_neg hpending, if_neg hpending, Nat.add_zero]

theorem PressureInv.close (h : s.PressureInv) : s.closeBackgroundRefreshAdmission.PressureInv := by
  refine ⟨?_, ?_, ?_, h.known⟩
  · unfold closeBackgroundRefreshAdmission
    simp only [OrderedMap.count_map]
    exact h.waiting
  · unfold closeBackgroundRefreshAdmission
    simp only [OrderedMap.count_map]
    exact h.active
  · unfold closeBackgroundRefreshAdmission
    simp only [OrderedMap.count_map, foldl_countCleared, h.pending]
    rw [show s.entries.values.countP JobEntry.pending = s.entries.count JobEntry.pending from rfl,
      Nat.sub_self]
    refine (List.countP_eq_zero.mpr fun entry _ => ?_).symm
    simp [JobEntry.pending, JobExecutionState.clearPending]

theorem PressureInv.handle (h : s.PressureInv) (hentries : s.EntriesInv) (e : RefreshEvent) :
    (s.handle e).PressureInv := by
  cases e with
  | addJob jobId => exact ⟨h.waiting, h.active, h.pending, h.known⟩
  | removeJob jobId => exact ⟨h.waiting, h.active, h.pending, h.known⟩
  | refreshJob jobId context trigger now => exact h.refreshJobWithOptions hentries jobId _ _ _ _ _
  | refreshJobForScan jobId context now => exact h.refreshJobWithOptions hentries jobId _ _ _ _ _
  | refreshJobImmediately jobId trigger => exact h.refreshJobImmediately jobId trigger
  | grantSlot jobId => exact h.grantSlot jobId
  | grantMutex jobId => exact h.grantMutex jobId
  | finishExecution jobId succeeded => exact h.finishExecution jobId succeeded
  | continueLoop jobId now => exact h.continueLoop jobId now
  | runFinally jobId => exact h.runFinally jobId
  | grantImmediate promise => exact h.grantImmediate promise
  | finishImmediate promise succeeded => exact h.finishImmediate promise succeeded
  | lockElsewhere jobId => exact ⟨h.waiting, h.active, h.pending, h.known⟩
  | unlockElsewhere jobId => exact ⟨h.waiting, h.active, h.pending, h.known⟩
  | closeBackgroundRefreshAdmission => exact h.close
  | stop =>
    have hopen : PressureInv { s with acceptingRefreshes := false } :=
      ⟨h.waiting, h.active, h.pending, h.known⟩
    exact hopen.close

theorem PressureInv.step (h : s.PressureInv) (hentries : s.EntriesInv) (e : RefreshEvent) :
    (s.step e).PressureInv :=
  have hnext := h.handle hentries e
  ⟨hnext.waiting, hnext.active, hnext.pending, hnext.known⟩

theorem PressureInv.initial (maxConcurrentJobs : Nat) :
    (BidderRefreshes.initial maxConcurrentJobs).PressureInv := ⟨rfl, rfl, rfl, fun _ _ => rfl⟩

end BidderRefreshes

end Artgod.Trading
