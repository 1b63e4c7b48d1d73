/-
# Fencing

The law of `BotLifecycleCoordinator`, over every order of its calls.  `Fenced` is read off the invariant; that
a commit publishes only a start that nobody stopped is about two moments of a run and follows from what no step
undoes (`LaterState`).
-/
import Artgod.Desktop.BotInvariant

namespace Artgod.Desktop

/-! ## 1. What no step undoes -/

namespace BotLifecycleCoordinator

/-- What later states of the coordinator keep. -/
structure Later (c c' : BotLifecycleCoordinator) : Prop where
  poisoned : c.poisoned = true → c'.poisoned = true
  cancelled : ∀ t, c.isCancelled t = true → c'.isCancelled t = true
  next_le : c.state.nextGeneration ≤ c'.state.nextGeneration

variable {c c' c'' : BotLifecycleCoordinator}

theorem Later.refl (c : BotLifecycleCoordinator) : Later c c :=
  ⟨fun h => h, fun _ h => h, Nat.le_refl _⟩

theorem Later.trans (h : Later c c') (h' : Later c' c'') : Later c c'' :=
  ⟨fun hc => h'.poisoned (h.poisoned hc), fun t ht => h'.cancelled t (h.cancelled t ht),
    Nat.le_trans h.next_le h'.next_le⟩

theorem later_poison : Later c c.poison := ⟨fun _ => rfl, fun _ h => h, Nat.le_refl _⟩

variable {b : BotKind} {g : Nat}

theorem later_setSlot {slot : BotLifecycleSlot} : Later c (c.setSlot b slot) :=
  ⟨fun h => h, fun _ h => h, Nat.le_refl _⟩

theorem later_cancel {t : BotStartCancellation} : Later c (c.cancel t) :=
  ⟨fun h => h, fun _ h => isCancelled_cancel_of h, Nat.le_refl _⟩

theorem later_cancelAll {ts : List BotStartCancellation} : Later c (ts.foldl cancel c) := by
  induction ts generalizing c with
  | nil => exact .refl c
  | cons t rest ih => exact later_cancel.trans ih

theorem later_begin {op : BotLifecycleOperation}
    (h : c.state.checkedNext = some g) : Later c (c.begin b g op) :=
  ⟨fun h => h, fun _ h => h, by
    rw [checkedNext_eq_some h]
    exact Nat.le_succ _⟩

theorem later_alloc : Later c { c with flags := c.flags ++ [false] } :=
  ⟨fun h => h, fun _ h => isCancelled_alloc.trans h, Nat.le_refl _⟩

theorem later_clearActive : Later c (c.clearActive b g) := by
  unfold clearActive
  split
  · split
    · exact later_setSlot
    · exact .refl c
  · exact .refl c

theorem reserveStart_later : Later c (c.reserveStart b).1 ∧
      ∀ r, (c.reserveStart b).2 = .ok r → c.state.nextGeneration < r.generation := by
  unfold reserveStart
  split
  · exact ⟨.refl c, fun r h => by cases h⟩
  split
  · exact ⟨.refl c, fun r h => by cases h⟩
  split
  · exact ⟨later_poison, fun r h => by cases h⟩
  next generation hnext =>
  refine ⟨later_alloc.trans (later_begin hnext), fun r h => ?_⟩
  cases h
  exact Nat.lt_of_lt_of_eq (Nat.lt_succ_self _) (checkedNext_eq_some hnext).symm

theorem reserveStopTurn_later {turn : StopTurn} : Later c (c.reserveStopTurn b turn).1 := by
  unfold reserveStopTurn
  split
  · exact .refl c
  split
  · exact later_cancel
  · exact .refl c
  · exact .refl c
  · cases (c.slot b).active with
    | none =>
      dsimp only
      split
      · exact later_poison
      · next hnext => exact later_begin hnext
    | some active =>
      have hcancel : Later c (c.cancel active.cancellation) := later_cancel
      refine hcancel.trans ?_
      dsimp only
      split
      · exact later_poison
      · next hnext => exact later_begin hnext

theorem reserveMutation_later : Later c (c.reserveMutation b).1 := by
  unfold reserveMutation
  split
  · exact .refl c
  split
  · exact .refl c
  split
  · exact later_poison
  · next hnext => exact later_begin hnext

theorem invalidateCore_later : Later c c.invalidateCore := by
  unfold invalidateCore
  split
  · exact .refl c
  split
  · have hcore : Later c
        { c with state := { c.state with coreGeneration := c.state.coreGeneration + 1 } } :=
      ⟨fun h => h, fun _ h => h, Nat.le_refl _⟩
    exact hcore.trans later_cancelAll
  · exact later_poison

theorem commitStart_later {r : BotStartReservation} {publish : Except String Unit} :
    Later c (c.commitStart r publish).1 := by
  unfold commitStart
  split
  · exact .refl c
  split
  · exact .refl c
  · exact .refl c
  · split
    · exact later_setSlot
    · exact later_setSlot.trans later_clearActive

theorem finishController_later : Later c (c.finishController b g) := by
  unfold finishController
  split
  · exact .refl c
  · exact later_clearActive

theorem dropReservation_later {r : Reservation} (h : (c.slot r.botKind).operation = some r.operation) :
    Later c (DesktopState.dropReservation c r) := by
  rw [dropReservation_eq h]
  split
  · exact .refl c
  · exact later_setSlot

end BotLifecycleCoordinator

open BotLifecycleCoordinator

/-- What later states of the application keep: a start that is pending was pending, or is new. -/
structure LaterState (s s' : DesktopState) : Prop where
  lifecycle : Later s.lifecycle s'.lifecycle
  pending : ∀ r, .start r false ∈ s'.held →
    .start r false ∈ s.held ∨ s.lifecycle.state.nextGeneration < r.generation

theorem LaterState.refl (s : DesktopState) : LaterState s s := ⟨.refl _, fun _ h => .inl h⟩

variable {s : DesktopState}

theorem LaterState.trans {s' s'' : DesktopState} (h : LaterState s s') (h' : LaterState s' s'') :
    LaterState s s'' := by
  refine ⟨h.lifecycle.trans h'.lifecycle, fun r hr => ?_⟩
  rcases h'.pending r hr with hr | hr
  · exact h.pending r hr
  · exact .inr (Nat.lt_of_le_of_lt h.lifecycle.next_le hr)

theorem LifecycleInv.later (hi : LifecycleInv s) (e : LifecycleEvent) : LaterState s (s.step e) := by
  have hsame : ∀ c, Later s.lifecycle c → LaterState s { s with lifecycle := c } :=
    fun c hc => ⟨hc, fun _ h => .inl h⟩
  have hmarked : ∀ c generation workers, Later s.lifecycle c →
      LaterState s { s with lifecycle := c, held := s.markCommitted generation, workers := workers } := by
    refine fun c generation workers hc => ⟨hc, fun r hr => ?_⟩
    rcases mem_markCommitted hr with h | ⟨_, h, -⟩
    · exact .inl h
    · cases h
  cases e with
  | reserveStart botKind =>
    obtain ⟨hlater, hnew⟩ := reserveStart_later (c := s.lifecycle) (b := botKind)
    simp only [DesktopState.step]
    split
    · next c r heq =>
      rw [heq] at hlater hnew
      refine ⟨hlater, fun x hx => ?_⟩
      rcases List.mem_cons.mp hx with h | h
      · cases h
        exact .inr (hnew r rfl)
      · exact .inl h
    · next c _ _ heq =>
      rw [heq] at hlater
      exact hsame c hlater
  | stopTurn botKind turn =>
    have hlater : Later s.lifecycle (s.lifecycle.reserveStopTurn botKind turn).1 := reserveStopTurn_later
    simp only [DesktopState.step]
    split
    · next c r heq =>
      rw [heq] at hlater
      refine ⟨hlater, fun x hx => ?_⟩
      rcases List.mem_cons.mp hx with h | h
      · cases h
      · exact .inl h
    · next c _ _ heq =>
      rw [heq] at hlater
      exact hsame c hlater
  | beginMutation botKind =>
    have hlater := reserveMutation_later (c := s.lifecycle) (b := botKind)
    simp only [DesktopState.step]
    split
    · next c r heq =>
      rw [heq] at hlater
      refine ⟨hlater, fun x hx => ?_⟩
      rcases List.mem_cons.mp hx with h | h
      · cases h
      · exact .inl h
    · next c _ _ heq =>
      rw [heq] at hlater
      exact hsame c hlater
  | invalidateCore => exact hsame _ invalidateCore_later
  | withCurrentStart generation => exact .refl s
  | commitStart generation publish =>
    simp only [DesktopState.step]
    split
    · exact .refl s
    next r _ =>
    have hlater : Later s.lifecycle (s.lifecycle.commitStart r publish).1 := commitStart_later
    split
    · next c heq =>
      rw [heq] at hlater
      exact hmarked c generation _ hlater
    · next c _ _ heq =>
      rw [heq] at hlater
      exact hmarked c generation _ hlater
  | finishController botKind generation => exact ⟨finishController_later, fun _ h => .inl h⟩
  | drop generation =>
    simp only [DesktopState.step]
    split
    · exact .refl s
    · next r hfind =>
      refine ⟨dropReservation_later (hi.held_slot r (List.mem_of_find?_eq_some hfind)), fun x hx => ?_⟩
      exact .inl (List.mem_filter.mp hx).1

/-! ## 2. The law -/

/-- A stop of the bot takes a turn, or the core changes. -/
def LifecycleEvent.interferes (b : BotKind) : LifecycleEvent → Prop
  | .stopTurn botKind _ => botKind = b
  | .invalidateCore => True
  | _ => False

/-- The start of that generation will never be published: the mutex is poisoned, or its flag is set. -/
def Spent (s : DesktopState) (generation : Nat) : Prop :=
  generation ≤ s.lifecycle.state.nextGeneration ∧ ∀ r, .start r false ∈ s.held → r.generation = generation →
      s.lifecycle.poisoned = true ∨ s.lifecycle.isCancelled r.cancellation = true

theorem Spent.later {s' : DesktopState} {generation : Nat} (h : Spent s generation)
    (hlater : LaterState s s') : Spent s' generation := by
  refine ⟨Nat.le_trans h.1 hlater.lifecycle.next_le, fun r hr hgen => ?_⟩
  rcases hlater.pending r hr with hr | hnew
  · rcases h.2 r hr hgen with hpoisoned | hcancelled
    · exact .inl (hlater.lifecycle.poisoned hpoisoned)
    · exact .inr (hlater.lifecycle.cancelled _ hcancelled)
  · have := h.1
    omega

theorem Spent.not_publishes {generation : Nat} (h : Spent s generation) :
    s.publishes generation = false := by
  unfold DesktopState.publishes
  cases hpending : s.pendingStart generation with
  | none => rfl
  | some r =>
    obtain ⟨hr, hgen⟩ := LifecycleInv.pendingStart_eq_some hpending
    rcases h.2 r hr hgen with hpoisoned | hcancelled
    · simp [startIsCurrent, hpoisoned]
    · simp [startIsCurrent, validateStartState, hcancelled]

theorem isCancelled_cancelAll {c : BotLifecycleCoordinator} {ts : List BotStartCancellation}
    {t : BotStartCancellation} (hmem : t ∈ ts) (hlt : t < c.flags.length) :
    (ts.foldl cancel c).isCancelled t = true := by
  induction ts generalizing c with
  | nil => cases hmem
  | cons t' rest ih =>
    rcases List.mem_cons.mp hmem with rfl | hmem
    · have hlater : Later (c.cancel t) (rest.foldl cancel (c.cancel t)) := later_cancelAll
      exact hlater.cancelled t (isCancelled_cancel_self hlt)
    · exact ih hmem (Nat.lt_of_lt_of_eq hlt List.length_set.symm)

theorem LifecycleInv.spends (hi : LifecycleInv s) {r : BotStartReservation}
    {committed : Bool} (hr : .start r committed ∈ s.held) {e : LifecycleEvent}
    (he : e.interferes r.botKind) :
    (s.step e).lifecycle.poisoned = true ∨ (s.step e).lifecycle.isCancelled r.cancellation = true := by
  have hop : (s.lifecycle.slot r.botKind).operation
      = some (.starting r.generation r.coreGeneration r.cancellation) := hi.held_slot _ hr
  have hflag := hi.flag_known _ _ _ _ hop
  by_cases hpoisoned : s.lifecycle.poisoned = true
  · exact .inl ((hi.later e).lifecycle.poisoned hpoisoned)
  cases e with
  | stopTurn botKind turn =>
    obtain rfl : botKind = r.botKind := he
    right
    simp only [DesktopState.step, BotLifecycleCoordinator.reserveStopTurn, if_neg hpoisoned, hop]
    exact isCancelled_cancel_self hflag
  | invalidateCore =>
    simp only [DesktopState.step, BotLifecycleCoordinator.invalidateCore, if_neg hpoisoned]
    split
    · right
      refine isCancelled_cancelAll ?_ hflag
      have hmem : r.cancellation ∈ BotLifecycleSlot.cancellations (s.lifecycle.slot r.botKind) := by
        simp [BotLifecycleSlot.cancellations, hop]
      cases hb : r.botKind with
      | bidding => exact List.mem_append_left _ (hb ▸ hmem)
      | sniping => exact List.mem_append_right _ (hb ▸ hmem)
    · exact .inl rfl
  | reserveStart botKind => exact he.elim
  | beginMutation botKind => exact he.elim
  | withCurrentStart generation => exact he.elim
  | commitStart generation publish => exact he.elim
  | finishController botKind generation => exact he.elim
  | drop generation => exact he.elim

/-- A method that finishes in a generation leaves what is newer. -/
def KeepsNewer (c c' : BotLifecycleCoordinator) (generation : Nat) : Prop :=
  ∀ b, (∀ op, (c.slot b).operation = some op → generation < op.generation →
      (c'.slot b).operation = some op) ∧
    ∀ a, (c.slot b).active = some a → generation < a.generation → (c'.slot b).active = some a

/-- The worker leases of a bot that are not cancelled. -/
def DesktopState.uncancelled (s : DesktopState) (b : BotKind) : List BotWorker :=
  s.workers.filter fun w => w.botKind == b && !s.lifecycle.isCancelled w.lease.cancellation

/-- **The fencing law of one state.** -/
structure Fenced (s : DesktopState) : Prop where
  /-- A bot has at most one operation, and it is the one of the reservation that is held. -/
  one_operation : ∀ b, (s.held.filter fun r => r.botKind == b).length ≤ 1
  owns_slot : ∀ r ∈ s.held, (s.lifecycle.slot r.botKind).operation = some r.operation
  never_reused : s.issued.Nodup
  /-- Of the workers of a bot that were published and have not finished, one is uncancelled at most. -/
  one_lease : ∀ b, (s.uncancelled b).length ≤ 1
  /-- A worker is there because a commit published it. -/
  published : ∀ e w, w ∈ (s.step e).workers → w ∉ s.workers →
    s.publishes w.lease.generation = true ∧ e = .commitStart w.lease.generation (.ok ())
  /-- While a stop is held: no start is held or committed, and every worker of the bot is cancelled. -/
  stopped : ∀ r, .stop r ∈ s.held → (∀ x committed, .start x committed ∈ s.held → x.botKind ≠ r.botKind) ∧
    (∀ e w, w ∈ (s.step e).workers → w.botKind = r.botKind → w ∈ s.workers) ∧
    ∀ w ∈ s.workers, w.botKind = r.botKind → s.lifecycle.isCancelled w.lease.cancellation = true
  /-- While a mutation runs: no worker is active, none is uncancelled, no start is pending. -/
  idle : ∀ r, .mutation r ∈ s.held →
    (s.lifecycle.slot r.botKind).active = none ∧ s.uncancelled r.botKind = [] ∧
      ∀ x committed, .start x committed ∈ s.held → x.botKind ≠ r.botKind
  /-- A controller that exits, or a reservation that is dropped, leaves what is newer. -/
  stale : ∀ b g, KeepsNewer s.lifecycle (s.lifecycle.finishController b g) g ∧
    KeepsNewer s.lifecycle (s.lifecycle.finishStart b g) g ∧
    KeepsNewer s.lifecycle (s.lifecycle.finishStop b g) g ∧
    KeepsNewer s.lifecycle (s.lifecycle.finishMutation b g) g

/-- After the events, a start is published only if, since it was reserved, no stop of its bot took a
turn and the core did not change. -/
def PublishesFresh (es : List LifecycleEvent) : Prop :=
  ∀ before b between c r, es = before ++ .reserveStart b :: between →
    (DesktopState.after before).lifecycle.reserveStart b = (c, .ok r) →
    (DesktopState.after es).publishes r.generation = true → ∀ e ∈ between, ¬ e.interferes b

theorem length_le_one_of_same {α : Type} {l : List α} (hnodup : l.Nodup)
    (hsame : ∀ x ∈ l, ∀ y ∈ l, x = y) : l.length ≤ 1 := by
  match l, hnodup, hsame with
  | [], _, _ => exact Nat.zero_le _
  | [_], _, _ => exact Nat.le_refl _
  | x :: y :: _, hnodup, hsame =>
    have hxy : x = y := hsame x (by simp) y (by simp)
    simp [hxy] at hnodup

namespace LifecycleInv

variable {s : DesktopState}

theorem one_operation (hi : LifecycleInv s) (b : BotKind) :
    (s.held.filter fun r => r.botKind == b).length ≤ 1 := by
  refine length_le_one_of_same (hi.held_nodup.of_map.filter _) fun x hx y hy => ?_
  obtain ⟨hx, hxb⟩ := List.mem_filter.mp hx
  obtain ⟨hy, hyb⟩ := List.mem_filter.mp hy
  exact hi.held_unique hx hy ((beq_iff_eq.mp hxb).trans (beq_iff_eq.mp hyb).symm)

variable {b : BotKind} {c : BotLifecycleCoordinator} {g : Nat} {w : BotWorker}

theorem mem_uncancelled (h : w ∈ s.uncancelled b) :
    w ∈ s.workers ∧ w.botKind = b ∧ s.lifecycle.isCancelled w.lease.cancellation = false := by
  obtain ⟨hw, hrest⟩ := List.mem_filter.mp h
  simp only [Bool.and_eq_true, beq_iff_eq, Bool.not_eq_true'] at hrest
  exact ⟨hw, hrest.1, hrest.2⟩

theorem uncancelled_active (hi : LifecycleInv s) (h : w ∈ s.uncancelled b) :
    (s.lifecycle.slot b).active = some ⟨w.lease.generation, w.lease.cancellation⟩ := by
  obtain ⟨hw, rfl, hlive⟩ := mem_uncancelled h
  exact hi.worker_active w hw hlive

theorem one_lease (hi : LifecycleInv s) (b : BotKind) : (s.uncancelled b).length ≤ 1 := by
  refine length_le_one_of_same (hi.worker_nodup.of_map.filter _) fun x hx y hy => ?_
  have hactive := hi.uncancelled_active hx
  rw [hi.uncancelled_active hy] at hactive
  have hgen : y.lease.generation = x.lease.generation :=
    congrArg ActiveBotLifecycle.generation (Option.some.inj hactive)
  exact List.inj_on_of_nodup_map hi.worker_nodup (mem_uncancelled hx).1 (mem_uncancelled hy).1 hgen.symm

theorem published {e : LifecycleEvent} (hw : w ∈ (s.step e).workers)
    (hnew : w ∉ s.workers) :
    ∃ r, s.pendingStart w.lease.generation = some r ∧ w.botKind = r.botKind ∧
      s.lifecycle.startIsCurrent r = true ∧ e = .commitStart w.lease.generation (.ok ()) := by
  cases e with
  | commitStart generation publish =>
    simp only [DesktopState.step] at hw
    cases hpending : s.pendingStart generation with
    | none =>
      rw [hpending] at hw
      exact absurd hw hnew
    | some r =>
      simp only [hpending, BotLifecycleCoordinator.commitStart] at hw
      by_cases hpoisoned : s.lifecycle.poisoned = true
      · rw [if_pos hpoisoned] at hw
        exact absurd hw hnew
      rw [if_neg hpoisoned] at hw
      cases hvalid : s.lifecycle.validateStartState r with
      | err text =>
        rw [hvalid] at hw
        exact absurd hw hnew
      | panics =>
        rw [hvalid] at hw
        exact absurd hw hnew
      | ok value =>
        rw [hvalid] at hw
        cases publish with
        | error text => exact absurd hw hnew
        | ok done =>
          rcases List.mem_cons.mp hw with rfl | hw
          · obtain ⟨-, hgen⟩ := pendingStart_eq_some hpending
            have hlease : r.workerLease.generation = generation := hgen
            refine ⟨r, hlease ▸ hpending, rfl, ?_, hlease ▸ rfl⟩
            simp [startIsCurrent, hpoisoned, hvalid]
          · exact absurd hw hnew
  | finishController botKind generation => exact absurd (List.mem_filter.mp hw).1 hnew
  | drop generation =>
    simp only [DesktopState.step] at hw
    split at hw
    · exact absurd hw hnew
    · exact absurd hw hnew
  | reserveStart botKind =>
    simp only [DesktopState.step] at hw
    split at hw
    · exact absurd hw hnew
    · exact absurd hw hnew
  | stopTurn botKind turn =>
    simp only [DesktopState.step] at hw
    split at hw
    · exact absurd hw hnew
    · exact absurd hw hnew
  | beginMutation botKind =>
    simp only [DesktopState.step] at hw
    split at hw
    · exact absurd hw hnew
    · exact absurd hw hnew
  | invalidateCore => exact absurd hw hnew
  | withCurrentStart generation => exact absurd hw hnew

theorem no_start_beside (hi : LifecycleInv s) {r : Reservation} (hr : r ∈ s.held)
    (hkind : ∀ x committed, r ≠ .start x committed) :
    ∀ x committed, .start x committed ∈ s.held → x.botKind ≠ r.botKind := by
  intro x committed hx hb
  exact hkind x committed (hi.held_unique hr hx hb.symm)

theorem keepsNewer_refl : KeepsNewer c c g :=
  fun _ => ⟨fun _ h _ => h, fun _ h _ => h⟩

theorem keepsNewer_setSlot {slot : BotLifecycleSlot}
    (hop : ∀ op, (c.slot b).operation = some op → g < op.generation → slot.operation = some op)
    (hactive : ∀ a, (c.slot b).active = some a → g < a.generation → slot.active = some a) :
    KeepsNewer c (c.setSlot b slot) g := by
  intro b'
  by_cases hb : b' = b
  · rw [hb, slot_setSlot_same]
    exact ⟨hop, hactive⟩
  · rw [slot_setSlot_ne hb]
    exact keepsNewer_refl b'

theorem finishController_keepsNewer : KeepsNewer c (c.finishController b g) g := by
  unfold BotLifecycleCoordinator.finishController clearActive
  split
  · exact keepsNewer_refl
  split
  · next a hactive =>
    split
    · next hgen =>
      refine keepsNewer_setSlot (fun op h _ => h) fun a' ha' hlt => ?_
      rw [hactive] at ha'
      cases ha'
      omega
    · exact keepsNewer_refl
  · exact keepsNewer_refl

theorem finishStart_keepsNewer : KeepsNewer c (c.finishStart b g) g := by
  unfold finishStart
  split
  · exact keepsNewer_refl
  split
  · next current _ _ hstart =>
    split
    · next hgen =>
      refine keepsNewer_setSlot (fun op h hlt => ?_) fun a h _ => h
      rw [hstart] at h
      cases h
      exact absurd hgen (Nat.ne_of_gt hlt)
    · exact keepsNewer_refl
  · exact keepsNewer_refl

theorem finishMutation_keepsNewer : KeepsNewer c (c.finishMutation b g) g := by
  unfold finishMutation
  split
  · exact keepsNewer_refl
  split
  · next current hmutating =>
    split
    · next hgen =>
      refine keepsNewer_setSlot (fun op h hlt => ?_) fun a h _ => h
      rw [hmutating] at h
      cases h
      exact absurd hgen (Nat.ne_of_gt hlt)
    · exact keepsNewer_refl
  · exact keepsNewer_refl

theorem finishStop_keepsNewer (hi : LifecycleInv s) (b : BotKind) (g : Nat) :
    KeepsNewer s.lifecycle (s.lifecycle.finishStop b g) g := by
  unfold finishStop
  split
  · exact keepsNewer_refl
  split
  · next current hstopping =>
    split
    · next hgen =>
      refine keepsNewer_setSlot (fun op h hlt => ?_) fun a h hlt => ?_
      · rw [hstopping] at h
        cases h
        exact absurd hgen (Nat.ne_of_gt hlt)
      · have := hi.active_stopping b current a hstopping h
        omega
    · exact keepsNewer_refl
  · exact keepsNewer_refl

theorem fenced (hi : LifecycleInv s) : Fenced s where
  one_operation := hi.one_operation
  owns_slot := hi.held_slot
  never_reused := hi.issued_desc.imp fun h => Nat.ne_of_gt h
  one_lease := hi.one_lease
  published := by
    intro e w hw hnew
    obtain ⟨r, hpending, -, hcurrent, he⟩ := published hw hnew
    refine ⟨?_, he⟩
    rw [DesktopState.publishes, hpending]
    exact hcurrent
  stopped := by
    intro r hr
    have hstarts := hi.no_start_beside hr fun x committed h => by cases h
    refine ⟨hstarts, fun e w hw hb => ?_, hi.worker_stopping r.botKind r.generation (hi.held_slot _ hr)⟩
    by_contra hnew
    obtain ⟨x, hpending, hbot, -, -⟩ := published hw hnew
    exact hstarts x false (pendingStart_eq_some hpending).1 (hbot.symm.trans hb)
  idle := by
    intro r hr
    have hidle := hi.active_mutating r.botKind r.generation (hi.held_slot _ hr)
    refine ⟨hidle, ?_, hi.no_start_beside hr fun x committed h => by cases h⟩
    refine List.eq_nil_iff_forall_not_mem.mpr fun w hw => ?_
    have hactive := hi.uncancelled_active hw
    rw [hidle] at hactive
    cases hactive
  stale := fun b g => ⟨finishController_keepsNewer, finishStart_keepsNewer,
    hi.finishStop_keepsNewer b g, finishMutation_keepsNewer⟩

end LifecycleInv

theorem publishesFresh (es : List LifecycleEvent) : PublishesFresh es := by
  rintro before b between c r rfl hreserve hpublishes e he hinterferes
  obtain ⟨early, late, rfl⟩ := List.append_of_mem he
  have hstep : (DesktopState.after before).step (.reserveStart b)
      = (DesktopState.after before).hold c (.start r false) := by
    simp only [DesktopState.step, hreserve]
  have hbefore := LifecycleInv.after before
  -- the state right after the reservation, the one `e` is taken in, and the one after `e`
  have hreserved : LifecycleInv ((DesktopState.after before).hold c (.start r false)) :=
    hstep ▸ hbefore.step (.reserveStart b)
  have hheld : Reservation.start r false ∈ ((DesktopState.after before).hold c (.start r false)).held :=
    List.mem_cons_self
  let s₁ := Machine.run DesktopState.step ((DesktopState.after before).hold c (.start r false)) early
  have hs₁ : LifecycleInv s₁ := Machine.run_invariant (fun _ e hi => hi.step e) hreserved early
  have hlater₁ : LaterState ((DesktopState.after before).hold c (.start r false)) s₁ :=
    Machine.run_related LaterState.refl LaterState.trans (fun _ e hi => hi.step e)
      (fun _ e hi => hi.later e) hreserved early
  have hle₁ : r.generation ≤ s₁.lifecycle.state.nextGeneration :=
    Nat.le_trans (hreserved.held_le hheld) hlater₁.lifecycle.next_le
  have hspent : Spent (s₁.step e) r.generation := by
    refine ⟨Nat.le_trans hle₁ (hs₁.later e).lifecycle.next_le, fun x hx hgen => ?_⟩
    rcases (hs₁.later e).pending x hx with hx₁ | hnew
    · rcases hlater₁.pending x hx₁ with hx₀ | hnew
      · have hsame : Reservation.start x false = .start r false :=
          List.inj_on_of_nodup_map hreserved.held_nodup hx₀ hheld hgen
        have hbot : r.botKind = b := by
          unfold BotLifecycleCoordinator.reserveStart at hreserve
          split at hreserve
          · cases hreserve
          split at hreserve
          · cases hreserve
          split at hreserve
          · cases hreserve
          · cases hreserve
            rfl
        cases hsame
        exact hs₁.spends hx₁ (hbot ▸ hinterferes)
      · have := hreserved.held_le hheld
        have hgen' : (Reservation.start r false).generation = r.generation := rfl
        omega
    · omega
  have hend : LaterState (s₁.step e) (Machine.run DesktopState.step (s₁.step e) late) :=
    Machine.run_related LaterState.refl LaterState.trans (fun _ e hi => hi.step e)
      (fun _ e hi => hi.later e) (hs₁.step e) late
  have hafter : DesktopState.after (before ++ .reserveStart b :: (early ++ e :: late))
      = Machine.run DesktopState.step (s₁.step e) late := by
    rw [DesktopState.after, Machine.run_append, Machine.run_cons, Machine.run_append, Machine.run_cons]
    exact congrArg (fun s => Machine.run DesktopState.step
      (DesktopState.step (Machine.run DesktopState.step s early) e) late) hstep
  rw [hafter, (hspent.later hend).not_publishes] at hpublishes
  cases hpublishes

/-- **The bot lifecycle is fenced.**  In every state that any order of calls reaches, the law holds, and a
start that is published was not interfered with since it was reserved. -/
theorem bot_lifecycle_fenced (es : List LifecycleEvent) :
    Fenced (DesktopState.after es) ∧ PublishesFresh es :=
  ⟨(LifecycleInv.after es).fenced, publishesFresh es⟩

/-- A stop cancels the worker, and no start is reserved beside it. -/
example :
    let s := DesktopState.after [.reserveStart .bidding, .commitStart 1 (.ok ()), .drop 1,
      .stopTurn .bidding .entered, .reserveStart .bidding]
    s.issued = [2, 1] ∧ s.workers = [⟨.bidding, ⟨1, 0⟩⟩] ∧ s.uncancelled .bidding = [] := by decide

end Artgod.Desktop
