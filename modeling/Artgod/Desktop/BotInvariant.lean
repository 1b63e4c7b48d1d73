/-
# The invariant of the bot lifecycle

A reservation that is held owns the slot of its bot, and a worker whose lease is not cancelled is the
active one of its bot (§1).  Every call keeps this (§2): a reservation goes into a free slot with the next
generation (`LifecycleInv.hold`), a commit fills a slot that had no active worker (`LifecycleInv.commit`),
and what is dropped or finishes clears a slot that nobody else holds (`LifecycleInv.clear`).
-/
import Artgod.Desktop.BotLifecycle

namespace Artgod.Desktop

/-! ## 1. The invariant -/

/-- **What every state of the application keeps.**  A reservation that is held owns the slot of its bot;
a worker whose lease is not cancelled is the active one of its bot. -/
structure LifecycleInv (s : DesktopState) : Prop where
  issued_desc : s.issued.Pairwise (· > ·)
  issued_le : ∀ g ∈ s.issued, g ≤ s.lifecycle.state.nextGeneration
  held_slot : ∀ r ∈ s.held, (s.lifecycle.slot r.botKind).operation = some r.operation
  held_nodup : (s.held.map Reservation.generation).Nodup
  flag_known : ∀ b g core t, (s.lifecycle.slot b).operation = some (.starting g core t) →
    t < s.lifecycle.flags.length
  operation_le : ∀ b op, (s.lifecycle.slot b).operation = some op →
    op.generation ≤ s.lifecycle.state.nextGeneration
  active_le : ∀ b a, (s.lifecycle.slot b).active = some a →
    a.generation ≤ s.lifecycle.state.nextGeneration ∧ a.cancellation < s.lifecycle.flags.length
  active_stopping : ∀ b g a, (s.lifecycle.slot b).operation = some (.stopping g) →
    (s.lifecycle.slot b).active = some a → a.generation < g
  active_mutating : ∀ b g, (s.lifecycle.slot b).operation = some (.mutating g) →
    (s.lifecycle.slot b).active = none
  pending_idle : ∀ r, .start r false ∈ s.held → (s.lifecycle.slot r.botKind).active = none
  pending_new : ∀ r, .start r false ∈ s.held → ∀ w ∈ s.workers, w.lease.generation ≠ r.generation
  worker_le : ∀ w ∈ s.workers, w.lease.generation ≤ s.lifecycle.state.nextGeneration
  worker_nodup : (s.workers.map fun w => w.lease.generation).Nodup
  worker_active : ∀ w ∈ s.workers, s.lifecycle.isCancelled w.lease.cancellation = false →
    (s.lifecycle.slot w.botKind).active = some ⟨w.lease.generation, w.lease.cancellation⟩
  worker_stopping : ∀ b g, (s.lifecycle.slot b).operation = some (.stopping g) →
    ∀ w ∈ s.workers, w.botKind = b → s.lifecycle.isCancelled w.lease.cancellation = true

theorem LifecycleInv.initial : LifecycleInv DesktopState.initial where
  issued_desc := List.Pairwise.nil
  issued_le := fun g hg => by cases hg
  held_slot := fun r hr => by cases hr
  held_nodup := List.nodup_nil
  flag_known := fun b g core t h => by cases h
  operation_le := fun b op h => by cases h
  active_le := fun b a h => by cases h
  active_stopping := fun b g a h => by cases h
  active_mutating := fun b g h => by cases h
  pending_idle := fun r hr => by cases hr
  pending_new := fun r hr => by cases hr
  worker_le := fun w hw => by cases hw
  worker_nodup := List.nodup_nil
  worker_active := fun w hw => by cases hw
  worker_stopping := fun b g h => by cases h

namespace LifecycleInv

open BotLifecycleCoordinator

variable {s : DesktopState}

variable {r : Reservation} {generation : Nat}

theorem held_le (hi : LifecycleInv s) (hr : r ∈ s.held) :
    r.generation ≤ s.lifecycle.state.nextGeneration :=
  hi.operation_le r.botKind r.operation (hi.held_slot r hr)

theorem held_unique (hi : LifecycleInv s) {r' : Reservation} (hr : r ∈ s.held) (hr' : r' ∈ s.held)
    (hbot : r.botKind = r'.botKind) : r = r' := by
  have hop : r.operation = r'.operation := by
    have h := hi.held_slot r hr
    rw [hbot, hi.held_slot r' hr'] at h
    exact (Option.some.inj h).symm
  have hgen : r.generation = r'.generation := congrArg BotLifecycleOperation.generation hop
  exact List.inj_on_of_nodup_map hi.held_nodup hr hr' hgen

theorem poison (hi : LifecycleInv s) : LifecycleInv { s with lifecycle := s.lifecycle.poison } where
  issued_desc := hi.issued_desc
  issued_le := hi.issued_le
  held_slot := hi.held_slot
  held_nodup := hi.held_nodup
  flag_known := hi.flag_known
  operation_le := hi.operation_le
  active_le := hi.active_le
  active_stopping := hi.active_stopping
  active_mutating := hi.active_mutating
  pending_idle := hi.pending_idle
  pending_new := hi.pending_new
  worker_le := hi.worker_le
  worker_nodup := hi.worker_nodup
  worker_active := hi.worker_active
  worker_stopping := hi.worker_stopping

theorem cancel (hi : LifecycleInv s) (t : BotStartCancellation) :
    LifecycleInv { s with lifecycle := s.lifecycle.cancel t } where
  issued_desc := hi.issued_desc
  issued_le := hi.issued_le
  held_slot := hi.held_slot
  held_nodup := hi.held_nodup
  flag_known := fun b g core t' h =>
    Nat.lt_of_lt_of_eq (hi.flag_known b g core t' h) List.length_set.symm
  operation_le := hi.operation_le
  active_le := fun b a h =>
    ⟨(hi.active_le b a h).1, Nat.lt_of_lt_of_eq (hi.active_le b a h).2 List.length_set.symm⟩
  active_stopping := hi.active_stopping
  active_mutating := hi.active_mutating
  pending_idle := hi.pending_idle
  pending_new := hi.pending_new
  worker_le := hi.worker_le
  worker_nodup := hi.worker_nodup
  worker_active := fun w hw h => hi.worker_active w hw
    (Bool.eq_false_iff.mpr fun hset => by rw [isCancelled_cancel_of hset] at h; cases h)
  worker_stopping := fun b g h w hw hb => isCancelled_cancel_of (hi.worker_stopping b g h w hw hb)

/-- What the operation of a new reservation asks of the state it is made in. -/
structure Reservable (s : DesktopState) (r : Reservation) : Prop where
  operation : (s.lifecycle.slot r.botKind).operation = none
  generation : r.generation = s.lifecycle.state.nextGeneration + 1
  idle : (∀ x, r ≠ .stop x) → (s.lifecycle.slot r.botKind).active = none
  cancelled : ∀ x, r = .stop x → ∀ w ∈ s.workers, w.botKind = r.botKind →
    s.lifecycle.isCancelled w.lease.cancellation = true
  flag : ∀ g core t, r.operation = .starting g core t → t < s.lifecycle.flags.length

/-- **A new reservation.**  Its generation is the next one, and its operation goes into a free slot. -/
theorem hold (hi : LifecycleInv s) (hr : Reservable s r) :
    LifecycleInv (s.hold (s.lifecycle.begin r.botKind r.generation r.operation) r) := by
  have hgen := hr.generation
  have hslot : ∀ b, (s.lifecycle.begin r.botKind r.generation r.operation).slot b
      = if b = r.botKind then ⟨some r.operation, (s.lifecycle.slot b).active⟩
        else s.lifecycle.slot b := by
    intro b
    by_cases hb : b = r.botKind
    · rw [if_pos hb, hb, slot_begin_same]
    · rw [if_neg hb, slot_begin_ne hb]
  have hactive : ∀ b, ((s.lifecycle.begin r.botKind r.generation r.operation).slot b).active
      = (s.lifecycle.slot b).active := by
    intro b
    rw [hslot b]
    split <;> rfl
  have hop : ∀ b op, ((s.lifecycle.begin r.botKind r.generation r.operation).slot b).operation = some op →
      (b = r.botKind ∧ op = r.operation) ∨ (s.lifecycle.slot b).operation = some op := by
    intro b op h
    rw [hslot b] at h
    split at h
    · next hb => exact .inl ⟨hb, (Option.some.inj h).symm⟩
    · exact .inr h
  have hother : ∀ r' ∈ s.held, r'.botKind ≠ r.botKind := by
    intro r' hr' hb
    have h := hi.held_slot r' hr'
    rw [hb, hr.operation] at h
    cases h
  have hnext : ∀ n, n ≤ s.lifecycle.state.nextGeneration → n ≤ r.generation := by
    intro n hn
    omega
  refine
    { issued_desc := List.pairwise_cons.mpr ⟨fun g hg => ?_, hi.issued_desc⟩
      issued_le := ?_, held_slot := ?_, held_nodup := ?_, flag_known := ?_, operation_le := ?_
      active_le := ?_, active_stopping := ?_, active_mutating := ?_, pending_idle := ?_
      pending_new := ?_, worker_le := ?_, worker_nodup := hi.worker_nodup, worker_active := ?_
      worker_stopping := ?_ }
  · have := hi.issued_le g hg
    show r.generation > g
    omega
  · intro g hg
    rcases List.mem_cons.mp hg with rfl | hg
    · exact Nat.le_refl _
    · exact hnext g (hi.issued_le g hg)
  · intro r' hr'
    rcases List.mem_cons.mp hr' with rfl | hr'
    · rw [DesktopState.hold, slot_begin_same]
    · rw [DesktopState.hold, slot_begin_ne (hother r' hr')]
      exact hi.held_slot r' hr'
  · refine List.nodup_cons.mpr ⟨?_, hi.held_nodup⟩
    intro hmem
    obtain ⟨r', hr', heq⟩ := List.mem_map.mp hmem
    have := hi.held_le hr'
    omega
  · intro b g core t h
    rcases hop b _ h with ⟨-, h⟩ | h
    · exact hr.flag g core t h.symm
    · exact hi.flag_known b g core t h
  · intro b op h
    rcases hop b op h with ⟨-, rfl⟩ | h
    · exact Nat.le_refl _
    · exact hnext _ (hi.operation_le b op h)
  · intro b a h
    have ha := hi.active_le b a ((hactive b).symm.trans h)
    exact ⟨hnext _ ha.1, ha.2⟩
  · intro b g a h ha
    replace ha := (hactive b).symm.trans ha
    rcases hop b _ h with ⟨-, h⟩ | h
    · have hg : r.generation = g := congrArg BotLifecycleOperation.generation h.symm
      have := (hi.active_le b a ha).1
      omega
    · exact hi.active_stopping b g a h ha
  · intro b g h
    rw [show ((s.hold (s.lifecycle.begin r.botKind r.generation r.operation) r).lifecycle.slot b).active
      = (s.lifecycle.slot b).active from hactive b]
    rcases hop b _ h with ⟨hb, hmutating⟩ | h
    · rw [hb]
      refine hr.idle fun x hx => ?_
      rw [hx] at hmutating
      cases hmutating
    · exact hi.active_mutating b g h
  · intro r' hr'
    refine (hactive r'.botKind).trans ?_
    rcases List.mem_cons.mp hr' with rfl | hr'
    · exact hr.idle fun x hx => by cases hx
    · exact hi.pending_idle r' hr'
  · intro r' hr' w hw
    rcases List.mem_cons.mp hr' with rfl | hr'
    · have := hi.worker_le w hw
      have hg : r'.generation = s.lifecycle.state.nextGeneration + 1 := hgen
      omega
    · exact hi.pending_new r' hr' w hw
  · intro w hw
    exact hnext _ (hi.worker_le w hw)
  · intro w hw h
    exact (hactive w.botKind).trans (hi.worker_active w hw h)
  · intro b g h w hw hb
    rcases hop b _ h with ⟨hbot, hstopping⟩ | h
    · cases r with
      | stop x => exact hr.cancelled x rfl w hw (hb.trans hbot)
      | start x committed => cases hstopping
      | mutation x => cases hstopping
    · exact hi.worker_stopping b g h w hw hb

/-- **A committed start.**  Its worker becomes the active one of a bot that had none. -/
theorem commit (hi : LifecycleInv s) {r : BotStartReservation} (hr : .start r false ∈ s.held)
    {held : List Reservation}
    (hheld : held.map Reservation.generation = s.held.map Reservation.generation)
    (hmem : ∀ x ∈ held, x ∈ s.held ∨ ∃ y, x = .start y true ∧ .start y false ∈ s.held)
    (hused : .start r false ∉ held) :
    LifecycleInv
      { s with
        lifecycle := s.lifecycle.setSlot r.botKind
          ⟨(s.lifecycle.slot r.botKind).operation, some ⟨r.generation, r.cancellation⟩⟩
        held := held
        workers := ⟨r.botKind, r.workerLease⟩ :: s.workers } := by
  have hstart : (s.lifecycle.slot r.botKind).operation
      = some (.starting r.generation r.coreGeneration r.cancellation) := hi.held_slot _ hr
  have hidle := hi.pending_idle r hr
  have hop : ∀ b, ((s.lifecycle.setSlot r.botKind ⟨(s.lifecycle.slot r.botKind).operation,
      some ⟨r.generation, r.cancellation⟩⟩).slot b).operation = (s.lifecycle.slot b).operation := by
    intro b
    by_cases hb : b = r.botKind
    · rw [hb, slot_setSlot_same]
    · rw [slot_setSlot_ne hb]
  have hactive : ∀ b a, ((s.lifecycle.setSlot r.botKind ⟨(s.lifecycle.slot r.botKind).operation,
      some ⟨r.generation, r.cancellation⟩⟩).slot b).active = some a →
      (b = r.botKind ∧ a = ⟨r.generation, r.cancellation⟩) ∨ (s.lifecycle.slot b).active = some a := by
    intro b a h
    by_cases hb : b = r.botKind
    · rw [hb, slot_setSlot_same] at h
      exact .inl ⟨hb, (Option.some.inj h).symm⟩
    · rw [slot_setSlot_ne hb] at h
      exact .inr h
  have hpending : ∀ y, .start y false ∈ held → .start y false ∈ s.held ∧ y.botKind ≠ r.botKind := by
    intro y hy
    rcases hmem _ hy with h | ⟨_, h, -⟩
    · refine ⟨h, fun hb => ?_⟩
      have hsame : Reservation.start y false = .start r false := hi.held_unique h hr hb
      exact hused (hsame ▸ hy)
    · cases h
  have hgen_le := hi.held_le hr
  refine
    { issued_desc := hi.issued_desc, issued_le := hi.issued_le, held_slot := ?_
      held_nodup := hheld ▸ hi.held_nodup, flag_known := ?_, operation_le := ?_, active_le := ?_
      active_stopping := ?_, active_mutating := ?_, pending_idle := ?_, pending_new := ?_
      worker_le := ?_, worker_nodup := ?_, worker_active := ?_, worker_stopping := ?_ }
  · intro x hx
    refine (hop x.botKind).trans ?_
    rcases hmem x hx with h | ⟨y, rfl, h⟩
    · exact hi.held_slot x h
    · exact hi.held_slot (.start y false) h
  · intro b g core t h
    exact hi.flag_known b g core t ((hop b).symm.trans h)
  · intro b op h
    exact hi.operation_le b op ((hop b).symm.trans h)
  · intro b a h
    rcases hactive b a h with ⟨-, rfl⟩ | h
    · exact ⟨hgen_le, hi.flag_known _ _ _ _ hstart⟩
    · exact hi.active_le b a h
  · intro b g a h ha
    replace h := (hop b).symm.trans h
    rcases hactive b a ha with ⟨rfl, -⟩ | ha
    · rw [hstart] at h
      cases h
    · exact hi.active_stopping b g a h ha
  · intro b g h
    replace h := (hop b).symm.trans h
    have hb : b ≠ r.botKind := by
      rintro rfl
      rw [hstart] at h
      cases h
    have hkept : ((s.lifecycle.setSlot r.botKind ⟨(s.lifecycle.slot r.botKind).operation,
        some ⟨r.generation, r.cancellation⟩⟩).slot b) = s.lifecycle.slot b := slot_setSlot_ne hb
    exact (congrArg BotLifecycleSlot.active hkept).trans (hi.active_mutating b g h)
  · intro y hy
    obtain ⟨hy, hb⟩ := hpending y hy
    have hkept : ((s.lifecycle.setSlot r.botKind ⟨(s.lifecycle.slot r.botKind).operation,
        some ⟨r.generation, r.cancellation⟩⟩).slot y.botKind) = s.lifecycle.slot y.botKind :=
      slot_setSlot_ne hb
    exact (congrArg BotLifecycleSlot.active hkept).trans (hi.pending_idle y hy)
  · intro y hy w hw
    obtain ⟨hy, hb⟩ := hpending y hy
    rcases List.mem_cons.mp hw with rfl | hw
    · intro hgen
      have hsame : Reservation.start r false = .start y false :=
        List.inj_on_of_nodup_map hi.held_nodup hr hy hgen
      cases hsame
      exact hb rfl
    · exact hi.pending_new y hy w hw
  · intro w hw
    rcases List.mem_cons.mp hw with rfl | hw
    · exact hgen_le
    · exact hi.worker_le w hw
  · refine List.nodup_cons.mpr ⟨?_, hi.worker_nodup⟩
    intro h
    obtain ⟨w, hw, hgen⟩ := List.mem_map.mp h
    exact hi.pending_new r hr w hw hgen
  · intro w hw h
    rcases List.mem_cons.mp hw with rfl | hw
    · show ((s.lifecycle.setSlot r.botKind _).slot r.botKind).active = _
      rw [slot_setSlot_same]
      rfl
    · have hactive' := hi.worker_active w hw h
      have hb : w.botKind ≠ r.botKind := by
        intro hb
        rw [hb, hidle] at hactive'
        cases hactive'
      have hkept : ((s.lifecycle.setSlot r.botKind ⟨(s.lifecycle.slot r.botKind).operation,
          some ⟨r.generation, r.cancellation⟩⟩).slot w.botKind) = s.lifecycle.slot w.botKind :=
        slot_setSlot_ne hb
      exact (congrArg BotLifecycleSlot.active hkept).trans hactive'
  · intro b g h w hw hb
    replace h := (hop b).symm.trans h
    rcases List.mem_cons.mp hw with rfl | hw
    · have hb' : r.botKind = b := hb
      rw [← hb', hstart] at h
      cases h
    · exact hi.worker_stopping b g h w hw hb

theorem mono (hi : LifecycleInv s) {held : List Reservation} {workers : List BotWorker}
    (hheld : (held.map Reservation.generation).Nodup)
    (hslot : ∀ x ∈ held, (s.lifecycle.slot x.botKind).operation = some x.operation)
    (hpending : ∀ y, .start y false ∈ held → .start y false ∈ s.held)
    (hworkers : workers.Sublist s.workers) :
    LifecycleInv { s with held := held, workers := workers } where
  issued_desc := hi.issued_desc
  issued_le := hi.issued_le
  held_slot := hslot
  held_nodup := hheld
  flag_known := hi.flag_known
  operation_le := hi.operation_le
  active_le := hi.active_le
  active_stopping := hi.active_stopping
  active_mutating := hi.active_mutating
  pending_idle := fun y hy => hi.pending_idle y (hpending y hy)
  pending_new := fun y hy w hw => hi.pending_new y (hpending y hy) w (hworkers.subset hw)
  worker_le := fun w hw => hi.worker_le w (hworkers.subset hw)
  worker_nodup := hi.worker_nodup.sublist (hworkers.map _)
  worker_active := fun w hw h => hi.worker_active w (hworkers.subset hw) h
  worker_stopping := fun b g h w hw hb => hi.worker_stopping b g h w (hworkers.subset hw) hb

/-- **A slot that is cleared.**  Its operation goes when nobody holds it, its active worker when every
worker of the bot that is left is cancelled. -/
theorem clear (hi : LifecycleInv s) {b : BotKind} {slot : BotLifecycleSlot}
    (hop : slot.operation = (s.lifecycle.slot b).operation ∨
      slot.operation = none ∧ ∀ x ∈ s.held, x.botKind ≠ b)
    (hactive : slot.active = (s.lifecycle.slot b).active ∨
      slot.active = none ∧ ∀ w ∈ s.workers, w.botKind = b →
        s.lifecycle.isCancelled w.lease.cancellation = true) :
    LifecycleInv { s with lifecycle := s.lifecycle.setSlot b slot } := by
  have hop' : ∀ b' op, ((s.lifecycle.setSlot b slot).slot b').operation = some op →
      (s.lifecycle.slot b').operation = some op := by
    intro b' op h
    by_cases hb : b' = b
    · rw [hb, slot_setSlot_same] at h
      rcases hop with hsame | ⟨hnone, -⟩
      · rw [hb, ← hsame, h]
      · rw [hnone] at h
        cases h
    · rwa [slot_setSlot_ne hb] at h
  have hactive' : ∀ b' a, ((s.lifecycle.setSlot b slot).slot b').active = some a →
      (s.lifecycle.slot b').active = some a := by
    intro b' a h
    by_cases hb : b' = b
    · rw [hb, slot_setSlot_same] at h
      rcases hactive with hsame | ⟨hnone, -⟩
      · rw [hb, ← hsame, h]
      · rw [hnone] at h
        cases h
    · rwa [slot_setSlot_ne hb] at h
  have hidle : ∀ b', (s.lifecycle.slot b').active = none →
      ((s.lifecycle.setSlot b slot).slot b').active = none := by
    intro b' h
    cases hafter : ((s.lifecycle.setSlot b slot).slot b').active with
    | none => rfl
    | some a =>
      rw [hactive' b' a hafter] at h
      cases h
  refine
    { issued_desc := hi.issued_desc, issued_le := hi.issued_le, held_slot := fun x hx => ?_
      held_nodup := hi.held_nodup
      flag_known := fun b' g core t h => hi.flag_known b' g core t (hop' b' _ h)
      operation_le := fun b' op h => hi.operation_le b' op (hop' b' op h)
      active_le := fun b' a h => hi.active_le b' a (hactive' b' a h)
      active_stopping := fun b' g a h ha => hi.active_stopping b' g a (hop' b' _ h) (hactive' b' a ha)
      active_mutating := fun b' g h => hidle b' (hi.active_mutating b' g (hop' b' _ h))
      pending_idle := fun y hy => hidle y.botKind (hi.pending_idle y hy)
      pending_new := hi.pending_new, worker_le := hi.worker_le, worker_nodup := hi.worker_nodup
      worker_active := fun w hw h => ?_
      worker_stopping := fun b' g h w hw hb => hi.worker_stopping b' g (hop' b' _ h) w hw hb }
  · show ((s.lifecycle.setSlot b slot).slot x.botKind).operation = _
    by_cases hb : x.botKind = b
    · rcases hop with hsame | ⟨-, hfree⟩
      · rw [hb, slot_setSlot_same, hsame, ← hb]
        exact hi.held_slot x hx
      · exact absurd hb (hfree x hx)
    · rw [slot_setSlot_ne hb]
      exact hi.held_slot x hx
  · show ((s.lifecycle.setSlot b slot).slot w.botKind).active = _
    by_cases hb : w.botKind = b
    · rcases hactive with hsame | ⟨-, hcancelled⟩
      · rw [hb, slot_setSlot_same, hsame, ← hb]
        exact hi.worker_active w hw h
      · have h' : s.lifecycle.isCancelled w.lease.cancellation = false := h
        rw [hcancelled w hw hb] at h'
        cases h'
    · rw [slot_setSlot_ne hb]
      exact hi.worker_active w hw h

/-! ## 2. One lemma for each method -/

theorem reserveStart (hi : LifecycleInv s) (botKind : BotKind) :
    LifecycleInv (s.step (.reserveStart botKind)) := by
  simp only [DesktopState.step, BotLifecycleCoordinator.reserveStart]
  by_cases hpoisoned : s.lifecycle.poisoned = true
  · rw [if_pos hpoisoned]
    exact hi
  rw [if_neg hpoisoned]
  by_cases hoccupied : (s.lifecycle.slot botKind).occupied = true
  · rw [if_pos hoccupied]
    exact hi
  rw [if_neg hoccupied]
  cases hnext : s.lifecycle.state.checkedNext with
  | none => exact hi.poison
  | some generation =>
    have hgen := checkedNext_eq_some hnext
    simp only [BotLifecycleSlot.occupied, Bool.or_eq_true, not_or, Bool.not_eq_true,
      Option.isSome_eq_false_iff, Option.isNone_iff_eq_none] at hoccupied
    -- the flag is allocated first; it is known to nobody
    have hlonger : s.lifecycle.flags.length ≤ (s.lifecycle.flags ++ [false]).length := by simp
    have halloc : LifecycleInv
        { s with lifecycle := { s.lifecycle with flags := s.lifecycle.flags ++ [false] } } :=
      { hi with
        flag_known := fun b g core t h => Nat.lt_of_lt_of_le (hi.flag_known b g core t h) hlonger
        active_le := fun b a h =>
          ⟨(hi.active_le b a h).1, Nat.lt_of_lt_of_le (hi.active_le b a h).2 hlonger⟩
        worker_active := fun w hw h => hi.worker_active w hw (isCancelled_alloc.symm.trans h)
        worker_stopping := fun b g h w hw hb =>
          isCancelled_alloc.trans (hi.worker_stopping b g h w hw hb) }
    refine halloc.hold (r := .start ⟨botKind, generation, s.lifecycle.state.coreGeneration,
      s.lifecycle.flags.length⟩ false) ⟨hoccupied.1, hgen, fun _ => hoccupied.2, ?_, ?_⟩
    · intro x hx
      cases hx
    · intro g core t h
      cases h
      simp

theorem beginMutation (hi : LifecycleInv s) (botKind : BotKind) :
    LifecycleInv (s.step (.beginMutation botKind)) := by
  simp only [DesktopState.step, BotLifecycleCoordinator.reserveMutation]
  by_cases hpoisoned : s.lifecycle.poisoned = true
  · rw [if_pos hpoisoned]
    exact hi
  rw [if_neg hpoisoned]
  by_cases hoccupied : (s.lifecycle.slot botKind).occupied = true
  · rw [if_pos hoccupied]
    exact hi
  rw [if_neg hoccupied]
  cases hnext : s.lifecycle.state.checkedNext with
  | none => exact hi.poison
  | some generation =>
    simp only [BotLifecycleSlot.occupied, Bool.or_eq_true, not_or, Bool.not_eq_true,
      Option.isSome_eq_false_iff, Option.isNone_iff_eq_none] at hoccupied
    refine hi.hold (r := .mutation ⟨botKind, generation⟩)
      ⟨hoccupied.1, checkedNext_eq_some hnext, fun _ => hoccupied.2, ?_, ?_⟩
    · intro x hx
      cases hx
    · intro g core t h
      cases h

theorem stopReserved {c : BotLifecycleCoordinator} {botKind : BotKind}
    (hc : LifecycleInv { s with lifecycle := c }) (hop : (c.slot botKind).operation = none)
    (hcancelled : ∀ w ∈ s.workers, w.botKind = botKind → c.isCancelled w.lease.cancellation = true) :
    LifecycleInv (match (match c.state.checkedNext with
        | none => (c.poison, Outcome.panics)
        | some generation =>
          (c.begin botKind generation (.stopping generation), .ok (.reserved ⟨botKind, generation⟩)) :
        BotLifecycleCoordinator × Outcome StopResult) with
      | (c, .ok (.reserved r)) => s.hold c (.stop r)
      | (c, _) => { s with lifecycle := c }) := by
  cases hnext : c.state.checkedNext with
  | none => exact hc.poison
  | some generation =>
    refine hc.hold (r := .stop ⟨botKind, generation⟩)
      ⟨hop, checkedNext_eq_some hnext, fun h => absurd rfl (h _), fun _ _ => hcancelled, ?_⟩
    intro g core t h
    cases h

theorem stopTurn (hi : LifecycleInv s) (botKind : BotKind) (turn : StopTurn) :
    LifecycleInv (s.step (.stopTurn botKind turn)) := by
  simp only [DesktopState.step, BotLifecycleCoordinator.reserveStopTurn]
  by_cases hpoisoned : s.lifecycle.poisoned = true
  · rw [if_pos hpoisoned]
    exact hi
  rw [if_neg hpoisoned]
  cases hop : (s.lifecycle.slot botKind).operation with
  | some op =>
    cases op with
    | starting g core t => exact hi.cancel t
    | stopping g => exact hi
    | mutating g => exact hi
  | none =>
    -- the active worker is cancelled first, so every worker of the bot is
    cases hactive : (s.lifecycle.slot botKind).active with
    | none =>
      refine stopReserved (c := s.lifecycle) hi hop fun w hw hb => ?_
      cases hw' : s.lifecycle.isCancelled w.lease.cancellation with
      | true => rfl
      | false =>
        have h := hi.worker_active w hw hw'
        rw [hb, hactive] at h
        cases h
    | some a =>
      refine stopReserved (hi.cancel a.cancellation) hop fun w hw hb => ?_
      cases hw' : s.lifecycle.isCancelled w.lease.cancellation with
      | true => exact isCancelled_cancel_of hw'
      | false =>
        have h := hi.worker_active w hw hw'
        rw [hb, hactive] at h
        cases h
        exact isCancelled_cancel_self (hi.active_le botKind _ hactive).2

theorem cancelAll (hi : LifecycleInv s) (ts : List BotStartCancellation) :
    LifecycleInv { s with lifecycle := ts.foldl BotLifecycleCoordinator.cancel s.lifecycle } := by
  induction ts generalizing s with
  | nil => exact hi
  | cons t rest ih => exact ih (hi.cancel t)

theorem invalidateCore (hi : LifecycleInv s) : LifecycleInv (s.step .invalidateCore) := by
  simp only [DesktopState.step, BotLifecycleCoordinator.invalidateCore]
  split
  · exact hi
  split
  · have hcore : LifecycleInv { s with lifecycle :=
        { s.lifecycle with state :=
          { s.lifecycle.state with coreGeneration := s.lifecycle.state.coreGeneration + 1 } } } :=
      { hi with }
    exact hcore.cancelAll _
  · exact hi.poison

theorem pendingStart_eq_some {r : BotStartReservation}
    (h : s.pendingStart generation = some r) :
    .start r false ∈ s.held ∧ r.generation = generation := by
  obtain ⟨x, hx, hsome⟩ := List.exists_of_findSome?_eq_some h
  cases x with
  | start y committed =>
    cases committed with
    | false =>
      simp only [Option.ite_none_right_eq_some, Option.some.injEq] at hsome
      obtain ⟨hgen, rfl⟩ := hsome
      exact ⟨hx, hgen⟩
    | true => cases hsome
  | stop y => cases hsome
  | mutation y => cases hsome

theorem mem_markCommitted {x : Reservation} (h : x ∈ s.markCommitted generation) :
    x ∈ s.held ∨ ∃ y, x = .start y true ∧ .start y false ∈ s.held := by
  obtain ⟨x', hx', rfl⟩ := List.mem_map.mp h
  cases x' with
  | start y committed =>
    cases committed with
    | true => exact .inl hx'
    | false =>
      cases hgen : y.generation == generation with
      | true => exact .inr ⟨y, by simp [hgen], hx'⟩
      | false =>
        left
        simpa [hgen] using hx'
  | stop y => exact .inl hx'
  | mutation y => exact .inl hx'

theorem markCommitted_generations :
    (s.markCommitted generation).map Reservation.generation = s.held.map Reservation.generation := by
  unfold DesktopState.markCommitted
  rw [List.map_map]
  refine List.map_congr_left fun x _ => ?_
  cases x with
  | start y committed => rfl
  | stop y => rfl
  | mutation y => rfl

theorem not_pending_markCommitted {r : BotStartReservation} :
    .start r false ∉ s.markCommitted r.generation := by
  intro h
  obtain ⟨x, -, heq⟩ := List.mem_map.mp h
  cases x with
  | start y committed =>
    simp only [Reservation.start.injEq, Bool.or_eq_false_iff, beq_eq_false_iff_ne] at heq
    obtain ⟨rfl, -, hne⟩ := heq
    exact hne rfl
  | stop y => cases heq
  | mutation y => cases heq

theorem markedOnly (hi : LifecycleInv s) (generation : Nat) :
    LifecycleInv { s with held := s.markCommitted generation } := by
  refine hi.mono ?_ ?_ ?_ (List.Sublist.refl s.workers)
  · rw [markCommitted_generations]
    exact hi.held_nodup
  · intro x hx
    rcases mem_markCommitted hx with h | ⟨y, rfl, h⟩
    · exact hi.held_slot x h
    · exact hi.held_slot (.start y false) h
  · intro y hy
    rcases mem_markCommitted hy with h | ⟨_, h, -⟩
    · exact h
    · cases h

theorem commitStart (hi : LifecycleInv s) (generation : Nat) (publish : Except String Unit) :
    LifecycleInv (s.step (.commitStart generation publish)) := by
  simp only [DesktopState.step]
  cases hpending : s.pendingStart generation with
  | none => exact hi
  | some r =>
    obtain ⟨hr, rfl⟩ := pendingStart_eq_some hpending
    simp only [BotLifecycleCoordinator.commitStart]
    by_cases hpoisoned : s.lifecycle.poisoned = true
    · rw [if_pos hpoisoned]
      exact hi.markedOnly r.generation
    rw [if_neg hpoisoned]
    cases s.lifecycle.validateStartState r with
    | err text => exact hi.markedOnly r.generation
    | panics => exact hi.markedOnly r.generation
    | ok value =>
      cases publish with
      | ok done =>
        exact hi.commit hr markCommitted_generations (fun x hx => mem_markCommitted hx)
          not_pending_markCommitted
      | error text =>
        -- the slot is what it was: it had no active worker
        have hslot : ∀ slot : BotLifecycleSlot,
            ((s.lifecycle.setSlot r.botKind ⟨slot.operation, some ⟨r.generation, r.cancellation⟩⟩).clearActive
              r.botKind r.generation) = s.lifecycle.setSlot r.botKind ⟨slot.operation, none⟩ := by
          intro slot
          simp [clearActive, setSlot, Function.update_idem, BotLifecycleCoordinator.slot]
        simp only [hslot]
        exact (hi.markedOnly r.generation).clear (.inl rfl) (.inl (hi.pending_idle r hr).symm)

theorem finishController (hi : LifecycleInv s) (botKind : BotKind) (generation : Nat) :
    LifecycleInv (s.step (.finishController botKind generation)) := by
  simp only [DesktopState.step, BotLifecycleCoordinator.finishController]
  have hrest : LifecycleInv { s with
      workers := s.workers.filter fun w => !(w.botKind == botKind && w.lease.generation == generation) } :=
    hi.mono hi.held_nodup hi.held_slot (fun y hy => hy) List.filter_sublist
  split
  · exact hrest
  unfold clearActive
  cases hactive : (s.lifecycle.slot botKind).active with
  | none => exact hrest
  | some a =>
    by_cases hgen : a.generation = generation
    · simp only [if_pos hgen]
      refine hrest.clear (.inl rfl) (.inr ⟨rfl, fun w hw hb => ?_⟩)
      obtain ⟨hw, hkept⟩ := List.mem_filter.mp hw
      cases hw' : s.lifecycle.isCancelled w.lease.cancellation with
      | true => rfl
      | false =>
        -- an uncancelled worker of the bot would be the one that finished
        have h := hi.worker_active w hw hw'
        rw [hb, hactive] at h
        cases h
        simp [hb, ← hgen] at hkept
    · simp only [if_neg hgen]
      exact hrest

theorem dropped (hi : LifecycleInv s) (hr : r ∈ s.held) :
    LifecycleInv { s with held := s.held.filter fun x => x.generation != r.generation } ∧
      ∀ x ∈ s.held.filter (fun x => x.generation != r.generation), x.botKind ≠ r.botKind := by
  constructor
  · refine hi.mono ?_ ?_ ?_ (List.Sublist.refl s.workers)
    · exact hi.held_nodup.sublist (List.filter_sublist.map _)
    · intro x hx
      exact hi.held_slot x (List.mem_filter.mp hx).1
    · intro y hy
      exact (List.mem_filter.mp hy).1
  · intro x hx hb
    obtain ⟨hx, hne⟩ := List.mem_filter.mp hx
    rw [hi.held_unique hx hr hb] at hne
    simp at hne

theorem drop (hi : LifecycleInv s) (generation : Nat) : LifecycleInv (s.step (.drop generation)) := by
  simp only [DesktopState.step]
  cases hfind : s.held.find? fun r => r.generation == generation with
  | none => exact hi
  | some r =>
    have hr := List.mem_of_find?_eq_some hfind
    have hgen : r.generation = generation := by simpa using List.find?_some hfind
    subst hgen
    obtain ⟨hrest, hfree⟩ := hi.dropped hr
    simp only [dropReservation_eq (hi.held_slot r hr)]
    split
    · exact hrest
    cases r with
    | start y committed => exact hrest.clear (.inr ⟨rfl, hfree⟩) (.inl rfl)
    | mutation y => exact hrest.clear (.inr ⟨rfl, hfree⟩) (.inl rfl)
    | stop y =>
      exact hrest.clear (.inr ⟨rfl, hfree⟩)
        (.inr ⟨rfl, hi.worker_stopping y.botKind y.generation (hi.held_slot (.stop y) hr)⟩)

theorem step (hi : LifecycleInv s) (e : LifecycleEvent) : LifecycleInv (s.step e) := by
  cases e with
  | reserveStart botKind => exact hi.reserveStart botKind
  | stopTurn botKind turn => exact hi.stopTurn botKind turn
  | beginMutation botKind => exact hi.beginMutation botKind
  | invalidateCore => exact hi.invalidateCore
  | withCurrentStart generation => exact hi
  | commitStart generation publish => exact hi.commitStart generation publish
  | finishController botKind generation => exact hi.finishController botKind generation
  | drop generation => exact hi.drop generation

theorem after (es : List LifecycleEvent) : LifecycleInv (DesktopState.after es) :=
  Machine.run_invariant (fun _ e hi => hi.step e) LifecycleInv.initial es

end LifecycleInv

end Artgod.Desktop
