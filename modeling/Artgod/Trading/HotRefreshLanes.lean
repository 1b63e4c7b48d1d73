/-
# The lanes of the hot-refresh scheduler

What holds of the lanes, the timers, the passes, the queues and the cooldowns of the scheduler while it is
not stopped, each stated about the few things it depends on, with what the basic changes of the state do to
it: a lane is made or dropped, a timer is set or runs out, a pass starts or ends, a pending event comes or
goes.
-/
import Artgod.Trading.HotRefresh

namespace Artgod.Trading

open Store Js
open Function (update_self update_of_ne)

/-! ## 1. Lanes -/

/-- The kind that a lane key is for. -/
def keyKind (laneKey : String) : HotRefreshLaneKind :=
  if laneKey.toList.head? = some 'i' then .item else .broad

theorem keyKind_createLaneKey {e : MarketEvent} (h : isSupportedHotRefreshEvent e = true) :
    keyKind (createLaneKey e) = HotRefreshBackpressure.laneKind e := by
  unfold isSupportedHotRefreshEvent isBroadHotRefreshEvent at h
  unfold keyKind createLaneKey HotRefreshBackpressure.laneKind isBroadHotRefreshEvent
  cases hscope : e.scope with
  | item => simp
  | collection => simp
  | trait => simp
  | unknown => simp [hscope] at h

/-- Every key has a lane of its own, of its kind. -/
structure LanesOk (lanes : OrderedMap String Nat) (kindOf : Nat → HotRefreshLaneKind) (nextLane : Nat) :
    Prop where
  bound : ∀ k l, lanes.get k = some l → l < nextLane
  inj : ∀ k k' l, lanes.get k = some l → lanes.get k' = some l → k = k'
  kind : ∀ k l, lanes.get k = some l → kindOf l = keyKind k

/-- A timer that is set is the timer of a lane that is there. -/
structure TimersOk (lanes : OrderedMap String Nat) (timerOf : Nat → Option Nat)
    (timers : OrderedMap Nat LaneTimer) (nextTimer : Nat) : Prop where
  bound : ∀ id t, timers.get id = some t → id < nextTimer
  live : ∀ id t, timers.get id = some t → lanes.get t.laneKey = some t.lane ∧ timerOf t.lane = some id
  armed : ∀ k l id, lanes.get k = some l → timerOf l = some id → ∃ t, timers.get id = some t ∧ t.lane = l

/-- A lane runs when a pass of it does, and has one pass. -/
structure PassesOk (lanes : OrderedMap String Nat) (runningOf : Nat → Bool)
    (passes : OrderedMap Nat HotRefreshPass) (nextPass active : Nat) : Prop where
  bound : ∀ id p, passes.get id = some p → id < nextPass
  live : ∀ id p, passes.get id = some p → lanes.get p.laneKey = some p.lane ∧ runningOf p.lane = true
  unique : ∀ id id' p p', passes.get id = some p → passes.get id' = some p' → p.lane = p'.lane → id = id'
  running : ∀ k l, lanes.get k = some l → runningOf l = true → ∃ id p, passes.get id = some p ∧ p.lane = l
  count : active = passes.size

/-- The queue of a kind holds what is pending in the lanes of the kind. -/
structure QueueOk (lanes : OrderedMap String Nat) (pendingOf : Nat → OrderedMap String Nat)
    (queue : HotRefreshLaneKind → IndexedHeap PendingEventReference Nat) (nextPending : Nat) : Prop where
  indexed : ∀ kind, IndexedHeap.Indexed PendingEventReference.pending (queue kind)
  mem : ∀ kind r, r ∈ (queue kind).heap ↔ lanes.get r.laneKey = some r.lane ∧ keyKind r.laneKey = kind ∧
    (pendingOf r.lane).get r.signature = some r.pending
  bound : ∀ kind r, r ∈ (queue kind).heap → r.pending < nextPending

/-- A cooldown that is not over is that of the lane, or is retained. -/
def CooldownOf (lanes : OrderedMap String Nat) (runningOf : Nat → Bool) (nextRunAtOf : Nat → Nat)
    (retained : HotRefreshLaneKind → OrderedMap String Nat) (now : Nat) (k : String) (d : Nat) : Prop :=
  d ≤ now ∨ (∃ l, lanes.get k = some l ∧ (runningOf l = true ∨ nextRunAtOf l = d)) ∨
    (lanes.get k = none ∧ (retained (keyKind k)).get k = some d)

/-! ### A lane is made -/

section

variable {lanes : OrderedMap String Nat} {k : String}

variable {runningOf : Nat → Bool} {active d l nextLane nextPass nextTimer now : Nat}
  {timerOf : Nat → Option Nat} {timers : OrderedMap Nat LaneTimer}
  {passes : OrderedMap Nat HotRefreshPass} {k' : String} {nextRunAtOf : Nat → Nat}
  {retained : HotRefreshLaneKind → OrderedMap String Nat}

variable {kindOf : Nat → HotRefreshLaneKind} {pendingOf : Nat → OrderedMap String Nat}
  {queue : HotRefreshLaneKind → IndexedHeap PendingEventReference Nat}
  {callback id nextPending : Nat} {retained' : HotRefreshLaneKind → OrderedMap String Nat}

theorem LanesOk.make {kind : HotRefreshLaneKind}
    (h : LanesOk lanes kindOf nextLane) (hkind : kind = keyKind k) :
    LanesOk (lanes.set k nextLane) (Function.update kindOf nextLane kind) (nextLane + 1) where
  bound := fun k' l hl => by
    rw [OrderedMap.get_set] at hl
    split at hl
    · cases hl
      exact Nat.lt_succ_self _
    · exact Nat.lt_succ_of_lt (h.bound k' l hl)
  inj := fun k₁ k₂ l h₁ h₂ => by
    rw [OrderedMap.get_set] at h₁ h₂
    split at h₁
    · next hk₁ =>
      cases h₁
      split at h₂
      · next hk₂ => exact hk₁.trans hk₂.symm
      · exact absurd (h.bound k₂ _ h₂) (Nat.lt_irrefl _)
    · split at h₂
      · cases h₂
        exact absurd (h.bound k₁ _ h₁) (Nat.lt_irrefl _)
      · exact h.inj k₁ k₂ l h₁ h₂
  kind := fun k' l hl => by
    rw [OrderedMap.get_set] at hl
    split at hl
    · next hk =>
      cases hl
      rw [update_self, hk]
      exact hkind
    · rw [update_of_ne (Nat.ne_of_lt (h.bound k' l hl))]
      exact h.kind k' l hl

theorem TimersOk.make (h : TimersOk lanes timerOf timers nextTimer) (hnew : lanes.get k = none)
    (hbound : ∀ k l, lanes.get k = some l → l < nextLane) :
    TimersOk (lanes.set k nextLane) (Function.update timerOf nextLane none) timers nextTimer where
  bound := h.bound
  live := fun id t ht => by
    obtain ⟨hlive, htimer⟩ := h.live id t ht
    have hk : t.laneKey ≠ k := fun hk => by
      rw [hk, hnew] at hlive
      cases hlive
    rw [OrderedMap.get_set, if_neg hk, update_of_ne (Nat.ne_of_lt (hbound _ _ hlive))]
    exact ⟨hlive, htimer⟩
  armed := fun k' l id hl hid => by
    rw [OrderedMap.get_set] at hl
    split at hl
    · cases hl
      rw [update_self] at hid
      cases hid
    · rw [update_of_ne (Nat.ne_of_lt (hbound k' l hl))] at hid
      exact h.armed k' l id hl hid

theorem PassesOk.make (h : PassesOk lanes runningOf passes nextPass active)
    (hnew : lanes.get k = none) (hbound : ∀ k l, lanes.get k = some l → l < nextLane) :
    PassesOk (lanes.set k nextLane) (Function.update runningOf nextLane false) passes nextPass active where
  bound := h.bound
  live := fun id p hp => by
    obtain ⟨hlive, hrunning⟩ := h.live id p hp
    have hk : p.laneKey ≠ k := fun hk => by
      rw [hk, hnew] at hlive
      cases hlive
    rw [OrderedMap.get_set, if_neg hk, update_of_ne (Nat.ne_of_lt (hbound _ _ hlive))]
    exact ⟨hlive, hrunning⟩
  unique := h.unique
  running := fun k' l hl hrunning => by
    rw [OrderedMap.get_set] at hl
    split at hl
    · cases hl
      rw [update_self] at hrunning
      cases hrunning
    · rw [update_of_ne (Nat.ne_of_lt (hbound k' l hl))] at hrunning
      exact h.running k' l hl hrunning
  count := h.count

theorem QueueOk.make (h : QueueOk lanes pendingOf queue nextPending) (hnew : lanes.get k = none)
    (hbound : ∀ k l, lanes.get k = some l → l < nextLane) :
    QueueOk (lanes.set k nextLane) (Function.update pendingOf nextLane .empty) queue nextPending where
  indexed := h.indexed
  mem := fun kind r => by
    rw [h.mem kind r, OrderedMap.get_set]
    by_cases hk : r.laneKey = k
    · rw [if_pos hk, hk, hnew]
      refine ⟨fun hr => absurd hr.1 (by simp), fun hr => ?_⟩
      rw [← Option.some.inj hr.1, update_self, OrderedMap.get_empty] at hr
      exact absurd hr.2.2 (by simp)
    · rw [if_neg hk]
      refine and_congr_right fun hl => ?_
      rw [update_of_ne (Nat.ne_of_lt (hbound _ _ hl))]
  bound := h.bound

/-! ### An idle lane is dropped -/

theorem get_of_get_delete {ν : Type} {m : OrderedMap String ν} {k : String} {v : ν}
    (h : (m.delete k).get k' = some v) : k' ≠ k ∧ m.get k' = some v := by
  rw [OrderedMap.get_delete] at h
  split at h
  · cases h
  · next hk => exact ⟨hk, h⟩

theorem LanesOk.drop
    (h : LanesOk lanes kindOf nextLane) (k : String) : LanesOk (lanes.delete k) kindOf nextLane where
  bound := fun k' l hl => h.bound k' l (get_of_get_delete hl).2
  inj := fun k₁ k₂ l h₁ h₂ => h.inj k₁ k₂ l (get_of_get_delete h₁).2 (get_of_get_delete h₂).2
  kind := fun k' l hl => h.kind k' l (get_of_get_delete hl).2

theorem TimersOk.drop
    (h : TimersOk lanes timerOf timers nextTimer) (hl : lanes.get k = some l) (hidle : timerOf l = none) :
    TimersOk (lanes.delete k) timerOf timers nextTimer where
  bound := h.bound
  live := fun id t ht => by
    obtain ⟨hlive, htimer⟩ := h.live id t ht
    have hk : t.laneKey ≠ k := fun hk => by
      rw [hk, hl] at hlive
      rw [← Option.some.inj hlive, hidle] at htimer
      cases htimer
    rw [OrderedMap.get_delete, if_neg hk]
    exact ⟨hlive, htimer⟩
  armed := fun k' l' id hl' hid => h.armed k' l' id (get_of_get_delete hl').2 hid

theorem PassesOk.drop (h : PassesOk lanes runningOf passes nextPass active)
    (hl : lanes.get k = some l) (hidle : runningOf l = false) :
    PassesOk (lanes.delete k) runningOf passes nextPass active where
  bound := h.bound
  live := fun id p hp => by
    obtain ⟨hlive, hrunning⟩ := h.live id p hp
    have hk : p.laneKey ≠ k := fun hk => by
      rw [hk, hl] at hlive
      rw [← Option.some.inj hlive, hidle] at hrunning
      cases hrunning
    rw [OrderedMap.get_delete, if_neg hk]
    exact ⟨hlive, hrunning⟩
  unique := h.unique
  running := fun k' l' hl' hrunning => h.running k' l' (get_of_get_delete hl').2 hrunning
  count := h.count

theorem QueueOk.drop (h : QueueOk lanes pendingOf queue nextPending) (hl : lanes.get k = some l)
    (hidle : ∀ signature, (pendingOf l).get signature = none) :
    QueueOk (lanes.delete k) pendingOf queue nextPending where
  indexed := h.indexed
  mem := fun kind r => by
    rw [h.mem kind r, OrderedMap.get_delete]
    by_cases hk : r.laneKey = k
    · rw [if_pos hk, hk, hl]
      refine ⟨fun hr => ?_, fun hr => absurd hr.1 (by simp)⟩
      rw [← Option.some.inj hr.1, hidle] at hr
      exact absurd hr.2.2 (by simp)
    · rw [if_neg hk]
  bound := h.bound

theorem CooldownOf.drop
    (h : CooldownOf lanes runningOf nextRunAtOf retained now k' d) (hl : lanes.get k = some l)
    (hidle : runningOf l = false)
    (hother : ∀ k', k' ≠ k → (retained' (keyKind k')).get k' = (retained (keyKind k')).get k')
    (hself : nextRunAtOf l ≤ now ∨ (retained' (keyKind k)).get k = some (nextRunAtOf l)) :
    CooldownOf (lanes.delete k) runningOf nextRunAtOf retained' now k' d := by
  unfold CooldownOf
  rw [OrderedMap.get_delete]
  rcases h with hover | ⟨l', hl', hlane⟩ | ⟨hnone, hretained⟩
  · exact .inl hover
  · by_cases hk : k' = k
    · rw [hk, hl] at hl'
      cases hl'
      rcases hlane with hlane | hlane
      · rw [hidle] at hlane
        cases hlane
      rw [hlane] at hself
      rcases hself with hover | hself
      · exact .inl hover
      · exact .inr (.inr ⟨if_pos hk, by rw [hk]; exact hself⟩)
    · exact .inr (.inl ⟨l', by rw [if_neg hk]; exact hl', hlane⟩)
  · have hk : k' ≠ k := fun hk => by
      rw [hk, hl] at hnone
      cases hnone
    exact .inr (.inr ⟨by rw [if_neg hk]; exact hnone, by rw [hother k' hk]; exact hretained⟩)

theorem CooldownOf.start (h : CooldownOf lanes runningOf nextRunAtOf retained now k d) (l : Nat) :
    CooldownOf lanes (Function.update runningOf l true) nextRunAtOf retained now k d := by
  rcases h with hover | ⟨l', hl', hlane⟩ | hretained
  · exact .inl hover
  · refine .inr (.inl ⟨l', hl', ?_⟩)
    by_cases hne : l' = l
    · rw [hne, update_self]
      exact .inl rfl
    · rw [update_of_ne hne]
      exact hlane
  · exact .inr (.inr hretained)

theorem CooldownOf.finish {nextRunAt : Nat}
    {deadlines : String → Option Nat} (hl : lanes.get k = some l)
    (hlanes : ∀ k k' l, lanes.get k = some l → lanes.get k' = some l → k = k')
    (h : ∀ d, deadlines k' = some d → CooldownOf lanes runningOf nextRunAtOf retained now k' d)
    (hd : Function.update deadlines k (some nextRunAt) k' = some d) :
    CooldownOf lanes (Function.update runningOf l false) (Function.update nextRunAtOf l nextRunAt) retained
      now k' d := by
  by_cases hk : k' = k
  · rw [hk, update_self] at hd
    cases hd
    rw [hk]
    exact .inr (.inl ⟨l, hl, .inr (update_self ..)⟩)
  · rw [update_of_ne hk] at hd
    rcases h d hd with hover | ⟨l', hl', hlane⟩ | hretained
    · exact .inl hover
    · have hne : l' ≠ l := fun heq => hk (hlanes k' k l' hl' (by rw [heq]; exact hl))
      refine .inr (.inl ⟨l', hl', ?_⟩)
      rw [update_of_ne hne, update_of_ne hne]
      exact hlane
    · exact .inr (.inr hretained)

theorem CooldownOf.make
    (h : CooldownOf lanes runningOf nextRunAtOf retained now k' d) (hnew : lanes.get k = none)
    (hbound : ∀ k l, lanes.get k = some l → l < nextLane)
    (hother : ∀ k', k' ≠ k → (retained' (keyKind k')).get k' = (retained (keyKind k')).get k') :
    CooldownOf (lanes.set k nextLane) (Function.update runningOf nextLane false)
      (Function.update nextRunAtOf nextLane (((retained (keyKind k)).get k).getD 0)) retained' now k' d := by
  unfold CooldownOf
  rw [OrderedMap.get_set]
  rcases h with hover | ⟨l', hl', hlane⟩ | ⟨hnone, hretained⟩
  · exact .inl hover
  · have hk : k' ≠ k := fun hk => by
      rw [hk, hnew] at hl'
      cases hl'
    have hne : l' ≠ nextLane := Nat.ne_of_lt (hbound k' l' hl')
    refine .inr (.inl ⟨l', by rw [if_neg hk]; exact hl', ?_⟩)
    rw [update_of_ne hne, update_of_ne hne]
    exact hlane
  · by_cases hk : k' = k
    · subst hk
      refine .inr (.inl ⟨nextLane, if_pos rfl, .inr ?_⟩)
      rw [update_self, hretained]
      rfl
    · refine .inr (.inr ⟨by rw [if_neg hk]; exact hnone, ?_⟩)
      rw [hother k' hk]
      exact hretained

/-! ### Timers and passes -/

theorem TimersOk.set {dueAt : Nat} (h : TimersOk lanes timerOf timers nextTimer)
    (hl : lanes.get k = some l) (hidle : timerOf l = none) :
    TimersOk lanes (Function.update timerOf l (some nextTimer))
      (timers.set nextTimer ⟨dueAt, k, l, callback⟩) (nextTimer + 1) where
  bound := fun id t ht => by
    rw [OrderedMap.get_set] at ht
    split at ht
    · next hid =>
      rw [hid]
      exact Nat.lt_succ_self _
    · exact Nat.lt_succ_of_lt (h.bound id t ht)
  live := fun id t ht => by
    rw [OrderedMap.get_set] at ht
    split at ht
    · next hid =>
      cases ht
      rw [update_self, hid]
      exact ⟨hl, rfl⟩
    · obtain ⟨hlive, htimer⟩ := h.live id t ht
      have hne : t.lane ≠ l := fun hlane => by
        rw [hlane, hidle] at htimer
        cases htimer
      rw [update_of_ne hne]
      exact ⟨hlive, htimer⟩
  armed := fun k' l' id hl' hid => by
    by_cases hlane : l' = l
    · rw [hlane, update_self] at hid
      cases hid
      exact ⟨_, by rw [OrderedMap.get_set, if_pos rfl], hlane.symm⟩
    rw [update_of_ne hlane] at hid
    obtain ⟨t, ht, htl⟩ := h.armed k' l' id hl' hid
    have hne : id ≠ nextTimer := Nat.ne_of_lt (h.bound id t ht)
    exact ⟨t, by rw [OrderedMap.get_set, if_neg hne]; exact ht, htl⟩

theorem TimersOk.unset {t : LaneTimer} (h : TimersOk lanes timerOf timers nextTimer)
    (ht : timers.get id = some t) :
    TimersOk lanes (Function.update timerOf t.lane none) (timers.delete id) nextTimer where
  bound := fun id' t' ht' => by
    rw [OrderedMap.get_delete] at ht'
    split at ht'
    · cases ht'
    · exact h.bound id' t' ht'
  live := fun id' t' ht' => by
    rw [OrderedMap.get_delete] at ht'
    split at ht'
    · cases ht'
    next hne =>
    obtain ⟨hlive, htimer⟩ := h.live id' t' ht'
    have hlane : t'.lane ≠ t.lane := fun hlane => by
      rw [hlane, (h.live id t ht).2] at htimer
      exact hne (Option.some.inj htimer).symm
    rw [update_of_ne hlane]
    exact ⟨hlive, htimer⟩
  armed := fun k' l' id' hl' hid => by
    by_cases hlane : l' = t.lane
    · rw [hlane, update_self] at hid
      cases hid
    rw [update_of_ne hlane] at hid
    obtain ⟨t', ht', htl⟩ := h.armed k' l' id' hl' hid
    have hne : id' ≠ id := fun hid' => by
      rw [hid', ht] at ht'
      exact hlane (htl.symm.trans (congrArg LaneTimer.lane (Option.some.inj ht').symm))
    exact ⟨t', by rw [OrderedMap.get_delete, if_neg hne]; exact ht', htl⟩

theorem PassesOk.start {events : List MarketEvent}
    (h : PassesOk lanes runningOf passes nextPass active) (hl : lanes.get k = some l)
    (hidle : runningOf l = false) :
    PassesOk lanes (Function.update runningOf l true) (passes.set nextPass ⟨k, l, callback, events⟩)
      (nextPass + 1) (active + 1) := by
  have hfresh : passes.get nextPass = none := by
    cases hp : passes.get nextPass with
    | none => rfl
    | some p => exact absurd (h.bound _ p hp) (Nat.lt_irrefl _)
  have hother : ∀ id p, passes.get id = some p → p.lane ≠ l := fun id p hp hlane => by
    have hrunning := (h.live id p hp).2
    rw [hlane, hidle] at hrunning
    cases hrunning
  refine ⟨fun id p hp => ?_, fun id p hp => ?_, fun id id' p p' hp hp' hlane => ?_,
    fun k' l' hl' hrunning => ?_, ?_⟩
  · rw [OrderedMap.get_set] at hp
    split at hp
    · next hid =>
      rw [hid]
      exact Nat.lt_succ_self _
    · exact Nat.lt_succ_of_lt (h.bound id p hp)
  · rw [OrderedMap.get_set] at hp
    split at hp
    · cases hp
      exact ⟨hl, update_self ..⟩
    · rw [update_of_ne (hother id p hp)]
      exact h.live id p hp
  · rw [OrderedMap.get_set] at hp hp'
    split at hp
    · next hid =>
      cases hp
      split at hp'
      · next hid' => exact hid.trans hid'.symm
      · exact absurd hlane.symm (hother id' p' hp')
    · split at hp'
      · cases hp'
        exact absurd hlane (hother id p hp)
      · exact h.unique id id' p p' hp hp' hlane
  · by_cases hlane : l' = l
    · exact ⟨nextPass, _, by rw [OrderedMap.get_set, if_pos rfl], hlane.symm⟩
    · rw [update_of_ne hlane] at hrunning
      obtain ⟨id, p, hp, hpl⟩ := h.running k' l' hl' hrunning
      exact ⟨id, p, by rw [OrderedMap.get_set, if_neg (Nat.ne_of_lt (h.bound id p hp))]; exact hp, hpl⟩
  · rw [OrderedMap.size_set_new hfresh, h.count]

theorem PassesOk.finish {p : HotRefreshPass} (h : PassesOk lanes runningOf passes nextPass active)
    (hp : passes.get id = some p) :
    PassesOk lanes (Function.update runningOf p.lane false) (passes.delete id) nextPass (active - 1) := by
  have hdeleted : ∀ id' p', (passes.delete id).get id' = some p' → id' ≠ id ∧ passes.get id' = some p' := by
    intro id' p' hp'
    rw [OrderedMap.get_delete] at hp'
    split at hp'
    · cases hp'
    · next hne => exact ⟨hne, hp'⟩
  refine ⟨fun id' p' hp' => h.bound id' p' (hdeleted id' p' hp').2, fun id' p' hp' => ?_,
    fun id₁ id₂ p₁ p₂ h₁ h₂ => h.unique id₁ id₂ p₁ p₂ (hdeleted _ _ h₁).2 (hdeleted _ _ h₂).2,
    fun k' l' hl' hrunning => ?_, ?_⟩
  · obtain ⟨hne, hp'⟩ := hdeleted id' p' hp'
    have hlane : p'.lane ≠ p.lane := fun hlane => hne (h.unique id' id p' p hp' hp hlane)
    rw [update_of_ne hlane]
    exact h.live id' p' hp'
  · by_cases hlane : l' = p.lane
    · rw [hlane, update_self] at hrunning
      cases hrunning
    rw [update_of_ne hlane] at hrunning
    obtain ⟨id', p', hp', hpl⟩ := h.running k' l' hl' hrunning
    have hne : id' ≠ id := fun hid => by
      rw [hid, hp] at hp'
      exact hlane (hpl.symm.trans (congrArg HotRefreshPass.lane (Option.some.inj hp').symm))
    exact ⟨id', p', by rw [OrderedMap.get_delete, if_neg hne]; exact hp', hpl⟩
  · have hsize := OrderedMap.size_delete_present hp
    rw [h.count]
    omega

/-! ### Pending events -/

section

variable {pendingOf : Nat → OrderedMap String Nat}
  {queue : HotRefreshLaneKind → IndexedHeap PendingEventReference Nat} {nextPending : Nat}
  (weaker : PendingEventReference → PendingEventReference → Bool)

variable {kind : HotRefreshLaneKind}

theorem QueueOk.rearrange (h : QueueOk lanes pendingOf queue nextPending)
    {q : IndexedHeap PendingEventReference Nat}
    (hq : IndexedHeap.Rearranged PendingEventReference.pending (queue kind) q) :
    QueueOk lanes pendingOf (Function.update queue kind q) nextPending := by
  have hmem : ∀ kind' r, r ∈ (Function.update queue kind q kind').heap ↔ r ∈ (queue kind').heap := by
    intro kind' r
    by_cases hk : kind' = kind
    · rw [hk, update_self]
      exact hq.mem r
    · rw [update_of_ne hk]
  refine ⟨fun kind' => ?_, fun kind' r => (hmem kind' r).trans (h.mem kind' r),
    fun kind' r hr => h.bound kind' r ((hmem kind' r).mp hr)⟩
  by_cases hk : kind' = kind
  · rw [hk, update_self]
    exact hq.indexed
  · rw [update_of_ne hk]
    exact h.indexed kind'

theorem QueueOk.add (h : QueueOk lanes pendingOf queue nextPending) {l : Nat} {signature : String}
    (hlanes : ∀ k k' l, lanes.get k = some l → lanes.get k' = some l → k = k')
    (hl : lanes.get k = some l) (hnew : (pendingOf l).get signature = none) :
    QueueOk lanes (Function.update pendingOf l ((pendingOf l).set signature nextPending))
        (Function.update queue (keyKind k)
          ((queue (keyKind k)).add PendingEventReference.pending weaker ⟨k, l, signature, nextPending⟩))
        (nextPending + 1) ∧
      ((queue (keyKind k)).add PendingEventReference.pending weaker
        ⟨k, l, signature, nextPending⟩).heap.length = (queue (keyKind k)).heap.length + 1 := by
  have hfresh : (queue (keyKind k)).index nextPending = none :=
    (h.indexed (keyKind k)).index_none.mpr fun r hr => Nat.ne_of_lt (h.bound _ r hr)
  obtain ⟨hindexed, hlength, hmem⟩ :=
    @IndexedHeap.Indexed.add _ _ _ _ _ weaker (h.indexed (keyKind k)) ⟨k, l, signature, nextPending⟩ hfresh
  have hmem' : ∀ kind r, r ∈ (Function.update queue (keyKind k)
      ((queue (keyKind k)).add PendingEventReference.pending weaker
        ⟨k, l, signature, nextPending⟩) kind).heap ↔
      r ∈ (queue kind).heap ∨ kind = keyKind k ∧ r = ⟨k, l, signature, nextPending⟩ := by
    intro kind r
    by_cases hk : kind = keyKind k
    · rw [hk, update_self, hmem]
      simp
    · rw [update_of_ne hk]
      simp [hk]
  refine ⟨⟨fun kind => ?_, fun kind r => ?_, fun kind r hr => ?_⟩, hlength⟩
  · by_cases hk : kind = keyKind k
    · rw [hk, update_self]
      exact hindexed
    · rw [update_of_ne hk]
      exact h.indexed kind
  · rw [hmem' kind r, h.mem kind r]
    by_cases hlane : r.lane = l
    · rw [hlane, update_self, OrderedMap.get_set]
      by_cases hsig : r.signature = signature
      · rw [if_pos hsig, hsig, hnew]
        constructor
        · rintro (⟨-, -, hnone⟩ | ⟨hk, hr⟩)
          · cases hnone
          · rw [hr]
            exact ⟨hl, hk.symm, rfl⟩
        · rintro ⟨hrl, hk, hp⟩
          have hkey : r.laneKey = k := hlanes _ _ _ hrl hl
          refine .inr ⟨by rw [← hk, hkey], ?_⟩
          cases r
          simp only at hkey hlane hsig hp
          rw [hkey, hlane, hsig, Option.some.inj hp]
      · rw [if_neg hsig]
        refine or_iff_left fun hr => hsig ?_
        rw [hr.2]
    · rw [update_of_ne hlane]
      refine or_iff_left fun hr => hlane ?_
      rw [hr.2]
  · rcases (hmem' kind r).mp hr with hr | ⟨-, hr⟩
    · exact Nat.lt_succ_of_lt (h.bound kind r hr)
    · rw [hr]
      exact Nat.lt_succ_self _

theorem QueueOk.remove (h : QueueOk lanes pendingOf queue nextPending)
    {r : PendingEventReference} (hr : r ∈ (queue kind).heap)
    (hlanes : ∀ k k' l, lanes.get k = some l → lanes.get k' = some l → k = k') :
    QueueOk lanes (Function.update pendingOf r.lane ((pendingOf r.lane).delete r.signature))
        (Function.update queue kind ((queue kind).remove PendingEventReference.pending weaker r.pending))
        nextPending ∧
      ((queue kind).remove PendingEventReference.pending weaker r.pending).heap.length + 1 =
        (queue kind).heap.length := by
  obtain ⟨hindexed, hlength, hmem⟩ := (h.indexed kind).remove weaker hr
  obtain ⟨hrl, hrk, hrp⟩ := (h.mem kind r).mp hr
  refine ⟨⟨fun kind' => ?_, fun kind' r' => ?_, fun kind' r' hr' => ?_⟩, hlength⟩
  · by_cases hk : kind' = kind
    · rw [hk, update_self]
      exact hindexed
    · rw [update_of_ne hk]
      exact h.indexed kind'
  · -- only the reference itself has its lane and signature
    have hself : ∀ kind', r' ∈ (queue kind').heap → r'.lane = r.lane → r'.signature = r.signature →
        r' = r := by
      intro kind' hr' hlane hsig
      obtain ⟨hl', -, hp'⟩ := (h.mem kind' r').mp hr'
      rw [hlane] at hl'
      rw [hlane, hsig, hrp] at hp'
      have hkey := hlanes _ _ _ hl' hrl
      have hpending := Option.some.inj hp'
      cases r'
      cases r
      simp only at hkey hlane hsig hpending
      rw [hkey, hlane, hsig, hpending]
    have hgone : r' ∈ (Function.update queue kind
        ((queue kind).remove PendingEventReference.pending weaker r.pending) kind').heap ↔
        r' ∈ (queue kind').heap ∧ r' ≠ r := by
      by_cases hk : kind' = kind
      · rw [hk, update_self]
        exact hmem r'
      rw [update_of_ne hk]
      refine ⟨fun hr' => ⟨hr', fun heq => hk ?_⟩, fun hr' => hr'.1⟩
      rw [heq] at hr'
      rw [← ((h.mem kind' r).mp hr').2.1, hrk]
    rw [hgone]
    by_cases hlane : r'.lane = r.lane
    · rw [hlane, update_self, OrderedMap.get_delete]
      by_cases hsig : r'.signature = r.signature
      · rw [if_pos hsig]
        exact ⟨fun hr' => absurd (hself kind' hr'.1 hlane hsig) hr'.2, fun hr' => by cases hr'.2.2⟩
      · rw [if_neg hsig, ← hlane, ← h.mem kind' r']
        exact and_iff_left fun heq => hsig (by rw [heq])
    · rw [update_of_ne hlane, ← h.mem kind' r']
      exact and_iff_left fun heq => hlane (by rw [heq])
  · by_cases hk : kind' = kind
    · rw [hk, update_self] at hr'
      exact h.bound kind r' ((hmem r').mp hr').1
    · rw [update_of_ne hk] at hr'
      exact h.bound kind' r' hr'

theorem QueueOk.clear (h : QueueOk lanes pendingOf queue nextPending) {l : Nat}
    (hlanes : ∀ k k' l, lanes.get k = some l → lanes.get k' = some l → k = k')
    (hl : lanes.get k = some l) :
    QueueOk lanes (Function.update pendingOf l .empty)
        (Function.update queue (keyKind k) ((pendingOf l).values.foldl
          (fun q p => q.remove PendingEventReference.pending weaker p) (queue (keyKind k)))) nextPending ∧
      ((pendingOf l).values.foldl (fun q p => q.remove PendingEventReference.pending weaker p)
        (queue (keyKind k))).heap.length + (pendingOf l).size = (queue (keyKind k)).heap.length := by
  have hreference : ∀ signature p, (pendingOf l).get signature = some p →
      (⟨k, l, signature, p⟩ : PendingEventReference) ∈ (queue (keyKind k)).heap :=
    fun signature p hp => (h.mem _ _).mpr ⟨hl, rfl, hp⟩
  have hnodup : (pendingOf l).values.Nodup := by
    refine List.Nodup.map_on (fun e he e' he' heq => ?_) (pendingOf l).table.rows_nodup
    have hsame := (h.indexed (keyKind k)).eq_of_key_eq (hreference e.1 e.2 (OrderedMap.mem_entries.mp he))
      (hreference e'.1 e'.2 (OrderedMap.mem_entries.mp he')) heq
    exact Prod.ext (congrArg PendingEventReference.signature hsame) heq
  have hthere : ∀ p ∈ (pendingOf l).values, ∃ r ∈ (queue (keyKind k)).heap, r.pending = p := by
    intro p hp
    obtain ⟨signature, hget⟩ := OrderedMap.mem_values.mp hp
    exact ⟨_, hreference signature p hget, rfl⟩
  obtain ⟨hindexed, hlength, hmem⟩ := (h.indexed (keyKind k)).removeAll weaker _ hnodup hthere
  refine ⟨⟨fun kind => ?_, fun kind r => ?_, fun kind r hr => ?_⟩, ?_⟩
  · by_cases hk : kind = keyKind k
    · rw [hk, update_self]
      exact hindexed
    · rw [update_of_ne hk]
      exact h.indexed kind
  · by_cases hlane : r.lane = l
    · rw [hlane, update_self, OrderedMap.get_empty]
      refine ⟨fun hr => ?_, fun hr => by cases hr.2.2⟩
      by_cases hk : kind = keyKind k
      · rw [hk, update_self, hmem] at hr
        have hpending := ((h.mem _ _).mp hr.1).2.2
        rw [hlane] at hpending
        exact absurd (OrderedMap.mem_values.mpr ⟨_, hpending⟩) hr.2
      · rw [update_of_ne hk, h.mem kind r, hlane] at hr
        exact absurd (hr.2.1.symm.trans (congrArg keyKind (hlanes _ _ _ hr.1 hl))) hk
    · rw [update_of_ne hlane, ← h.mem kind r]
      by_cases hk : kind = keyKind k
      · rw [hk, update_self, hmem]
        refine and_iff_left_of_imp fun hr hvalue => hlane ?_
        obtain ⟨signature, hget⟩ := OrderedMap.mem_values.mp hvalue
        exact congrArg PendingEventReference.lane
          ((h.indexed (keyKind k)).eq_of_key_eq hr (hreference _ _ hget) rfl)
      · rw [update_of_ne hk]
  · by_cases hk : kind = keyKind k
    · rw [hk, update_self] at hr
      exact h.bound _ r ((hmem r).mp hr).1
    · rw [update_of_ne hk] at hr
      exact h.bound kind r hr
  · rw [← hlength]
    exact congrArg _ (List.length_map ..).symm

end

end

end Artgod.Trading
