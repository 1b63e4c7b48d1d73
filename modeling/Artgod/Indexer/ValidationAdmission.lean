/-
# Admission of order validations

`FairOrderValidationAdmission` lets at most `limit` validations run at once, of which at most one is a gap
repair's.  When a run ends its slot is handed on: a waiting gap repair is preferred while another run leaves
room for the chain's head, otherwise the first waiter of the main class goes in.
-/
import Mathlib.Data.List.Nodup
import Mathlib.Data.List.Perm.Basic
import Mathlib.Tactic.Common
import Artgod.Indexer.MakerRuns
import Artgod.Machine.Runs
import Mathlib.Algebra.Group.Int.Defs

namespace Artgod.Indexer

open scoped List

/-! ## 1. The admission -/

/-- A waiter is the call with its number in the order of arrival. -/
structure AdmissionWaiter where
  id : Nat
  workClass : SyncWorkClass
  deriving DecidableEq

structure FairOrderValidationAdmission where
  limit : Nat
  active : Nat
  gapActive : Nat
  waiting : List AdmissionWaiter

namespace FairOrderValidationAdmission

def maxSafeInteger : Int := 2 ^ 53 - 1

/-- The constructor. -/
def new (limit : Int) : Except String FairOrderValidationAdmission :=
  if ¬ (-maxSafeInteger ≤ limit ∧ limit ≤ maxSafeInteger) ∨ limit < 1 then
    .error "Validation admission requires a positive capacity"
  else
    .ok ⟨limit.toNat, 0, 0, []⟩

theorem eq_of_new {limit : Int} {admission : FairOrderValidationAdmission}
    (h : new limit = .ok admission) : 0 < limit ∧ admission = ⟨limit.toNat, 0, 0, []⟩ := by
  unfold new at h
  split at h
  · cases h
  next hvalid =>
  cases h
  have hpos : ¬ limit < 1 := (not_or.mp hvalid).2
  exact ⟨by omega, rfl⟩

section

variable (admission : FairOrderValidationAdmission)

/-- The condition under which `run` waits. -/
def mustWait (workClass : SyncWorkClass) : Bool :=
  admission.active ≥ admission.limit || (workClass == .gapRepair && admission.gapActive > 0)

/-- The counters when a call of the class goes in. -/
def enter (workClass : SyncWorkClass) :
    FairOrderValidationAdmission :=
  { admission with
    active := admission.active + 1
    gapActive := if workClass = .gapRepair then admission.gapActive + 1 else admission.gapActive }

/-- The counters when a run of the class ends. -/
def leave (workClass : SyncWorkClass) :
    FairOrderValidationAdmission :=
  { admission with
    active := admission.active - 1
    gapActive := if workClass = .gapRepair then admission.gapActive - 1 else admission.gapActive }

def mainWaiter : Option AdmissionWaiter :=
  admission.waiting.find? (·.workClass == .main)

def gapWaiter : Option AdmissionWaiter :=
  if admission.gapActive = 0 then admission.waiting.find? (·.workClass == .gapRepair) else none

/-- The waiter the loop hands the free slot to.  A single background validator leaves capacity for
main. -/
def nextWaiter : Option AdmissionWaiter :=
  if admission.gapWaiter.isSome ∧ admission.active > 0 then admission.gapWaiter
  else if admission.mainWaiter.isSome then admission.mainWaiter
  else admission.gapWaiter

end

end FairOrderValidationAdmission

/-! ## 2. The waiter a slot goes to -/

namespace FairOrderValidationAdmission

variable {admission : FairOrderValidationAdmission}

variable {next : AdmissionWaiter} {workClass : SyncWorkClass}

theorem nextWaiter_eq_some (h : admission.nextWaiter = some next) :
    ∃ before after, admission.waiting = before ++ next :: after ∧
      (∀ x ∈ before, x.workClass ≠ next.workClass) ∧
      (next.workClass = .gapRepair → admission.gapActive = 0) := by
  have hfirst : ∀ {c : SyncWorkClass}, admission.waiting.find? (·.workClass == c) = some next →
      next.workClass = c ∧ ∃ before after, admission.waiting = before ++ next :: after ∧
        ∀ x ∈ before, x.workClass ≠ c := by
    intro c hfind
    obtain ⟨hclass, before, after, hsplit, hbefore⟩ := List.find?_eq_some_iff_append.mp hfind
    refine ⟨beq_iff_eq.mp hclass, before, after, hsplit, fun x hx heq => ?_⟩
    have hnot := hbefore x hx
    simp [heq] at hnot
  have hmain : admission.mainWaiter = some next → ∃ before after,
      admission.waiting = before ++ next :: after ∧ (∀ x ∈ before, x.workClass ≠ next.workClass) ∧
      (next.workClass = .gapRepair → admission.gapActive = 0) := by
    intro hfind
    obtain ⟨hclass, before, after, hsplit, hbefore⟩ := hfirst hfind
    exact ⟨before, after, hsplit, hclass ▸ hbefore, fun hgap => nomatch hclass.symm.trans hgap⟩
  have hgap : admission.gapWaiter = some next → ∃ before after,
      admission.waiting = before ++ next :: after ∧ (∀ x ∈ before, x.workClass ≠ next.workClass) ∧
      (next.workClass = .gapRepair → admission.gapActive = 0) := by
    intro hfind
    unfold gapWaiter at hfind
    split at hfind
    · next hnone =>
      obtain ⟨hclass, before, after, hsplit, hbefore⟩ := hfirst hfind
      exact ⟨before, after, hsplit, hclass ▸ hbefore, fun _ => hnone⟩
    · cases hfind
  unfold nextWaiter at h
  split at h
  · exact hgap h
  · split at h
    · exact hmain h
    · exact hgap h

theorem mem_waiting_of_nextWaiter
    (h : admission.nextWaiter = some next) : next ∈ admission.waiting := by
  obtain ⟨before, after, hsplit, -, -⟩ := nextWaiter_eq_some h
  exact hsplit ▸ List.mem_append_right _ List.mem_cons_self

/-- A free slot finds nobody waiting that it could go to. -/
def HandedOver (admission : FairOrderValidationAdmission) : Prop :=
  admission.active < admission.limit →
    (∀ x ∈ admission.waiting, x.workClass ≠ .main) ∧
      (admission.gapActive = 0 → ∀ x ∈ admission.waiting, x.workClass ≠ .gapRepair)

theorem handedOver_of_nextWaiter (h : admission.nextWaiter = none) : admission.HandedOver := by
  intro _
  have hnone : admission.mainWaiter = none ∧ admission.gapWaiter = none := by
    unfold nextWaiter at h
    split at h
    · next hsome => rw [h] at hsome; exact absurd hsome.1 Bool.false_ne_true
    · split at h
      · next hsome => rw [h] at hsome; exact absurd hsome Bool.false_ne_true
      · next hmain => exact ⟨Option.not_isSome_iff_eq_none.mp hmain, h⟩
  constructor
  · intro x hx hclass
    exact List.find?_eq_none.mp hnone.1 x hx (beq_iff_eq.mpr hclass)
  · intro hzero x hx hclass
    have hfind := hnone.2
    rw [gapWaiter, if_pos hzero] at hfind
    exact List.find?_eq_none.mp hfind x hx (beq_iff_eq.mpr hclass)

theorem not_mustWait (h : admission.mustWait workClass = false) :
    admission.active < admission.limit ∧ (workClass = .gapRepair → admission.gapActive = 0) := by
  rw [mustWait, Bool.or_eq_false_iff, decide_eq_false_iff_not, Bool.and_eq_false_iff] at h
  refine ⟨Nat.lt_of_not_le h.1, fun hclass => ?_⟩
  rcases h.2 with hother | hzero
  · rw [hclass] at hother
    cases hother
  · rw [decide_eq_false_iff_not] at hzero
    omega

theorem of_mustWait
    (h : admission.mustWait workClass = true) (hroom : admission.active < admission.limit) :
    workClass = .gapRepair ∧ 0 < admission.gapActive := by
  rw [mustWait, Bool.or_eq_true, decide_eq_true_iff, Bool.and_eq_true, beq_iff_eq,
    decide_eq_true_iff] at h
  rcases h with hfull | hgap
  · exact absurd hfull (Nat.not_le_of_lt hroom)
  · exact hgap

end FairOrderValidationAdmission

/-! ## 3. The calls and their runs -/

/-- A run that was let in and has not ended.  A waiter that was granted starts its work only when its
continuation comes up. -/
structure AdmittedRun where
  waiter : AdmissionWaiter
  aborted : Bool
  working : Bool
  deriving DecidableEq

/-- The admission, the runs it has let in and the number of calls so far.  `admitted` lists every call that
was ever let in, in that order, and `withdrawn` every waiter that was aborted. -/
structure AdmissionWorld where
  admission : FairOrderValidationAdmission
  runs : List AdmittedRun
  calls : Nat
  admitted : List AdmissionWaiter
  withdrawn : List AdmissionWaiter

inductive AdmissionEvent where
  /-- `run` is called, with a signal that may be aborted already. -/
  | call (aborted : Bool) (workClass : SyncWorkClass)
  /-- The signal of a call is aborted. -/
  | abort (id : Nat)
  /-- The continuation of a granted waiter comes up. -/
  | resume (id : Nat)
  /-- The work of a run completes or fails. -/
  | settle (id : Nat)

namespace AdmissionWorld

open FairOrderValidationAdmission

def start (admission : FairOrderValidationAdmission) : AdmissionWorld := ⟨admission, [], 0, [], []⟩

/-- The call up to its first suspension. -/
def call (w : AdmissionWorld) (aborted : Bool) (workClass : SyncWorkClass) : AdmissionWorld :=
  let waiter : AdmissionWaiter := ⟨w.calls, workClass⟩
  if aborted then w
  else if w.admission.mustWait workClass then
    { w with
      admission := { w.admission with waiting := w.admission.waiting ++ [waiter] }
      calls := w.calls + 1 }
  else
    { w with
      admission := w.admission.enter workClass
      runs := w.runs ++ [⟨waiter, false, true⟩]
      calls := w.calls + 1
      admitted := w.admitted ++ [waiter] }

section

variable (w : AdmissionWorld)

/-- The abort handler of a waiter, which finds nothing to do once the waiter was granted.  The signal stays
aborted for the run. -/
def abort (id : Nat) : AdmissionWorld :=
  match w.admission.waiting.find? (·.id == id) with
  | some waiter =>
    { w with
      admission := { w.admission with waiting := w.admission.waiting.erase waiter }
      withdrawn := w.withdrawn ++ [waiter] }
  | none =>
    { w with runs := w.runs.map fun r => if r.waiter.id = id then { r with aborted := true } else r }

/-- One pass of the hand-over loop: the waiter leaves the list and is granted. -/
def grant (next : AdmissionWaiter) : AdmissionWorld :=
  { w with
    admission := { w.admission.enter next.workClass with
      waiting := w.admission.waiting.erase next }
    runs := w.runs ++ [⟨next, false, false⟩]
    admitted := w.admitted ++ [next] }

/-- The loop at the end of a run. -/
def handOver (w : AdmissionWorld) : AdmissionWorld :=
  if w.admission.active < w.admission.limit then
    match _h : w.admission.nextWaiter with
    | some next => handOver (w.grant next)
    | none => w
  else w
termination_by w.admission.waiting.length
decreasing_by
  have hmem : next ∈ w.admission.waiting := mem_waiting_of_nextWaiter _h
  have hpos := List.length_pos_of_mem hmem
  have herase := List.length_erase_of_mem hmem
  unfold grant
  dsimp only
  omega

/-- The `finally` block of a run. -/
def finish (r : AdmittedRun) : AdmissionWorld :=
  handOver { w with
    admission := w.admission.leave r.waiter.workClass
    runs := w.runs.erase r }

/-- A granted waiter whose signal was aborted in the meantime ends without starting its work. -/
def resume (id : Nat) : AdmissionWorld :=
  match w.runs.find? fun r => r.waiter.id == id && !r.working with
  | none => w
  | some r =>
    if r.aborted then w.finish r
    else { w with runs := w.runs.map fun r =>
      if r.waiter.id = id then { r with working := true } else r }

def settle (id : Nat) : AdmissionWorld :=
  match w.runs.find? fun r => r.waiter.id == id && r.working with
  | none => w
  | some r => w.finish r

def step : AdmissionEvent → AdmissionWorld
  | .call aborted workClass => w.call aborted workClass
  | .abort id => w.abort id
  | .resume id => w.resume id
  | .settle id => w.settle id

end

end AdmissionWorld

/-! ## 4. What every interleaving keeps -/

/-- The runs of automatic gap repairs. -/
def AdmittedRun.isGapRepair (r : AdmittedRun) : Bool := r.waiter.workClass == .gapRepair

/-- What holds between any two passes of the hand-over loop.  Every call is let in, waiting or withdrawn,
once each, and within a class the calls let in and the calls waiting stand in the order of arrival. -/
structure AdmissionInv (limit : Nat) (w : AdmissionWorld) : Prop where
  capacity : w.admission.limit = limit
  counted : w.admission.active = w.runs.length
  bounded : w.admission.active ≤ limit
  gapCounted : w.admission.gapActive = w.runs.countP AdmittedRun.isGapRepair
  gapBounded : w.admission.gapActive ≤ 1
  unfinished : (w.runs.map (·.waiter)).Sublist w.admitted
  calls : ((w.admitted ++ w.admission.waiting ++ w.withdrawn).map (·.id)).Perm (List.range w.calls)
  ordered : ∀ workClass,
    ((w.admitted ++ w.admission.waiting).filter (·.workClass = workClass)).Pairwise (·.id < ·.id)

namespace AdmissionInv

open FairOrderValidationAdmission AdmissionWorld

variable {limit : Nat} {w : AdmissionWorld}

theorem start {admission : FairOrderValidationAdmission} {limit : Int}
    (h : FairOrderValidationAdmission.new limit = .ok admission) :
    AdmissionInv limit.toNat (.start admission) := by
  obtain ⟨-, rfl⟩ := eq_of_new h
  exact ⟨rfl, rfl, Nat.zero_le _, rfl, Nat.zero_le _, .refl _, .refl _, fun workClass => .nil⟩

theorem ids_nodup (h : AdmissionInv limit w) :
    ((w.admitted ++ w.admission.waiting ++ w.withdrawn).map (·.id)).Nodup :=
  h.calls.nodup_iff.mpr List.nodup_range

variable {x : AdmissionWaiter} {workClass : SyncWorkClass}

theorem id_lt (h : AdmissionInv limit w)
    (hx : x ∈ w.admitted ++ w.admission.waiting) : x.id < w.calls :=
  List.mem_range.mp (h.calls.mem_iff.mp
    (List.mem_map.mpr ⟨x, List.mem_append_left _ hx, rfl⟩))

variable {next : AdmissionWaiter} {r : AdmittedRun}

theorem filter_moved {admitted before after : List AdmissionWaiter}
    (hbefore : ∀ x ∈ before, x.workClass ≠ next.workClass) (workClass : SyncWorkClass) :
    ((admitted ++ [next]) ++ (before ++ after)).filter (·.workClass = workClass) =
      (admitted ++ (before ++ next :: after)).filter (·.workClass = workClass) := by
  have hmove : ([next] ++ before).filter (·.workClass = workClass) =
      (before ++ [next]).filter (·.workClass = workClass) := by
    by_cases hclass : next.workClass = workClass
    · have hnone : before.filter (·.workClass = workClass) = [] :=
        List.filter_eq_nil_iff.mpr fun x hx => by
          simpa [hclass] using hbefore x hx
      rw [List.filter_append, List.filter_append, hnone, List.append_nil, List.nil_append]
    · rw [List.filter_append, List.filter_append, List.filter_singleton]
      simp [hclass]
  calc ((admitted ++ [next]) ++ (before ++ after)).filter (·.workClass = workClass)
      = admitted.filter (·.workClass = workClass) ++
          (([next] ++ before).filter (·.workClass = workClass) ++
            after.filter (·.workClass = workClass)) := by
        simp only [List.filter_append, List.append_assoc]
    _ = admitted.filter (·.workClass = workClass) ++
          ((before ++ [next]).filter (·.workClass = workClass) ++
            after.filter (·.workClass = workClass)) := by rw [hmove]
    _ = (admitted ++ (before ++ next :: after)).filter (·.workClass = workClass) := by
        rw [← List.singleton_append (l := after)]
        simp only [List.filter_append, List.append_assoc]

/-- **Letting a call in** takes a free slot, and the only gap repair's slot for a gap repair. -/
theorem letIn (h : AdmissionInv limit w) {rest : List AdmissionWaiter}
    {calls : Nat} {working : Bool} (hroom : w.admission.active < w.admission.limit)
    (hgap : x.workClass = .gapRepair → w.admission.gapActive = 0)
    (hcalls : (((w.admitted ++ [x]) ++ rest ++ w.withdrawn).map (·.id)).Perm (List.range calls))
    (hordered : ∀ workClass,
      (((w.admitted ++ [x]) ++ rest).filter (·.workClass = workClass)).Pairwise (·.id < ·.id)) :
    AdmissionInv limit
      { admission := { w.admission.enter x.workClass with waiting := rest }
        runs := w.runs ++ [⟨x, false, working⟩]
        calls := calls
        admitted := w.admitted ++ [x]
        withdrawn := w.withdrawn } := by
  refine ⟨h.capacity, ?_, ?_, ?_, ?_, ?_, hcalls, hordered⟩
  · simp [enter, h.counted]
  · have := h.capacity
    simp only [enter]
    omega
  · by_cases hclass : x.workClass = .gapRepair
    · simp [enter, hclass, AdmittedRun.isGapRepair, h.gapCounted]
    · simp [enter, hclass, AdmittedRun.isGapRepair, h.gapCounted]
  · by_cases hclass : x.workClass = .gapRepair
    · simp [enter, hclass, hgap hclass]
    · simpa [enter, hclass] using h.gapBounded
  · rw [List.map_append]
    exact h.unfinished.append (.refl _)

theorem grant (h : AdmissionInv limit w)
    (hnext : w.admission.nextWaiter = some next)
    (hroom : w.admission.active < w.admission.limit) : AdmissionInv limit (w.grant next) := by
  obtain ⟨before, after, hsplit, hbefore, hgap⟩ := nextWaiter_eq_some hnext
  have hrest : w.admission.waiting.erase next = before ++ after := by
    have hnot : next ∉ before := fun hmem => hbefore next hmem rfl
    rw [hsplit, List.erase_append_right _ hnot, List.erase_cons_head]
  have hmoved : ((w.admitted ++ [next]) ++ (before ++ after) ++ w.withdrawn).Perm
      (w.admitted ++ w.admission.waiting ++ w.withdrawn) := by
    rw [hsplit, List.append_assoc w.admitted, List.singleton_append]
    exact (List.Perm.append_left _ List.perm_middle.symm).append_right _
  unfold AdmissionWorld.grant
  rw [hrest]
  refine h.letIn hroom hgap ((hmoved.map _).trans h.calls) fun workClass => ?_
  rw [filter_moved hbefore, ← hsplit]
  exact h.ordered workClass

theorem handOver (h : AdmissionInv limit w) :
    AdmissionInv limit w.handOver ∧ w.handOver.admission.HandedOver := by
  induction w using AdmissionWorld.handOver.induct with
  | case1 w hroom next hnext ih =>
    rw [AdmissionWorld.handOver, if_pos hroom]
    split
    · next x hx =>
      cases hnext.symm.trans hx
      exact ih (h.grant hnext hroom)
    · next hnone => cases hnext.symm.trans hnone
  | case2 w hroom hnone =>
    rw [AdmissionWorld.handOver, if_pos hroom]
    split
    · next x hx => cases hnone.symm.trans hx
    · exact ⟨h, handedOver_of_nextWaiter hnone⟩
  | case3 w hfull =>
    rw [AdmissionWorld.handOver, if_neg hfull]
    exact ⟨h, fun hroom => absurd hroom hfull⟩

theorem leave (h : AdmissionInv limit w) (hr : r ∈ w.runs) :
    AdmissionInv limit { w with
      admission := w.admission.leave r.waiter.workClass
      runs := w.runs.erase r } := by
  have hperm : w.runs.Perm (r :: w.runs.erase r) := List.perm_cons_erase hr
  have hlength : w.runs.length = (w.runs.erase r).length + 1 := hperm.length_eq
  have hcount := hperm.countP_eq AdmittedRun.isGapRepair
  rw [List.countP_cons] at hcount
  refine ⟨h.capacity, ?_, ?_, ?_, ?_, ?_, h.calls, h.ordered⟩
  · simp only [FairOrderValidationAdmission.leave, h.counted]
    omega
  · have := h.bounded
    simp only [FairOrderValidationAdmission.leave]
    omega
  · have := h.gapCounted
    by_cases hclass : r.waiter.workClass = .gapRepair
    · have hgap : r.isGapRepair = true := beq_iff_eq.mpr hclass
      rw [if_pos hgap] at hcount
      simp only [FairOrderValidationAdmission.leave, if_pos hclass]
      omega
    · have hother : ¬ r.isGapRepair = true := fun hgap => hclass (beq_iff_eq.mp hgap)
      rw [if_neg hother] at hcount
      simp only [FairOrderValidationAdmission.leave, if_neg hclass]
      omega
  · have := h.gapBounded
    simp only [FairOrderValidationAdmission.leave]
    split <;> omega
  · exact ((List.erase_sublist ..).map _).trans h.unfinished

theorem rephase (h : AdmissionInv limit w) {f : AdmittedRun → AdmittedRun}
    (hf : ∀ r, (f r).waiter = r.waiter) : AdmissionInv limit { w with runs := w.runs.map f } := by
  have hcount : (w.runs.map f).countP AdmittedRun.isGapRepair =
      w.runs.countP AdmittedRun.isGapRepair := by
    rw [List.countP_map]
    exact List.countP_congr fun r _ => by simp [AdmittedRun.isGapRepair, hf]
  have hwaiters : (w.runs.map f).map (·.waiter) = w.runs.map (·.waiter) := by
    rw [List.map_map]
    exact List.map_congr_left fun r _ => hf r
  refine ⟨h.capacity, ?_, h.bounded, ?_, h.gapBounded, ?_, h.calls, h.ordered⟩
  · rw [h.counted, List.length_map]
  · rw [h.gapCounted, hcount]
  · rw [hwaiters]
    exact h.unfinished

theorem arrives (h : AdmissionInv limit w) {l : List AdmissionWaiter}
    (hl : ∀ x ∈ l, x ∈ w.admitted ++ w.admission.waiting)
    (hordered : (l.filter (·.workClass = workClass)).Pairwise (·.id < ·.id))
    (hx : x.id = w.calls) :
    ((l ++ [x]).filter (·.workClass = workClass)).Pairwise (·.id < ·.id) := by
  rw [List.filter_append, List.pairwise_append]
  refine ⟨hordered, (List.pairwise_singleton _ x).sublist List.filter_sublist, ?_⟩
  intro a ha b hb
  rw [List.mem_singleton.mp (List.mem_filter.mp hb).1, hx]
  exact h.id_lt (hl a (List.mem_filter.mp ha).1)

theorem calls_succ (h : AdmissionInv limit w) :
    (w.calls :: (w.admitted ++ w.admission.waiting ++ w.withdrawn).map (·.id)).Perm
      (List.range (w.calls + 1)) := by
  rw [List.range_succ]
  exact (h.calls.cons _).trans (List.perm_append_singleton _ _).symm

theorem wait (h : AdmissionInv limit w) :
    AdmissionInv limit { w with
      admission := { w.admission with waiting := w.admission.waiting ++ [⟨w.calls, workClass⟩] }
      calls := w.calls + 1 } := by
  refine ⟨h.capacity, h.counted, h.bounded, h.gapCounted, h.gapBounded, h.unfinished, ?_,
    fun c => ?_⟩
  · refine .trans ?_ h.calls_succ
    simp only [List.map_append, List.map_cons, List.append_assoc, List.singleton_append]
    exact (List.Perm.append_left _ List.perm_middle).trans List.perm_middle
  · dsimp only
    rw [← List.append_assoc]
    exact h.arrives (fun x hx => hx) (h.ordered c) rfl

theorem goIn (h : AdmissionInv limit w)
    (hroom : w.admission.active < w.admission.limit)
    (hgap : workClass = .gapRepair → w.admission.gapActive = 0)
    (hnone : ∀ x ∈ w.admission.waiting, x.workClass ≠ workClass) :
    AdmissionInv limit { w with
      admission := w.admission.enter workClass
      runs := w.runs ++ [⟨⟨w.calls, workClass⟩, false, true⟩]
      calls := w.calls + 1
      admitted := w.admitted ++ [⟨w.calls, workClass⟩] } := by
  refine h.letIn (x := ⟨w.calls, workClass⟩) hroom hgap ?_ fun c => ?_
  · refine .trans ?_ h.calls_succ
    simp only [List.map_append, List.map_cons, List.append_assoc, List.singleton_append]
    exact List.perm_middle
  · by_cases hclass : workClass = c
    · subst hclass
      have hwaiting : w.admission.waiting.filter (·.workClass = workClass) = [] :=
        List.filter_eq_nil_iff.mpr fun x hx hsame => hnone x hx (of_decide_eq_true hsame)
      have hadmitted : (w.admitted.filter (·.workClass = workClass)).Pairwise (·.id < ·.id) :=
        (h.ordered workClass).sublist ((List.sublist_append_left ..).filter _)
      rw [List.filter_append, hwaiting, List.append_nil]
      exact h.arrives (fun x hx => List.mem_append_left _ hx) hadmitted rfl
    · have hskip : [(⟨w.calls, workClass⟩ : AdmissionWaiter)].filter (·.workClass = c) = [] := by
        simp [hclass]
      rw [List.filter_append, List.filter_append, hskip, List.append_nil, ← List.filter_append]
      exact h.ordered c

theorem call (h : AdmissionInv limit w) (hfree : w.admission.HandedOver) {aborted : Bool}
    :
    AdmissionInv limit (w.call aborted workClass) ∧
      (w.call aborted workClass).admission.HandedOver := by
  unfold AdmissionWorld.call
  split
  · exact ⟨h, hfree⟩
  split
  · next hwait =>
    refine ⟨h.wait, fun hroom => ?_⟩
    obtain ⟨hgap, hbusy⟩ := of_mustWait hwait hroom
    obtain ⟨hmain, -⟩ := hfree hroom
    refine ⟨fun x hx => ?_, fun hzero => absurd hzero (Nat.ne_of_gt hbusy)⟩
    rcases List.mem_append.mp hx with hx | hx
    · exact hmain x hx
    · rw [List.mem_singleton.mp hx, hgap]
      exact SyncWorkClass.noConfusion
  · next hwait =>
    obtain ⟨hroom, hgap⟩ := not_mustWait (Bool.eq_false_iff.mpr hwait)
    obtain ⟨hmain, hother⟩ := hfree hroom
    refine ⟨h.goIn hroom hgap ?_, fun _ => ⟨hmain, fun hzero => hother ?_⟩⟩
    · cases workClass with
      | main => exact hmain
      | gapRepair => exact hother (hgap rfl)
    · simp only [enter] at hzero
      split at hzero <;> omega

theorem abort (h : AdmissionInv limit w) (hfree : w.admission.HandedOver) {id : Nat} :
    AdmissionInv limit (w.abort id) ∧ (w.abort id).admission.HandedOver := by
  unfold AdmissionWorld.abort
  split
  · next x hfind =>
    have hmem : x ∈ w.admission.waiting := List.mem_of_find?_eq_some hfind
    refine ⟨⟨h.capacity, h.counted, h.bounded, h.gapCounted, h.gapBounded, h.unfinished, ?_,
      fun c => ?_⟩, fun hroom => ?_⟩
    · refine .trans (List.Perm.map _ ?_) h.calls
      dsimp only
      rw [List.append_assoc, List.append_assoc]
      refine List.Perm.append_left _ ?_
      calc w.admission.waiting.erase x ++ (w.withdrawn ++ [x])
          = (w.admission.waiting.erase x ++ w.withdrawn) ++ [x] := (List.append_assoc ..).symm
        _ ~ x :: (w.admission.waiting.erase x ++ w.withdrawn) := List.perm_append_singleton _ _
        _ = x :: w.admission.waiting.erase x ++ w.withdrawn := rfl
        _ ~ w.admission.waiting ++ w.withdrawn := (List.perm_cons_erase hmem).symm.append_right _
    · exact (h.ordered c).sublist (((List.Sublist.refl _).append (List.erase_sublist ..)).filter _)
    · obtain ⟨hmain, hother⟩ := hfree hroom
      exact ⟨fun y hy => hmain y (List.mem_of_mem_erase hy),
        fun hzero y hy => hother hzero y (List.mem_of_mem_erase hy)⟩
  · refine ⟨h.rephase fun r => ?_, hfree⟩
    split <;> rfl

theorem finish (h : AdmissionInv limit w) (hr : r ∈ w.runs) :
    AdmissionInv limit (w.finish r) ∧ (w.finish r).admission.HandedOver :=
  (h.leave hr).handOver

/-- **Every event keeps the invariant and leaves no free slot that somebody waits for.** -/
theorem step (h : AdmissionInv limit w) (hfree : w.admission.HandedOver) (event : AdmissionEvent) :
    AdmissionInv limit (w.step event) ∧ (w.step event).admission.HandedOver := by
  cases event with
  | call aborted workClass => exact h.call hfree
  | abort id => exact h.abort hfree
  | resume id =>
    simp only [AdmissionWorld.step, AdmissionWorld.resume]
    split
    · exact ⟨h, hfree⟩
    next r hfind =>
    split
    · exact h.finish (List.mem_of_find?_eq_some hfind)
    · refine ⟨h.rephase fun r => ?_, hfree⟩
      split <;> rfl
  | settle id =>
    simp only [AdmissionWorld.step, AdmissionWorld.settle]
    split
    · exact ⟨h, hfree⟩
    · next r hfind => exact h.finish (List.mem_of_find?_eq_some hfind)

theorem run {admission : FairOrderValidationAdmission} {limit : Int}
    (h : FairOrderValidationAdmission.new limit = .ok admission) (events : List AdmissionEvent) :
    let w := Machine.run AdmissionWorld.step (.start admission) events
    AdmissionInv limit.toNat w ∧ w.admission.HandedOver := by
  have hstart : (AdmissionWorld.start admission).admission.HandedOver := by
    obtain ⟨-, rfl⟩ := eq_of_new h
    exact fun _ => ⟨List.forall_mem_nil _, fun _ => List.forall_mem_nil _⟩
  exact @Machine.run_invariant _ _ AdmissionWorld.step
    (fun w => AdmissionInv limit.toNat w ∧ w.admission.HandedOver)
    (fun _ event hw => hw.1.step hw.2 event) _ ⟨.start h, hstart⟩ events

/-! ## 5. The aborted waiters -/

theorem find_waiting (h : AdmissionInv limit w)
    (hx : x ∈ w.admission.waiting) : w.admission.waiting.find? (·.id == x.id) = some x := by
  have hids := h.ids_nodup
  rw [List.append_assoc, List.map_append, List.map_append] at hids
  have hwaiting := (List.nodup_append.mp (List.nodup_append.mp hids).2.1).1
  have hsome : (w.admission.waiting.find? (·.id == x.id)).isSome :=
    List.find?_isSome.mpr ⟨x, hx, beq_self_eq_true _⟩
  obtain ⟨y, hfind⟩ := Option.isSome_iff_exists.mp hsome
  have hsame : y.id = x.id := beq_iff_eq.mp (List.find?_some hfind :)
  rw [hfind, List.inj_on_of_nodup_map hwaiting (List.mem_of_find?_eq_some hfind) hx hsame]

theorem withdrawn_out (h : AdmissionInv limit w) (hx : x ∈ w.withdrawn) :
    x ∉ w.admission.waiting ∧ x ∉ w.admitted ∧ ∀ r ∈ w.runs, r.waiter ≠ x := by
  have hids := h.ids_nodup
  rw [List.map_append] at hids
  have hapart : ∀ y ∈ w.admitted ++ w.admission.waiting, y ≠ x := by
    intro y hy heq
    exact (List.nodup_append.mp hids).2.2 _ (List.mem_map_of_mem hy) _ (List.mem_map_of_mem hx)
      (congrArg _ heq)
  refine ⟨fun hmem => hapart x (List.mem_append_right _ hmem) rfl,
    fun hmem => hapart x (List.mem_append_left _ hmem) rfl, fun r hr heq => ?_⟩
  exact hapart _ (List.mem_append_left _ (h.unfinished.subset (List.mem_map_of_mem hr))) heq

end AdmissionInv

namespace AdmissionWorld

theorem handOver_withdrawn (w : AdmissionWorld) : w.handOver.withdrawn = w.withdrawn := by
  induction w using handOver.induct with
  | case1 w hroom next hnext ih =>
    rw [handOver, if_pos hroom]
    split
    · next x hx =>
      cases hnext.symm.trans hx
      exact ih
    · rfl
  | case2 w hroom hnone =>
    rw [handOver, if_pos hroom]
    split
    · next x hx => cases hnone.symm.trans hx
    · rfl
  | case3 w hfull => rw [handOver, if_neg hfull]

theorem withdrawn_step {w : AdmissionWorld} {x : AdmissionWaiter} (hx : x ∈ w.withdrawn)
    (event : AdmissionEvent) : x ∈ (w.step event).withdrawn := by
  have hfinish : ∀ r, x ∈ (w.finish r).withdrawn := fun r => by
    rw [finish, handOver_withdrawn]
    exact hx
  cases event with
  | call aborted workClass =>
    simp only [step, call]
    split
    · exact hx
    · split <;> exact hx
  | abort id =>
    simp only [step, abort]
    split
    · exact List.mem_append_left _ hx
    · exact hx
  | resume id =>
    simp only [step, resume]
    split
    · exact hx
    · split
      · exact hfinish _
      · exact hx
  | settle id =>
    simp only [step, settle]
    split
    · exact hx
    · exact hfinish _

end AdmissionWorld

/-! ## 6. Every interleaving -/

/-- **Validation admission.**  Under every interleaving of calls, aborts and endings the counters are the
numbers of unfinished runs, neither exceeds its bound, no free slot is left that somebody waits for, an
aborted waiter leaves the list and is never let in, and within a class the calls are let in as they came:
those let in, in that order, and then those still waiting have rising arrival numbers. -/
theorem validation_admission_exact {limit : Int} {admission : FairOrderValidationAdmission}
    (h : FairOrderValidationAdmission.new limit = .ok admission) (events : List AdmissionEvent) :
    let w := Machine.run AdmissionWorld.step (.start admission) events
    w.admission.active = w.runs.length ∧
    w.admission.active ≤ limit ∧
    w.admission.gapActive = w.runs.countP AdmittedRun.isGapRepair ∧
    w.admission.gapActive ≤ 1 ∧
    (w.admission.active < limit →
      (∀ x ∈ w.admission.waiting, x.workClass ≠ .main) ∧
      (w.admission.gapActive = 0 → ∀ x ∈ w.admission.waiting, x.workClass ≠ .gapRepair)) ∧
    (∀ x ∈ w.admission.waiting, ∀ later,
      let after := Machine.run AdmissionWorld.step (w.step (.abort x.id)) later
      x ∉ after.admission.waiting ∧ x ∉ after.admitted ∧ ∀ r ∈ after.runs, r.waiter ≠ x) ∧
    ∀ workClass,
      ((w.admitted ++ w.admission.waiting).filter (·.workClass = workClass)).Pairwise
        (·.id < ·.id) := by
  intro w
  obtain ⟨hinv, hfree⟩ : AdmissionInv limit.toNat w ∧ w.admission.HandedOver :=
    AdmissionInv.run h events
  have hbounded := hinv.bounded
  have hcapacity := hinv.capacity
  have hpos := (FairOrderValidationAdmission.eq_of_new h).1
  refine ⟨hinv.counted, by omega, hinv.gapCounted, hinv.gapBounded,
    fun hroom => hfree (by omega), fun x hx later => ?_, hinv.ordered⟩
  have hwithdrawn : x ∈ (w.step (.abort x.id)).withdrawn := by
    simp only [AdmissionWorld.step, AdmissionWorld.abort, hinv.find_waiting hx]
    exact List.mem_append_right _ List.mem_cons_self
  -- the rest of the run keeps the invariant and what was withdrawn
  have hafter := @Machine.run_invariant _ _ AdmissionWorld.step
    (fun w => (AdmissionInv limit.toNat w ∧ w.admission.HandedOver) ∧ x ∈ w.withdrawn)
    (fun _ event hw => ⟨hw.1.1.step hw.1.2 event, AdmissionWorld.withdrawn_step hw.2 event⟩)
    _ ⟨hinv.step hfree (.abort x.id), hwithdrawn⟩ later
  exact hafter.1.1.withdrawn_out hafter.2

theorem validation_admission_exact_two :
    let w := Machine.run AdmissionWorld.step (.start ⟨2, 0, 0, []⟩)
      [.call false .main, .call false .gapRepair, .call false .main, .call false .main, .abort 2,
        .settle 1]
    w.admission.active = w.runs.length ∧
      ∀ workClass,
        ((w.admitted ++ w.admission.waiting).filter (·.workClass = workClass)).Pairwise
          (·.id < ·.id) :=
  ⟨(@validation_admission_exact 2 _ rfl _).1, (@validation_admission_exact 2 _ rfl _).2.2.2.2.2.2⟩

end Artgod.Indexer
