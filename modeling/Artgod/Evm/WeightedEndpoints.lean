/-
# Weighted endpoint rotation

`WeightedEndpointSelector` (`shared/config/weighted-endpoints.ts`) chooses endpoints by smooth weighted round-robin
over effective weights, which failures halve and successes restore.  Endpoints are told apart by their places, and
weights are exact rationals.
-/
import Artgod.Flow.Credits
import Mathlib.Data.List.GetD
import Mathlib.Algebra.BigOperators.Intervals
import Mathlib.Algebra.BigOperators.Ring.Finset

namespace Artgod.Evm

open Flow

/-! ## 1. The selector -/

structure WeightedEndpointState (T : Type) where
  id : String
  url : String
  configuredWeight : Nat
  value : T
  consecutiveFailures : Nat
  currentWeight : Rat

structure WeightedEndpointSelection (T : Type) where
  id : String
  url : String
  configuredWeight : Nat
  effectiveWeight : Rat
  value : T

/-- A normalized target: its weight is a positive integer. -/
structure WeightedEndpointTarget (T : Type) where
  id : Option String
  url : String
  weight : Nat
  value : T
  weight_pos : 0 < weight

variable {T : Type}

def maxFailurePenaltyExponent : Nat := 8

def minEffectiveWeight : Rat := 1 / 100

/-- The states of the constructor, which refuses an empty list. -/
def WeightedEndpointState.new (index : Nat) (target : WeightedEndpointTarget T) : WeightedEndpointState T :=
  { id := target.id.getD s!"endpoint-{index + 1}"
    url := target.url
    configuredWeight := target.weight
    value := target.value
    consecutiveFailures := 0
    currentWeight := 0 }

def newSelector (targets : List (WeightedEndpointTarget T)) : Except String (List (WeightedEndpointState T)) :=
  if targets = [] then .error "At least one endpoint is required"
  else .ok (targets.mapIdx WeightedEndpointState.new)

variable (state : WeightedEndpointState T)

def effectiveWeight : Rat :=
  max minEffectiveWeight (state.configuredWeight / 2 ^ state.consecutiveFailures)

def toSelection : WeightedEndpointSelection T :=
  ⟨state.id, state.url, state.configuredWeight, effectiveWeight state, state.value⟩

/-- The loop of `select` over the raised credits: the first of the greatest. -/
def greatestFrom (best : Rat) (bestIndex next : Nat) : List Rat → Nat
  | [] => bestIndex
  | credit :: rest =>
    if best < credit then greatestFrom credit next (next + 1) rest else greatestFrom best bestIndex (next + 1) rest

def raise : WeightedEndpointState T :=
  { state with currentWeight := state.currentWeight + effectiveWeight state }

def selectedIndex (states : List (WeightedEndpointState T)) : Nat :=
  match states.map fun state => (raise state).currentWeight with
  | [] => 0
  | credit :: rest => greatestFrom credit 0 1 rest

def pay (total : Rat) (state : WeightedEndpointState T) : WeightedEndpointState T :=
  { state with currentWeight := state.currentWeight - total }

/-- The states after `select`: the selected endpoint pays the weights of all. -/
def settle (states : List (WeightedEndpointState T)) : List (WeightedEndpointState T) :=
  (states.map raise).modify (selectedIndex states) (pay (states.map effectiveWeight).sum)

def select (states : List (WeightedEndpointState T)) :
    Option (WeightedEndpointSelection T) × List (WeightedEndpointState T) :=
  ((settle states)[selectedIndex states]?.map toSelection, settle states)

def withFailures (failures : Nat → Nat) (state : WeightedEndpointState T) : WeightedEndpointState T :=
  { state with consecutiveFailures := failures state.consecutiveFailures }

/-- `recordSuccess` and `recordFailure` change the failures of the first endpoint with the id. -/
def recordOutcome (failures : Nat → Nat) (id : String) (states : List (WeightedEndpointState T)) :
    Option (WeightedEndpointSelection T) × List (WeightedEndpointState T) :=
  match states.findIdx? (·.id = id) with
  | none => (none, states)
  | some index =>
    let states := states.modify index (withFailures failures)
    (states[index]?.map toSelection, states)

def recordSuccess (id : String) : List (WeightedEndpointState T) →
    Option (WeightedEndpointSelection T) × List (WeightedEndpointState T) :=
  recordOutcome (fun failures => failures - 1) id

def recordFailure (id : String) : List (WeightedEndpointState T) →
    Option (WeightedEndpointSelection T) × List (WeightedEndpointState T) :=
  recordOutcome (fun failures => min maxFailurePenaltyExponent (failures + 1)) id

inductive SelectorCall where
  | select
  | recordSuccess (id : String)
  | recordFailure (id : String)

def SelectorCall.step (states : List (WeightedEndpointState T)) : SelectorCall → List (WeightedEndpointState T)
  | .select => (Evm.select states).2
  | .recordSuccess id => (Evm.recordSuccess id states).2
  | .recordFailure id => (Evm.recordFailure id states).2

def runCalls (states : List (WeightedEndpointState T)) (calls : List SelectorCall) :
    List (WeightedEndpointState T) :=
  calls.foldl SelectorCall.step states

/-- The places that the selects among the calls choose. -/
def picks (states : List (WeightedEndpointState T)) : List SelectorCall → List Nat
  | [] => []
  | .select :: rest => selectedIndex states :: picks (settle states) rest
  | call :: rest => picks (call.step states) rest

/-! ## 2. One select is a round of the rotation -/

variable {states : List (WeightedEndpointState T)} {i : Nat} {call : SelectorCall}

/-- The credit of the endpoint at a place. -/
def credit (states : List (WeightedEndpointState T)) (i : Nat) : Rat :=
  (states[i]?.map (·.currentWeight)).getD 0

def weightAt (states : List (WeightedEndpointState T)) (i : Nat) : Rat :=
  (states[i]?.map effectiveWeight).getD 0

theorem sum_places {A M : Type} [AddCommMonoid M] (l : List A) (f : A → M) :
    ∑ i ∈ Finset.range l.length, (l[i]?.map f).getD 0 = (l.map f).sum := by
  induction l with
  | nil => rfl
  | cons a rest ih =>
    rw [List.length_cons, Finset.sum_range_succ', List.map_cons, List.sum_cons, ← ih, add_comm]
    rfl

theorem greatestFrom_spec {credits : List Rat} {all : Nat → Rat} {bestIndex next : Nat}
    (hall : ∀ i, i < credits.length → credits[i]? = some (all (next + i))) (hbest : bestIndex < next)
    (hgreatest : ∀ i < next, all i ≤ all bestIndex) :
    greatestFrom (all bestIndex) bestIndex next credits < next + credits.length ∧
      ∀ i < next + credits.length, all i ≤ all (greatestFrom (all bestIndex) bestIndex next credits) := by
  induction credits generalizing bestIndex next with
  | nil => exact ⟨hbest, hgreatest⟩
  | cons credit rest ih =>
    have hhead : credit = all next := Option.some.inj (hall 0 (Nat.succ_pos _))
    subst hhead
    have hrest : ∀ i, i < rest.length → rest[i]? = some (all (next + 1 + i)) := fun i hi => by
      have := hall (i + 1) (Nat.succ_lt_succ hi)
      rwa [List.getElem?_cons_succ, Nat.add_comm i, ← Nat.add_assoc] at this
    rw [List.length_cons, Nat.add_comm rest.length, ← Nat.add_assoc]
    unfold greatestFrom
    split
    · rename_i hlt
      refine ih hrest (Nat.lt_succ_self next) fun i hi => ?_
      rcases Nat.lt_succ_iff_lt_or_eq.mp hi with hi | rfl
      · exact (hgreatest i hi).trans hlt.le
      · exact le_rfl
    · rename_i hle
      refine ih hrest (Nat.lt_succ_of_lt hbest) fun i hi => ?_
      rcases Nat.lt_succ_iff_lt_or_eq.mp hi with hi | rfl
      · exact hgreatest i hi
      · exact not_lt.mp hle

theorem credit_raise {state : WeightedEndpointState T} (h : states[i]? = some state) :
    credit states i + weightAt states i = (raise state).currentWeight := by
  unfold credit weightAt
  rw [h]
  rfl

theorem selectedIndex_spec (h : states ≠ []) : selectedIndex states < states.length ∧
    ∀ i < states.length, credit states i + weightAt states i
      ≤ credit states (selectedIndex states) + weightAt states (selectedIndex states) := by
  cases states with
  | nil => exact absurd rfl h
  | cons state rest =>
    have hspec := @greatestFrom_spec (rest.map fun state => (raise state).currentWeight)
      (fun i => credit (state :: rest) i + weightAt (state :: rest) i) 0 1 (fun i hi => by
        rw [List.length_map] at hi
        rw [List.getElem?_map, List.getElem?_eq_getElem hi, Option.map_some,
          @credit_raise _ (state :: rest) (1 + i) rest[i]
            (by rw [Nat.add_comm, List.getElem?_cons_succ, List.getElem?_eq_getElem hi])]) Nat.one_pos
      (fun i hi => by rw [Nat.lt_one_iff.mp hi])
    rw [List.length_map, Nat.add_comm] at hspec
    exact hspec

theorem length_settle : (settle states).length = states.length := by
  rw [settle, List.length_modify, List.length_map]

theorem settle_pays (h : states ≠ []) : Pays (Finset.range states.length) (credit states) (weightAt states)
    (selectedIndex states) (credit (settle states)) := by
  obtain ⟨hmem, hgreatest⟩ := selectedIndex_spec h
  refine ⟨Finset.mem_range.mpr hmem, fun i hi => hgreatest i (Finset.mem_range.mp hi), fun i hi => ?_⟩
  have hlt := Finset.mem_range.mp hi
  have hget : states[i]? = some states[i] := List.getElem?_eq_getElem hlt
  rw [show ∑ j ∈ Finset.range states.length, weightAt states j = _ from sum_places states effectiveWeight]
  rw [credit_raise hget]
  unfold credit settle
  rw [List.getElem?_modify, List.getElem?_map, hget]
  by_cases heq : selectedIndex states = i
  · simp [heq, pay]
  · simp [heq, Ne.symm heq]

/-! ## 3. Any calls -/

theorem map_modify_of_eq {A B : Type} {f : A → A} {g : A → B} (h : ∀ a, g (f a) = g a) (l : List A) (index : Nat) :
    (l.modify index f).map g = l.map g := by
  refine List.ext_getElem? fun j => ?_
  rw [List.getElem?_map, List.getElem?_modify, List.getElem?_map]
  cases l[j]? with
  | none => rfl
  | some a =>
    simp only [Option.map_some]
    split <;> simp [h]

/-- The endpoint without its credit, which is all that a select changes. -/
def cleared : WeightedEndpointState T := { state with currentWeight := 0 }

theorem cleared_settle : (settle states).map cleared = states.map cleared := by
  refine (map_modify_of_eq (f := pay _) (g := cleared) (fun _ => rfl) _ _).trans ?_
  rw [List.map_map]
  rfl

theorem map_of_cleared {A : Type} {f : WeightedEndpointState T → A} {l l' : List (WeightedEndpointState T)}
    (hsame : l.map cleared = l'.map cleared) (h : ∀ state, f (cleared state) = f state) : l.map f = l'.map f := by
  have hcleared : ∀ l : List (WeightedEndpointState T), l.map f = (l.map cleared).map f := fun l => by
    rw [List.map_map]
    exact List.map_congr_left fun state _ => (h state).symm
  rw [hcleared, hsame, ← hcleared]

theorem recordOutcome_keeps (failures : Nat → Nat) (id : String) :
    (recordOutcome failures id states).2.map (·.configuredWeight) = states.map (·.configuredWeight) ∧
    (recordOutcome failures id states).2.map (·.currentWeight) = states.map (·.currentWeight) := by
  unfold recordOutcome
  split
  · exact ⟨rfl, rfl⟩
  · constructor
    · exact map_modify_of_eq (f := withFailures failures) (fun _ => rfl) _ _
    · exact map_modify_of_eq (f := withFailures failures) (fun _ => rfl) _ _

theorem credit_eq : credit states i = ((states.map (·.currentWeight))[i]?).getD 0 := by
  rw [List.getElem?_map]
  rfl

/-- What all calls keep. -/
structure RotationInv (weights : List Nat) (states : List (WeightedEndpointState T)) : Prop where
  nonempty : states ≠ []
  positive : ∀ w ∈ weights, 0 < w
  configured : states.map (·.configuredWeight) = weights
  sum : ∑ i ∈ Finset.range states.length, credit states i = 0
  above : ∀ i ∈ Finset.range states.length, -(weights.sum : Rat) < credit states i

variable {weights : List Nat}

theorem RotationInv.length_eq (h : RotationInv weights states) : states.length = weights.length := by
  rw [← h.configured, List.length_map]

theorem effectiveWeight_le {state : WeightedEndpointState T} (h : 0 < state.configuredWeight) :
    effectiveWeight state ≤ state.configuredWeight := by
  have hone : (1 : Rat) ≤ state.configuredWeight := by exact_mod_cast h
  refine max_le (le_trans (by unfold minEffectiveWeight; norm_num) hone) ?_
  exact div_le_self (Nat.cast_nonneg _) (one_le_pow₀ (by norm_num))

theorem sum_effectiveWeight_le (hpos : ∀ w ∈ weights, 0 < w)
    (h : states.map (·.configuredWeight) = weights) : (states.map effectiveWeight).sum ≤ (weights.sum : Rat) := by
  subst h
  induction states with
  | nil => simp
  | cons state rest ih =>
    obtain ⟨hstate, hrest⟩ := List.forall_mem_cons.mp hpos
    simp only [List.map_cons, List.sum_cons, Nat.cast_add]
    exact add_le_add (effectiveWeight_le hstate) (ih hrest)

theorem weightAt_ge (hi : i ∈ Finset.range states.length) : minEffectiveWeight ≤ weightAt states i := by
  unfold weightAt
  rw [List.getElem?_eq_getElem (Finset.mem_range.mp hi)]
  exact le_max_left _ _

theorem weightAt_pos (hi : i ∈ Finset.range states.length) : 0 < weightAt states i :=
  lt_of_lt_of_le (by unfold minEffectiveWeight; norm_num) (weightAt_ge hi)

theorem RotationInv.settle (h : RotationInv weights states) : RotationInv weights (settle states) := by
  have hpays := settle_pays h.nonempty
  refine ⟨List.ne_nil_of_length_pos (lt_of_lt_of_eq (List.length_pos_of_ne_nil h.nonempty) length_settle.symm),
    h.positive, (map_of_cleared cleared_settle fun _ => rfl).trans h.configured, ?_, ?_⟩
  · rw [length_settle, hpays.sum_eq, h.sum]
  rw [length_settle]
  refine hpays.above (fun i => weightAt_pos) ?_ h.sum h.above
  rw [show ∑ j ∈ Finset.range states.length, weightAt states j = _ from sum_places states effectiveWeight]
  exact sum_effectiveWeight_le h.positive h.configured

theorem RotationInv.recordOutcome (h : RotationInv weights states) (failures : Nat → Nat) (id : String) :
    RotationInv weights (recordOutcome failures id states).2 := by
  obtain ⟨hconfigured, hcredits⟩ := @recordOutcome_keeps _ states failures id
  have hlength := congrArg List.length hcredits
  rw [List.length_map, List.length_map] at hlength
  have hcredit (i : Nat) : credit (Evm.recordOutcome failures id states).2 i = credit states i := by
    rw [credit_eq, credit_eq, hcredits]
  refine ⟨fun hnil => h.nonempty (List.length_eq_zero_iff.mp (hlength ▸ List.length_eq_zero_iff.mpr hnil)),
    h.positive, hconfigured.trans h.configured, ?_, ?_⟩
  · simp only [hcredit, hlength, h.sum]
  · simpa only [hcredit, hlength] using h.above

theorem RotationInv.step (h : RotationInv weights states) (call : SelectorCall) :
    RotationInv weights (call.step states) := by
  cases call with
  | select => exact h.settle
  | recordSuccess id => exact h.recordOutcome _ id
  | recordFailure id => exact h.recordOutcome _ id

theorem RotationInv.run (h : RotationInv weights states) (calls : List SelectorCall) :
    RotationInv weights (runCalls states calls) := by
  induction calls generalizing states with
  | nil => exact h
  | cons call rest ih => exact ih (h.step call)

theorem RotationInv.waiting (h : RotationInv weights states) (hi : i ∈ Finset.range weights.length)
    {calls : List SelectorCall} (hwaits : i ∉ picks states calls) :
    credit states i + (picks states calls).length * minEffectiveWeight ≤ credit (runCalls states calls) i := by
  induction calls generalizing states with
  | nil => simp [picks, runCalls]
  | cons call rest ih =>
    have hother (failures : Nat → Nat) (id : String)
        (hpicks : picks states (call :: rest) = picks (Evm.recordOutcome failures id states).2 rest)
        (hrun : runCalls states (call :: rest) = runCalls (Evm.recordOutcome failures id states).2 rest) :
        credit states i + (picks states (call :: rest)).length * minEffectiveWeight
          ≤ credit (runCalls states (call :: rest)) i := by
      rw [hpicks] at hwaits ⊢
      rw [hrun, @credit_eq _ states, ← (recordOutcome_keeps failures id).2, ← credit_eq]
      exact ih (h.recordOutcome failures id) hwaits
    cases call with
    | recordSuccess id => exact hother _ id rfl rfl
    | recordFailure id => exact hother _ id rfl rfl
    | select =>
      obtain ⟨hnot, hrest⟩ := not_or.mp (mt List.mem_cons.mpr hwaits)
      have htail := ih h.settle hrest
      rw [← h.length_eq] at hi
      have hpaid := (settle_pays h.nonempty).paid i hi
      rw [if_neg hnot, sub_zero] at hpaid
      have hweight := weightAt_ge hi
      rw [picks, List.length_cons, Nat.cast_succ, add_mul, one_mul]
      rw [show runCalls states (.select :: rest) = runCalls (Evm.settle states) rest from rfl]
      linarith

theorem RotationInv.selected (h : RotationInv weights states) (hi : i ∈ Finset.range weights.length)
    {calls : List SelectorCall} (hlong : 100 * weights.length * weights.sum ≤ (picks states calls).length) :
    i ∈ picks states calls := by
  by_contra hwaits
  have hend := h.run calls
  have hearned := h.waiting hi hwaits
  rw [← h.length_eq] at hi
  have hstart := h.above i hi
  have hmost := credit_le hend.sum hend.above (by rw [hend.length_eq, ← h.length_eq]; exact hi)
  rw [Finset.card_range, hend.length_eq] at hmost
  have hlong' : (100 * weights.length * weights.sum : Rat) ≤ (picks states calls).length := by exact_mod_cast hlong
  unfold minEffectiveWeight at hearned
  linarith

/-! ## 4. Selects without outcomes -/

/-- The calls of `k` selects. -/
def selects (k : Nat) : List SelectorCall := List.replicate k .select

theorem runCalls_append (calls after : List SelectorCall) :
    runCalls states (calls ++ after) = runCalls (runCalls states calls) after :=
  List.foldl_append

theorem picks_selects (k : Nat) (hne : states ≠ []) : (picks states (selects k)).length = k ∧
    ∀ i ∈ picks states (selects k), i < states.length := by
  induction k generalizing states with
  | zero => exact ⟨rfl, fun _ h => nomatch h⟩
  | succ k ih =>
    have hlength := @length_settle _ states
    obtain ⟨hk, hmem⟩ := @ih (settle states)
      fun hnil => hne (List.length_eq_zero_iff.mp (hlength ▸ congrArg List.length hnil))
    rw [hlength] at hmem
    exact ⟨congrArg Nat.succ hk, List.forall_mem_cons.mpr ⟨(selectedIndex_spec hne).1, hmem⟩⟩

theorem map_cleared_selects (k : Nat) : (runCalls states (selects k)).map cleared = states.map cleared := by
  induction k generalizing states with
  | zero => rfl
  | succ k ih => exact (@ih (settle states)).trans cleared_settle

theorem weightAt_of_cleared {l l' : List (WeightedEndpointState T)} (h : l.map cleared = l'.map cleared) :
    weightAt l i = weightAt l' i := by
  unfold weightAt
  rw [← List.getElem?_map, ← List.getElem?_map, map_of_cleared h fun _ => rfl]

theorem credit_selects {share : Nat → Nat} (hne : states ≠ [])
    (hweight : ∀ i ∈ Finset.range states.length, weightAt states i = share i)
    (k : Nat) (hi : i ∈ Finset.range states.length) :
    credit (runCalls states (selects k)) i = credit states i + k * share i
      - (∑ j ∈ Finset.range states.length, share j : Nat) * ((picks states (selects k)).count i) := by
  induction k generalizing states with
  | zero => simp [selects, runCalls, picks]
  | succ k ih =>
    have hlength := @length_settle _ states
    have hne' : settle states ≠ [] :=
      fun hnil => hne (List.length_eq_zero_iff.mp (hlength ▸ congrArg List.length hnil))
    have hsame (j : Nat) : weightAt (settle states) j = weightAt states j := weightAt_of_cleared cleared_settle
    have hrest := @ih (settle states) hne' (fun j hj => (hsame j).trans (hweight j (hlength ▸ hj))) (hlength ▸ hi)
    have hpaid := (settle_pays hne).paid i hi
    rw [Finset.sum_congr rfl hweight, hweight i hi, ← Nat.cast_sum] at hpaid
    rw [hlength] at hrest
    rw [show runCalls states (selects (k + 1)) = runCalls (settle states) (selects k) from rfl, hrest, hpaid,
      show picks states (selects (k + 1)) = selectedIndex states :: picks (settle states) (selects k) from rfl,
      List.count_cons, Nat.cast_succ]
    by_cases heq : i = selectedIndex states
    · simp [heq]
      ring
    · simp [heq, Ne.symm heq]
      ring

theorem sum_count {l : List Nat} {n : Nat} (h : ∀ i ∈ l, i < n) : ∑ i ∈ Finset.range n, l.count i = l.length := by
  induction l with
  | nil => simp
  | cons a rest ih =>
    obtain ⟨ha, hrest⟩ := List.forall_mem_cons.mp h
    simp only [List.count_cons, beq_iff_eq, Finset.sum_add_distrib, ih hrest, List.length_cons]
    rw [Finset.sum_ite_eq, if_pos (Finset.mem_range.mpr ha)]

/-! ## 5. The rotation -/

section Targets

variable {targets : List (WeightedEndpointTarget T)}

/-- The sum of the weights. -/
def totalWeight (targets : List (WeightedEndpointTarget T)) : Nat := (targets.map (·.weight)).sum

def weightOf (targets : List (WeightedEndpointTarget T)) (i : Nat) : Nat := (targets[i]?.map (·.weight)).getD 0

theorem newSelector_inv (h : newSelector targets = .ok states) :
    RotationInv (targets.map (·.weight)) states ∧ states.map cleared = states ∧
      ∀ i, weightAt states i = weightOf targets i := by
  unfold newSelector at h
  split at h
  · cases h
  rename_i hne
  cases h
  have hget (i : Nat) : (targets.mapIdx WeightedEndpointState.new)[i]? = targets[i]?.map (.new i) :=
    List.getElem?_mapIdx
  have hpositive : ∀ w ∈ targets.map (·.weight), 0 < w := List.forall_mem_map.mpr fun t _ => t.weight_pos
  have hcredit (i : Nat) : credit (targets.mapIdx WeightedEndpointState.new) i = 0 := by
    unfold credit
    rw [hget]
    cases targets[i]? <;> rfl
  refine ⟨⟨?_, hpositive, ?_, Finset.sum_eq_zero fun i _ => hcredit i, fun i _ => ?_⟩, ?_, fun i => ?_⟩
  · simpa using hne
  · refine List.ext_getElem? fun i => ?_
    rw [List.getElem?_map, hget, List.getElem?_map]
    cases targets[i]? <;> rfl
  · rw [hcredit, neg_lt_zero]
    obtain ⟨t, ht⟩ := List.exists_mem_of_ne_nil _ hne
    exact_mod_cast lt_of_lt_of_le t.weight_pos (List.single_le_sum (by simp) _ (List.mem_map_of_mem ht))
  · refine List.ext_getElem? fun i => ?_
    rw [List.getElem?_map, hget]
    cases targets[i]? <;> rfl
  unfold weightAt weightOf
  rw [hget]
  cases targets[i]? with
  | none => rfl
  | some t =>
    refine le_antisymm (effectiveWeight_le t.weight_pos) ?_
    exact le_max_of_le_right (by simp [WeightedEndpointState.new])

theorem mem_credit {state : WeightedEndpointState T} (h : state ∈ states) :
    ∃ i ∈ Finset.range states.length, credit states i = state.currentWeight := by
  obtain ⟨i, hi, rfl⟩ := List.getElem_of_mem h
  refine ⟨i, Finset.mem_range.mpr hi, ?_⟩
  unfold credit
  rw [List.getElem?_eq_getElem hi]
  rfl

theorem cleared_of_credit (h : ∀ state ∈ states, state.currentWeight = 0) : states.map cleared = states :=
  (List.map_congr_left fun state hstate => show cleared state = id state by
    unfold cleared
    rw [← h state hstate]
    rfl).trans (List.map_id states)

/-- **The rotation is exact and fair.**  From new endpoints, any `W` consecutive selects choose every endpoint as
often as its weight says and leave the credits as they were, which is none after the first `W`.  With successes and
failures in between, the credits always add up to nothing, none is as low as `-W`, and nobody waits longer than
`100 * n * W` selects. -/
theorem rotation_exact_and_fair (h : newSelector targets = .ok states) :
    (∀ m, runCalls states (selects (m + totalWeight targets)) = runCalls states (selects m) ∧
      ∀ i < targets.length, (picks (runCalls states (selects m)) (selects (totalWeight targets))).count i
        = weightOf targets i) ∧
    (∀ state ∈ runCalls states (selects (totalWeight targets)), state.currentWeight = 0) ∧
    (∀ calls, ((runCalls states calls).map (·.currentWeight)).sum = 0 ∧
      ∀ state ∈ runCalls states calls, -(totalWeight targets : Rat) < state.currentWeight) ∧
    ∀ calls after, 100 * targets.length * totalWeight targets ≤ (picks (runCalls states calls) after).length →
      ∀ i < targets.length, i ∈ picks (runCalls states calls) after := by
  obtain ⟨hinv, hcleared, hweight⟩ := newSelector_inv h
  have hlength : states.length = targets.length := by rw [hinv.length_eq, List.length_map]
  have hsum : ∑ i ∈ Finset.range states.length, weightOf targets i = totalWeight targets := by
    rw [hlength]
    exact sum_places targets (·.weight)
  have hzero : ∀ i ∈ Finset.range states.length, credit states i = 0 := by
    intro i hi
    rw [credit_eq, ← hcleared, List.map_map, List.getElem?_map]
    cases states[i]? <;> rfl
  have hpositive : 0 < totalWeight targets := by
    have hi : 0 < states.length := List.length_pos_of_ne_nil hinv.nonempty
    have habove := hinv.above 0 (Finset.mem_range.mpr hi)
    rw [hzero 0 (Finset.mem_range.mpr hi), neg_lt_zero] at habove
    exact_mod_cast habove
  have hrounds (m k i : Nat) (hi : i ∈ Finset.range states.length) :
      credit (runCalls (runCalls states (selects m)) (selects k)) i = credit (runCalls states (selects m)) i
        + k * weightOf targets i - totalWeight targets
          * ((picks (runCalls states (selects m)) (selects k)).count i) := by
    have hrun := hinv.run (selects m)
    have hn : (runCalls states (selects m)).length = states.length := by
      rw [hrun.length_eq, hinv.length_eq]
    rw [← hsum, ← hn]
    refine credit_selects hrun.nonempty (fun j hj => ?_) k (hn ▸ hi)
    rw [weightAt_of_cleared (map_cleared_selects m), hweight]
  have hfirst : ∀ state ∈ runCalls states (selects (totalWeight targets)), state.currentWeight = 0 := by
    intro state hstate
    have hrun := hinv.run (selects (totalWeight targets))
    have hn : (runCalls states (selects (totalWeight targets))).length = states.length := by
      rw [hrun.length_eq, hinv.length_eq]
    obtain ⟨i, hi, hcredit⟩ := mem_credit hstate
    rw [hn] at hi
    obtain ⟨hlength, hmem⟩ := picks_selects (totalWeight targets) hinv.nonempty
    have habove : ∀ i ∈ Finset.range states.length,
        -((∑ j ∈ Finset.range states.length, weightOf targets j : Nat) : Rat)
          < credit (runCalls states (selects (totalWeight targets))) i := by
      rw [hsum]
      exact hn ▸ hrun.above
    rw [← hcredit]
    have haccounted : Accounted (Finset.range states.length) (weightOf targets)
        (∑ j ∈ Finset.range states.length, weightOf targets j)
        (fun i => (picks states (selects (totalWeight targets))).count i)
        (credit (runCalls states (selects (totalWeight targets)))) := by
      intro i hi
      have hrounds := hrounds 0 (totalWeight targets) i hi
      rw [hsum]
      simpa [runCalls, selects, hzero i hi] using hrounds
    refine (haccounted.exact ?_ habove hi).2
    rw [sum_count hmem, hlength, hsum]
  have hperiod : runCalls states (selects (totalWeight targets)) = states := by
    rw [← cleared_of_credit hfirst, map_cleared_selects, hcleared]
  have hagain (m : Nat) : runCalls states (selects (m + totalWeight targets)) = runCalls states (selects m) := by
    rw [selects, Nat.add_comm, ← List.replicate_append_replicate, runCalls_append]
    exact congrArg (runCalls · (selects m)) hperiod
  refine ⟨fun m => ⟨hagain m, fun i hi => ?_⟩, fun state hstate => ?_, fun calls => ⟨?_, fun state hstate => ?_⟩,
    fun calls after hlong i hi => ?_⟩
  · have hwindow := hrounds m (totalWeight targets) i (Finset.mem_range.mpr (hlength ▸ hi))
    rw [← runCalls_append, show selects m ++ selects (totalWeight targets) = selects (m + totalWeight targets) from
      List.replicate_append_replicate, hagain m] at hwindow
    have hcancel : (totalWeight targets : Rat) * weightOf targets i = totalWeight targets
        * (picks (runCalls states (selects m)) (selects (totalWeight targets))).count i := by linarith
    exact_mod_cast (mul_left_cancel₀ (Nat.cast_ne_zero.mpr hpositive.ne') hcancel).symm
  · exact hfirst state hstate
  · have hsum := (hinv.run calls).sum
    rwa [show ∑ i ∈ Finset.range (runCalls states calls).length, credit (runCalls states calls) i = _ from
      sum_places _ _] at hsum
  · obtain ⟨i, hi, hcredit⟩ := mem_credit hstate
    exact hcredit ▸ (hinv.run calls).above i hi
  · refine (hinv.run calls).selected (Finset.mem_range.mpr ?_) ?_
    · rwa [List.length_map]
    · rwa [List.length_map]

theorem rotation_exact_and_fair_threeOne :
    ∃ states, newSelector [⟨some "a", "https://a", 3, (), by decide⟩, ⟨none, "https://b", 1, (), by decide⟩]
        = .ok states ∧ (picks (runCalls states (selects 0)) (selects 4)).count 0 = 3 :=
  ⟨_, rfl, ((@rotation_exact_and_fair Unit _
    [⟨some "a", "https://a", 3, (), by decide⟩, ⟨none, "https://b", 1, (), by decide⟩] rfl).1 0).2 0 (by decide)⟩

end Targets

end Artgod.Evm
