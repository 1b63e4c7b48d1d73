/-
# Runs of a step function

A component is a state type, an event type and a total `step`.  A run folds the step over a list of
events.  What a component keeps is shown for one step, and the rules here carry it to whole runs: an
invariant (`run_invariant`), an invariant whose steps meet a condition (`run_invariant_of_meets`), and a
relation between the state before and the state after (`run_related`).
-/
import Mathlib.Tactic.Common

namespace Artgod.Machine

variable {S E : Type}

/-! ## 1. Runs -/

/-- The state that the events lead to. -/
def run (step : S → E → S) (s : S) (es : List E) : S := es.foldl step s

variable {step : S → E → S} {s : S} {ok : S → E → Bool} {e : E} {es : List E}

@[simp] theorem run_nil : run step s [] = s := rfl

@[simp] theorem run_cons : run step s (e :: es) = run step (step s e) es := rfl

theorem run_append {before after : List E} :
    run step s (before ++ after) = run step (run step s before) after := List.foldl_append

theorem run_concat : run step s (es ++ [e]) = step (run step s es) e := by
  rw [run_append, run_cons, run_nil]

theorem run_invariant {step : S → E → S} {Inv : S → Prop}
    (hstep : ∀ s e, Inv s → Inv (step s e)) {s : S} (h : Inv s) (es : List E) :
    Inv (run step s es) := by
  induction es generalizing s with
  | nil => exact h
  | cons e rest ih => exact ih (hstep s e h)

theorem run_related {step : S → E → S} {Inv : S → Prop} {R : S → S → Prop}
    (hrefl : ∀ s, R s s) (htrans : ∀ {a b c}, R a b → R b c → R a c)
    (hinv : ∀ s e, Inv s → Inv (step s e)) (hstep : ∀ s e, Inv s → R s (step s e))
    {s : S} (h : Inv s) (es : List E) : R s (run step s es) := by
  induction es generalizing s with
  | nil => exact hrefl s
  | cons e rest ih => exact htrans (hstep s e h) (ih (hinv s e h))

/-! ## 2. Runs whose steps meet a condition -/

/-- Every event meets its condition in the state it is taken in. -/
def meetsThroughout (ok : S → E → Bool) (step : S → E → S) : S → List E → Bool
  | _, [] => true
  | s, e :: rest => ok s e && meetsThroughout ok step (step s e) rest

@[simp] theorem meetsThroughout_nil : meetsThroughout ok step s [] = true := rfl

@[simp] theorem meetsThroughout_cons {rest : List E} :
    meetsThroughout ok step s (e :: rest) = true ↔
      ok s e = true ∧ meetsThroughout ok step (step s e) rest = true := by
  rw [meetsThroughout, Bool.and_eq_true]

theorem meetsThroughout_append {before after : List E} :
    meetsThroughout ok step s (before ++ after) = true ↔ meetsThroughout ok step s before = true ∧
        meetsThroughout ok step (run step s before) after = true := by
  induction before generalizing s with
  | nil => simp
  | cons e rest ih => rw [List.cons_append, meetsThroughout_cons, meetsThroughout_cons, ih, run_cons, and_assoc]

/-- **An invariant of the steps that meet the condition is one of the runs that meet it throughout.** -/
theorem run_invariant_of_meets {Inv : S → Prop}
    (hstep : ∀ s e, Inv s → ok s e = true → Inv (step s e)) (h : Inv s)
    (hmeets : meetsThroughout ok step s es = true) : Inv (run step s es) := by
  induction es generalizing s with
  | nil => exact h
  | cons e rest ih =>
    obtain ⟨hok, hrest⟩ := meetsThroughout_cons.mp hmeets
    exact ih (hstep s e h hok) hrest

end Artgod.Machine
