/-
# Programs that may fail midway

An `EStateM` program that fails keeps the state it failed in.  `Ends` states what holds of that state and of
the one a program returns in; the rules follow the program text.
-/
import Mathlib.Tactic.Common

namespace Artgod.Machine

variable {ε σ α β : Type}

/-- The program returns with `Q`, or fails with `R`. -/
def Ends (x : EStateM ε σ α) (s : σ) (Q : α → σ → Prop) (R : ε → σ → Prop) : Prop :=
  match x s with
  | .ok a s' => Q a s'
  | .error e s' => R e s'

variable {x : EStateM ε σ α} {f : α → EStateM ε σ β} {s : σ} {Q Q' : α → σ → Prop} {R R' : ε → σ → Prop}

/-! ## 1. The rules -/

variable {s' : σ} {a : α} {e : ε}

@[simp] theorem ends_pure : Ends (pure a) s Q R ↔ Q a s := Iff.rfl

@[simp] theorem ends_throw : Ends (throw e) s Q R ↔ R e s := Iff.rfl

@[simp] theorem ends_get {Q : σ → σ → Prop} : Ends get s Q R ↔ Q s s := Iff.rfl

@[simp] theorem ends_modify {g : σ → σ} {Q : PUnit → σ → Prop} : Ends (modify g) s Q R ↔ Q ⟨⟩ (g s) := Iff.rfl

@[simp] theorem ends_bind {Q : β → σ → Prop} :
    Ends (x >>= f) s Q R ↔ Ends x s (fun a s' => Ends (f a) s' Q R) R := by
  have hbind : (x >>= f) s = EStateM.bind x f s := rfl
  unfold Ends
  rw [hbind, EStateM.bind]
  cases x s <;> rfl

theorem Ends.mono (h : Ends x s Q R) (hok : ∀ a s', Q a s' → Q' a s') (herror : ∀ e s', R e s' → R' e s') :
    Ends x s Q' R' := by
  unfold Ends at h ⊢
  cases hx : x s with
  | ok a s' =>
    rw [hx] at h
    exact hok a s' h
  | error e s' =>
    rw [hx] at h
    exact herror e s' h

theorem Ends.and (h : Ends x s Q R) (h' : Ends x s Q' R') :
    Ends x s (fun a s' => Q a s' ∧ Q' a s') (fun e s' => R e s' ∧ R' e s') := by
  unfold Ends at h h' ⊢
  cases hx : x s with
  | ok a s' =>
    rw [hx] at h h'
    exact ⟨h, h'⟩
  | error e s' =>
    rw [hx] at h h'
    exact ⟨h, h'⟩

theorem Ends.bind {Q : β → σ → Prop} {P : α → σ → Prop} (h : Ends x s P R')
    (hthen : ∀ a s', P a s' → Ends (f a) s' Q R) (herror : ∀ e s', R' e s' → R e s') :
    Ends (x >>= f) s Q R :=
  ends_bind.mpr (h.mono hthen herror)

/-! ## 2. Results -/

theorem Ends.of_ok (h : Ends x s Q R) (hx : x s = .ok a s') : Q a s' := by
  unfold Ends at h
  rwa [hx] at h

theorem Ends.of_error (h : Ends x s Q R) (hx : x s = .error e s') : R e s' := by
  unfold Ends at h
  rwa [hx] at h

theorem bind_ok_of (hx : x s = .ok a s') : (x >>= f) s = f a s' := by
  have hbind : (x >>= f) s = EStateM.bind x f s := rfl
  rw [hbind, EStateM.bind, hx]

theorem bind_error_of (hx : x s = .error e s') : (x >>= f) s = .error e s' := by
  have hbind : (x >>= f) s = EStateM.bind x f s := rfl
  rw [hbind, EStateM.bind, hx]

theorem bind_eq_ok_iff {b : β} {s'' : σ} :
    (x >>= f) s = .ok b s'' ↔ ∃ a s', x s = .ok a s' ∧ f a s' = .ok b s'' := by
  constructor
  · intro h
    cases hx : x s with
    | ok a s' =>
      rw [bind_ok_of hx] at h
      exact ⟨a, s', rfl, h⟩
    | error e s' =>
      rw [bind_error_of hx] at h
      cases h
  · rintro ⟨a, s', hx, hf⟩
    rw [bind_ok_of hx, hf]

/-! ## 3. Outside answers -/

/-- The answer of a call that may have failed. -/
def answered : Except ε α → EStateM ε σ α
  | .ok a => pure a
  | .error e => throw e

@[simp] theorem ends_answered {answer : Except ε α} :
    Ends (answered answer) s Q R ↔ (∀ a, answer = .ok a → Q a s) ∧ (∀ e, answer = .error e → R e s) := by
  cases answer with
  | ok a => exact ⟨fun h => ⟨fun a' heq => Except.ok.inj heq ▸ h, fun e heq => (nomatch heq)⟩, fun h => h.1 a rfl⟩
  | error e =>
    exact ⟨fun h => ⟨fun a heq => (nomatch heq), fun e' heq => Except.error.inj heq ▸ h⟩, fun h => h.2 e rfl⟩

theorem answered_eq_ok_iff {answer : Except ε α} :
    (answered answer : EStateM ε σ α) s = .ok a s' ↔ answer = .ok a ∧ s' = s := by
  constructor
  · intro h
    cases answer with
    | ok a' =>
      cases h
      exact ⟨rfl, rfl⟩
    | error e => cases h
  · rintro ⟨rfl, rfl⟩
    rfl

end Artgod.Machine
