/-
# Store transactions

A store operation reads and writes a state and may throw: `Tx σ ε α` is `ExceptT ε (StateM σ)`, and
`writeTransaction` restores the state when an error leaves it.  The proofs use `Returns x s a s'` with its
inversion lemmas, `writeTransaction_run` for the two ways a transaction ends, `Returns.forM_induct` for loops and
`Preserves`.
-/
import Mathlib.Tactic.Common

namespace Store

/-- A computation over a store of type `σ` that may throw an `ε`. -/
abbrev Tx (σ ε : Type) : Type → Type := ExceptT ε (StateM σ)

namespace Tx

variable {σ ε α β : Type}

/-- Run a computation from the store `s`. -/
def exec (x : Tx σ ε α) (s : σ) : Except ε α × σ := (ExceptT.run x).run s

/-- Run from `s`, the computation returns `a` and leaves the store `s'`. -/
def Returns (x : Tx σ ε α) (s : σ) (a : α) (s' : σ) : Prop := x.exec s = (.ok a, s')

/-- A transaction: an error restores the store the transaction began with. -/
def writeTransaction (x : Tx σ ε α) : Tx σ ε α :=
  ExceptT.mk (fun s =>
    match x.exec s with
    | (.ok a, s') => (.ok a, s')
    | (.error e, _) => (.error e, s))

/-! ## 1. Inversion -/

variable {s s' s'' : σ} {a : α} {x : Tx σ ε α} {f : α → Tx σ ε β} {u : PUnit} {e : ε} {xs : List α}
  {bs : List β}

@[simp] theorem returns_pure {b : α} :
    Returns (pure a : Tx σ ε α) s b s' ↔ a = b ∧ s = s' := by
  constructor
  · intro h
    cases h
    exact ⟨rfl, rfl⟩
  · rintro ⟨rfl, rfl⟩
    rfl

theorem exec_bind (x : Tx σ ε α) (f : α → Tx σ ε β) (s : σ) :
    (x >>= f).exec s =
      match x.exec s with
      | (.ok a, s') => (f a).exec s'
      | (.error e, s') => (.error e, s') := by
  simp only [exec, ExceptT.run_bind, StateT.run_bind]
  rcases x.run.run s with ⟨r, s'⟩
  cases r <;> rfl

@[simp] theorem returns_bind {b : β} :
    Returns (x >>= f) s b s'' ↔ ∃ a s', Returns x s a s' ∧ Returns (f a) s' b s'' := by
  simp only [Returns, exec_bind]
  rcases hx : x.exec s with ⟨r, s'⟩
  cases r with
  | ok a =>
    constructor
    · intro h
      exact ⟨a, s', rfl, h⟩
    · rintro ⟨a', t, h, hf⟩
      cases h
      exact hf
  | error e =>
    constructor
    · intro h
      cases h
    · rintro ⟨a', t, h, -⟩
      cases h

@[simp] theorem returns_throw :
    Returns (throw e : Tx σ ε α) s a s' ↔ False := by
  constructor
  · intro h
    cases h
  · exact False.elim

@[simp] theorem returns_get {a : σ} :
    Returns (get : Tx σ ε σ) s a s' ↔ s = a ∧ s = s' := by
  constructor
  · intro h
    cases h
    exact ⟨rfl, rfl⟩
  · rintro ⟨rfl, rfl⟩
    rfl

@[simp] theorem returns_set {t : σ} :
    Returns (set t : Tx σ ε PUnit) s u s' ↔ t = s' := by
  constructor
  · intro h
    cases h
    rfl
  · rintro rfl
    rfl

@[simp] theorem returns_modify {f : σ → σ} :
    Returns (modify f : Tx σ ε PUnit) s u s' ↔ f s = s' := by
  constructor
  · intro h
    cases h
    rfl
  · rintro rfl
    rfl

@[simp] theorem returns_modifyGet {f : σ → α × σ} :
    Returns (modifyGet f : Tx σ ε α) s a s' ↔ f s = (a, s') := by
  constructor
  · intro h
    simp only [Returns, exec] at h
    change ((Except.ok (f s).1 : Except ε α), (f s).2) = (.ok a, s') at h
    cases h
    rfl
  · intro h
    change ((Except.ok (f s).1 : Except ε α), (f s).2) = (.ok a, s')
    rw [h]

@[simp] theorem returns_ite {c : Prop} [Decidable c] {y : Tx σ ε α} :
    Returns (if c then x else y) s a s' ↔ (c ∧ Returns x s a s') ∨ (¬ c ∧ Returns y s a s') := by
  by_cases h : c <;> simp [h]

/-- The guard `if (c) throw e`. -/
def throwIf (c : Prop) [Decidable c] (e : ε) : Tx σ ε Unit := if c then throw e else pure ()

@[simp] theorem returns_throwIf {c : Prop} [Decidable c] {u : Unit} :
    Returns (throwIf c e : Tx σ ε Unit) s u s' ↔ ¬ c ∧ s = s' := by
  simp [throwIf]

/-- A check that reads nothing but its arguments, run inside a computation. -/
def check (x : Except ε α) : Tx σ ε α :=
  match x with
  | .ok a => pure a
  | .error e => throw e

@[simp] theorem returns_check {x : Except ε α} :
    Returns (check x : Tx σ ε α) s a s' ↔ x = .ok a ∧ s = s' := by
  cases x <;> simp [check]

/-! ## 2. Transactions -/

theorem exec_writeTransaction (x : Tx σ ε α) (s : σ) :
    (writeTransaction x).exec s =
      match x.exec s with
      | (.ok a, s') => (.ok a, s')
      | (.error e, _) => (.error e, s) :=
  rfl

/-- **A transaction returns with the writes of its body, or throws and changes nothing.** -/
theorem writeTransaction_run (x : Tx σ ε α) (s : σ) :
    (∃ a s', Returns x s a s' ∧ (writeTransaction x).exec s = (.ok a, s')) ∨
      (∃ e, (writeTransaction x).exec s = (.error e, s)) := by
  rw [exec_writeTransaction]
  rcases hx : x.exec s with ⟨r, s'⟩
  cases r with
  | ok a => exact Or.inl ⟨a, s', hx, rfl⟩
  | error e => exact Or.inr ⟨e, rfl⟩

@[simp] theorem returns_writeTransaction :
    Returns (writeTransaction x) s a s' ↔ Returns x s a s' := by
  simp only [Returns, exec_writeTransaction]
  rcases x.exec s with ⟨r, t⟩
  cases r with
  | ok b => exact Iff.rfl
  | error e => simp

theorem writeTransaction_error (h : (writeTransaction x).exec s = (.error e, s')) : s' = s := by
  rcases writeTransaction_run x s with ⟨b, t, -, hw⟩ | ⟨e', hw⟩
  · rw [hw] at h
    cases h
  · rw [hw] at h
    cases h
    rfl

/-- A computation that leaves the store alone when it throws. -/
def Atomic (x : Tx σ ε α) : Prop := ∀ s e s', x.exec s = (.error e, s') → s' = s

theorem atomic_writeTransaction (x : Tx σ ε α) : Atomic (writeTransaction x) :=
  fun _ _ _ h => writeTransaction_error h

theorem atomic_pure (a : α) : Atomic (pure a : Tx σ ε α) := by
  intro s e s' h
  cases h

theorem atomic_set (t : σ) : Atomic (set t : Tx σ ε PUnit) := by
  intro s e s' h
  cases h

theorem atomic_modifyGet (f : σ → α × σ) : Atomic (modifyGet f : Tx σ ε α) := by
  intro s e s' h
  cases h

theorem Atomic.check_bind {x : Except ε α} (h : ∀ a, Atomic (f a)) :
    Atomic (check x >>= f) := by
  intro s e s' hx
  rw [exec_bind] at hx
  cases x with
  | ok a => exact h a s e s' hx
  | error e' =>
    cases hx
    rfl

theorem Atomic.map (h : Atomic x) (f : α → β) :
    Atomic (x >>= fun a => pure (f a)) := by
  intro s e s' hx
  rw [exec_bind] at hx
  rcases hrun : x.exec s with ⟨r, t⟩
  rw [hrun] at hx
  cases r with
  | ok a => cases hx
  | error e' =>
    cases hx
    exact h s _ _ hrun

theorem Atomic.cases (h : Atomic x) (s : σ) :
    (∃ a, Returns x s a (x.exec s).2) ∨ (x.exec s).2 = s := by
  rcases hrun : x.exec s with ⟨r, t⟩
  cases r with
  | ok a => exact Or.inl ⟨a, hrun⟩
  | error e => exact Or.inr (h s e t hrun)

/-! ## 3. A part of the store -/

/-- Run a computation on the part of the store that `view` shows. -/
def zoom {τ : Type} (view : σ → τ) (put : τ → σ → σ) (x : Tx τ ε α) : Tx σ ε α :=
  ExceptT.mk (fun s => ((x.exec (view s)).1, put (x.exec (view s)).2 s))

@[simp] theorem returns_zoom {τ : Type} {view : σ → τ} {put : τ → σ → σ} {x : Tx τ ε α}
    :
    Returns (zoom view put x) s a s' ↔ ∃ t, Returns x (view s) a t ∧ put t s = s' := by
  constructor
  · intro h
    have h' : ((x.exec (view s)).1, put (x.exec (view s)).2 s) = (.ok a, s') := h
    rw [Prod.mk.injEq] at h'
    exact ⟨_, Prod.ext h'.1 rfl, h'.2⟩
  · rintro ⟨t, h, rfl⟩
    change ((x.exec (view s)).1, put (x.exec (view s)).2 s) = (.ok a, put t s)
    rw [h]

/-! ## 4. Loops -/

@[simp] theorem returns_forM_nil {f : α → Tx σ ε PUnit} :
    Returns (([] : List α).forM f) s u s' ↔ s = s' := by
  change Returns (pure PUnit.unit) s u s' ↔ _
  simp

@[simp] theorem returns_forM_cons {f : α → Tx σ ε PUnit} {x : α}
    :
    Returns ((x :: xs).forM f) s u s'' ↔
      ∃ v s', Returns (f x) s v s' ∧ Returns (xs.forM f) s' u s'' := by
  change Returns (f x >>= fun _ => xs.forM f) s u s'' ↔ _
  simp

theorem Returns.forM_induct {f : α → Tx σ ε PUnit} {I : σ → Prop} :
    ∀ {xs : List α} {s s' : σ} {u : PUnit}, Returns (xs.forM f) s u s' → I s →
      (∀ x ∈ xs, ∀ t t' v, I t → Returns (f x) t v t' → I t') → I s'
  | [], s, s', u, h, hs, _ => by
    rw [returns_forM_nil] at h
    exact h ▸ hs
  | x :: xs, s, s', u, h, hs, hstep => by
    obtain ⟨v, t, hx, hxs⟩ := returns_forM_cons.mp h
    exact Returns.forM_induct hxs (hstep x (by simp) s t v hs hx)
      (fun y hy => hstep y (by simp [hy]))

@[simp] theorem returns_mapM_nil :
    Returns (([] : List α).mapM f) s bs s' ↔ [] = bs ∧ s = s' := by
  rw [List.mapM_nil]
  exact returns_pure

@[simp] theorem returns_mapM_cons {x : α}
    :
    Returns ((x :: xs).mapM f) s bs s'' ↔
      ∃ b s' rest, Returns (f x) s b s' ∧ Returns (xs.mapM f) s' rest s'' ∧ b :: rest = bs := by
  rw [List.mapM_cons]
  simp only [returns_bind, returns_pure]
  constructor
  · rintro ⟨b, s', hx, rest, t, hxs, rfl, rfl⟩
    exact ⟨b, s', rest, hx, hxs, rfl⟩
  · rintro ⟨b, s', rest, hx, hxs, rfl⟩
    exact ⟨b, s', hx, rest, s'', hxs, rfl, rfl⟩

theorem Returns.mapM_induct {I : σ → Prop}
    (h : Returns (xs.mapM f) s bs s') (hs : I s)
    (hstep : ∀ x ∈ xs, ∀ t t' b, I t → Returns (f x) t b t' → I t') : I s' := by
  induction xs generalizing s bs with
  | nil => exact (returns_mapM_nil.mp h).2 ▸ hs
  | cons x xs ih =>
    obtain ⟨b, t, rest, hx, hxs, -⟩ := returns_mapM_cons.mp h
    exact ih hxs (hstep x (by simp) s t b hs hx) (fun y hy => hstep y (by simp [hy]))

/-! ## 5. What a computation preserves -/

section Preservation

variable {I : σ → Prop}

end Preservation

end Tx

end Store
