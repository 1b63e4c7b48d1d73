/-
# Bounded retention of the strongest

A bounded collection holds a value for each of some keys.  `Accept` is one step: a value joins the one of its
key, the larger staying, or is taken while there is room, or by giving up the key with the smallest value.  It
keeps `TopK`.
-/
import Mathlib.Order.MinMax
import Mathlib.Logic.Function.Basic

namespace Store.Retention

open Function (update_self update_of_ne)

variable {κ β : Type} [DecidableEq κ] [LinearOrder β]

/-- What a collection that holds `held` may hold after the value `x` came for `k`. -/
inductive Accept (full : Prop) (held : κ → Option β) (k : κ) (x : β) : (κ → Option β) → Prop
  | join {old : β} (hold : held k = some old) : Accept full held k x (Function.update held k (some (max old x)))
  | refuse (hnew : held k = none) (hfull : full) (hweak : ∀ k' y, held k' = some y → x ≤ y) :
      Accept full held k x held
  | take (hnew : held k = none) (hroom : ¬ full) : Accept full held k x (Function.update held k (some x))
  | replace {w : κ} {y : β} (hnew : held k = none) (hfull : full) (hw : held w = some y)
      (hleast : ∀ k' z, held k' = some z → y ≤ z) (hstrong : y < x) :
      Accept full held k x (Function.update (Function.update held w none) k (some x))

/-- The collection holds the strongest of what came. -/
structure TopK (full : Prop) (held : κ → Option β) (came : κ → β → Prop) : Prop where
  carries : ∀ k x, held k = some x → came k x ∧ ∀ y, came k y → y ≤ x
  rest : ∀ k y, came k y → held k = none → full ∧ ∀ k' x, held k' = some x → y ≤ x

omit [DecidableEq κ] in
theorem TopK.start (full : Prop) (held : κ → Option β) : TopK full held fun k x => held k = some x where
  carries := by
    intro k x hx
    refine ⟨hx, fun y hy => ?_⟩
    rw [hx] at hy
    exact le_of_eq (Option.some.inj hy).symm
  rest := by
    intro k y hy hnone
    rw [hnone] at hy
    cases hy

variable {held : κ → Option β} {k' : κ}

omit [DecidableEq κ] in
theorem TopK.congr {full : Prop} {came came' : κ → β → Prop}
    (h : TopK full held came) (hsame : ∀ k x, came k x ↔ came' k x) : TopK full held came' :=
  ⟨fun k x hx => ⟨(hsame k x).mp (h.carries k x hx).1, fun y hy => (h.carries k x hx).2 y ((hsame k y).mpr hy)⟩,
    fun k y hy => h.rest k y ((hsame k y).mpr hy)⟩

omit [LinearOrder β] in
theorem none_of_put {k : κ} {v : β}
    (h : Function.update held k (some v) k' = none) : k' ≠ k ∧ held k' = none := by
  by_cases hk : k' = k
  · rw [hk, update_self] at h
    cases h
  · rw [update_of_ne hk] at h
    exact ⟨hk, h⟩

omit [LinearOrder β] in
theorem some_of_drop {w : κ} {z : β}
    (h : Function.update held w none k' = some z) : k' ≠ w ∧ held k' = some z := by
  by_cases hk : k' = w
  · rw [hk, update_self] at h
    cases h
  · rw [update_of_ne hk] at h
    exact ⟨hk, h⟩

omit [LinearOrder β] in
theorem none_of_drop {w : κ} (h : Function.update held w none k' = none) :
    held k' = none ∨ k' = w := by
  by_cases hk : k' = w
  · exact .inr hk
  · rw [update_of_ne hk] at h
    exact .inl h

section Step

variable {full full' : Prop} {held held' : κ → Option β} {came : κ → β → Prop} {k : κ} {x : β}

theorem TopK.carries_put (h : TopK full held came) {v : β} (hx : x ≤ v) (hv : v = x ∨ came k v)
    (hall : ∀ y, came k y → y ≤ v) {k' : κ} {z : β}
    (hz : Function.update held k (some v) k' = some z) :
    (came k' z ∨ k' = k ∧ z = x) ∧ ∀ y, came k' y ∨ k' = k ∧ y = x → y ≤ z := by
  by_cases hk : k' = k
  · subst hk
    rw [update_self] at hz
    cases hz
    refine ⟨hv.symm.imp id fun heq => ⟨rfl, heq⟩, ?_⟩
    rintro y (hy | ⟨-, rfl⟩)
    · exact hall y hy
    · exact hx
  · rw [update_of_ne hk] at hz
    obtain ⟨hcame, hle⟩ := h.carries k' z hz
    refine ⟨.inl hcame, ?_⟩
    rintro y (hy | ⟨rfl, -⟩)
    · exact hle y hy
    · exact absurd rfl hk

theorem TopK.accept (h : TopK full held came) (hstep : Accept full held k x held') (hfull' : full → full') :
    TopK full' held' fun k' y => came k' y ∨ k' = k ∧ y = x := by
  cases hstep with
  | @join old hold =>
    obtain ⟨hcame, hle⟩ := h.carries k old hold
    refine ⟨fun k' z hz => h.carries_put (le_max_right old x) ?_ (fun y hy => (hle y hy).trans (le_max_left ..)) hz,
      fun k' y hy hnone => ?_⟩
    · rcases max_choice old x with heq | heq
      · exact .inr (heq.symm ▸ hcame)
      · exact .inl heq
    obtain ⟨hk, hnone⟩ := none_of_put hnone
    have hy' : came k' y := hy.resolve_right fun hy => hk hy.1
    obtain ⟨hfull, hbelow⟩ := h.rest k' y hy' hnone
    refine ⟨hfull' hfull, fun k'' z hz => ?_⟩
    by_cases hk'' : k'' = k
    · rw [hk'', update_self] at hz
      cases hz
      exact (hbelow k old hold).trans (le_max_left ..)
    · rw [update_of_ne hk''] at hz
      exact hbelow k'' z hz
  | refuse hnew hfull hweak =>
    refine ⟨fun k' z hz => ?_, ?_⟩
    · obtain ⟨hcame, hle⟩ := h.carries k' z hz
      refine ⟨.inl hcame, ?_⟩
      rintro y (hy | ⟨rfl, -⟩)
      · exact hle y hy
      · rw [hnew] at hz
        cases hz
    · rintro k' y (hy | ⟨rfl, rfl⟩) hnone
      · exact ⟨hfull' hfull, (h.rest k' y hy hnone).2⟩
      · exact ⟨hfull' hfull, hweak⟩
  | take hnew hroom =>
    -- nothing was turned away so far: the key never came, and every key that came is held
    have hfirst : ∀ k' y, came k' y → held k' ≠ none := fun k' y hy hnone => hroom (h.rest k' y hy hnone).1
    refine ⟨fun k' z hz => h.carries_put le_rfl (.inl rfl) (fun y hy => absurd hnew (hfirst k y hy)) hz,
      fun k' y hy hnone => ?_⟩
    obtain ⟨hk, hnone⟩ := none_of_put hnone
    exact absurd hnone (hfirst k' y (hy.resolve_right fun hy => hk hy.1))
  | @replace w least hnew hfull hw hleast hstrong =>
    -- whatever is not held afterwards was no larger than the value given up
    have hbelow : ∀ k' y, came k' y → held k' = none ∨ k' = w → y ≤ least := by
      rintro k' y hy (hnone | rfl)
      · exact (h.rest k' y hy hnone).2 w least hw
      · exact (h.carries k' least hw).2 y hy
    have hdropped : TopK full (Function.update held w none) came := by
      refine ⟨fun k' z hz => ?_, fun k' y hy hnone => ⟨hfull, fun k'' z hz => ?_⟩⟩
      · exact h.carries k' z (some_of_drop hz).2
      · exact (hbelow k' y hy (none_of_drop hnone)).trans (hleast k'' z (some_of_drop hz).2)
    refine ⟨fun k' z hz => hdropped.carries_put le_rfl (.inl rfl) (fun y hy => ?_) hz,
      fun k' y hy hnone => ⟨hfull' hfull, fun k'' z hz => ?_⟩⟩
    · exact (hbelow k y hy (.inl hnew)).trans hstrong.le
    obtain ⟨hk, hnone⟩ := none_of_put hnone
    have hy' : came k' y := hy.resolve_right fun hy => hk hy.1
    by_cases hk'' : k'' = k
    · rw [hk'', update_self] at hz
      cases hz
      exact (hbelow k' y hy' (none_of_drop hnone)).trans hstrong.le
    · rw [update_of_ne hk''] at hz
      exact (hdropped.rest k' y hy' hnone).2 k'' z hz

end Step

end Store.Retention
