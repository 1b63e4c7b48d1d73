/-
# Token buckets

A bucket holds at most `max` tokens, gains `rate` of them for each unit of time, and is charged for what it
admits.  A refill does not raise its `potential`, the tokens less what the clock has brought, and a charge
lowers it by its cost; this bounds what is admitted between two moments.
-/
import Mathlib.Algebra.Order.Field.Basic
import Mathlib.Tactic.Linarith
import Mathlib.Tactic.Ring

namespace Flow

variable {K : Type} [Field K] [LinearOrder K]

structure Bucket (K : Type) where
  max : K
  rate : K
  tokens : K
  last : K

namespace Bucket

/-- The tokens brought up to the time `now`. -/
def refill (b : Bucket K) (now : K) : Bucket K :=
  if now ≤ b.last then b
  else { b with tokens := min b.max (b.tokens + (now - b.last) * b.rate), last := now }

def charge (b : Bucket K) (cost : K) : Bucket K := { b with tokens := b.tokens - cost }

/-- The tokens are within bounds, and time does not take any away. -/
structure Sound (b : Bucket K) : Prop where
  rate_nonneg : 0 ≤ b.rate
  tokens_nonneg : 0 ≤ b.tokens
  tokens_le : b.tokens ≤ b.max

/-- The tokens, less what the clock has brought. -/
def potential (b : Bucket K) : K := b.tokens - b.last * b.rate

@[simp] theorem refill_max (b : Bucket K) (now : K) : (b.refill now).max = b.max := by
  unfold refill
  split <;> rfl

@[simp] theorem refill_rate (b : Bucket K) (now : K) : (b.refill now).rate = b.rate := by
  unfold refill
  split <;> rfl

theorem refill_last (b : Bucket K) (now : K) : (b.refill now).last = Max.max b.last now := by
  unfold refill
  split
  · next h => exact (max_eq_left h).symm
  · next h => exact (max_eq_right (le_of_not_ge h)).symm

omit [LinearOrder K] in
theorem potential_charge (b : Bucket K) (cost : K) : (b.charge cost).potential = b.potential - cost := by
  unfold potential charge
  ring

variable [IsStrictOrderedRing K]

theorem Sound.refill {b : Bucket K} (h : b.Sound) (now : K) : (b.refill now).Sound := by
  unfold Bucket.refill
  split
  · exact h
  next hlater =>
  have helapsed : 0 ≤ (now - b.last) * b.rate :=
    mul_nonneg (sub_nonneg.mpr (le_of_not_ge hlater)) h.rate_nonneg
  have hmax : 0 ≤ b.max := le_trans h.tokens_nonneg h.tokens_le
  exact ⟨h.rate_nonneg, le_min hmax (add_nonneg h.tokens_nonneg helapsed), min_le_left _ _⟩

theorem Sound.charge {b : Bucket K} (h : b.Sound) {cost : K} (hnonneg : 0 ≤ cost) (hpaid : cost ≤ b.tokens) :
    (b.charge cost).Sound :=
  ⟨h.rate_nonneg, sub_nonneg.mpr hpaid, le_trans (sub_le_self _ hnonneg) h.tokens_le⟩

theorem potential_refill_le (b : Bucket K) (now : K) : (b.refill now).potential ≤ b.potential := by
  unfold refill
  split
  · exact le_refl _
  have hmin : min b.max (b.tokens + (now - b.last) * b.rate) ≤ b.tokens + (now - b.last) * b.rate :=
    min_le_right _ _
  unfold potential
  calc
    min b.max (b.tokens + (now - b.last) * b.rate) - now * b.rate
        ≤ b.tokens + (now - b.last) * b.rate - now * b.rate := sub_le_sub_right hmin _
    _ = b.tokens - b.last * b.rate := by ring

theorem Sound.potential_le {b : Bucket K} (h : b.Sound) : b.potential ≤ b.max - b.last * b.rate :=
  sub_le_sub_right h.tokens_le _

end Bucket

end Flow
