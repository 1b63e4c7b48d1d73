/-
# Words as four byte fields

A 32-bit word is read as four bytes; a mask that repeats one byte, a shift under such a mask and
the product that adds the bytes up each act on every byte alone.
-/
import Mathlib.Data.Nat.Bitwise
import Mathlib.Data.Nat.Count
import Mathlib.Tactic.Positivity
import Mathlib.Tactic.Ring

namespace Artgod.Bits

variable {a b c d m : Nat}

/-- The number with the bytes `a`, `b`, `c`, `d`, the lowest first. -/
def bytes (a b c d : Nat) : Nat := 2 ^ 8 * (2 ^ 8 * (2 ^ 8 * d + c) + b) + a

theorem bytes_lt (ha : a < 256) (hb : b < 256) (hc : c < 256) (hd : d < 256) : bytes a b c d < 2 ^ 32 := by
  unfold bytes
  omega

theorem bytes_of_lt {x : Nat} (hx : x < 2 ^ 32) :
    x = bytes (x % 256) (x / 2 ^ 8 % 256) (x / 2 ^ 16 % 256) (x / 2 ^ 24 % 256) := by
  unfold bytes
  omega

theorem and_fields {n w : Nat} (ha : a < 2 ^ w) (hm : m < 2 ^ w) :
    (2 ^ w * b + a) &&& (2 ^ w * n + m) = 2 ^ w * (b &&& n) + (a &&& m) := by
  refine Nat.eq_of_testBit_eq fun i => ?_
  simp only [Nat.testBit_and, Nat.testBit_two_pow_mul_add _ ha, Nat.testBit_two_pow_mul_add _ hm,
    Nat.testBit_two_pow_mul_add _ (Nat.and_lt_two_pow a hm)]
  split <;> rfl

theorem bytes_and (ha : a < 256) (hb : b < 256) (hc : c < 256) (hm : m < 256) :
    bytes a b c d &&& bytes m m m m = bytes (a &&& m) (b &&& m) (c &&& m) (d &&& m) := by
  unfold bytes
  rw [and_fields ha hm, and_fields hb hm, and_fields hc hm]

theorem bytes_div_and {h k : Nat} (ha : a < 256) (hb : b < 256) (hc : c < 256)
    (hm : 2 ^ k * m < 256) (hh : 2 ^ k * h =
      bytes (a &&& 2 ^ k * m) (b &&& 2 ^ k * m) (c &&& 2 ^ k * m) (d &&& 2 ^ k * m)) :
    bytes a b c d / 2 ^ k &&& bytes m m m m = h := by
  have hfull : bytes (2 ^ k * m) (2 ^ k * m) (2 ^ k * m) (2 ^ k * m) = 2 ^ k * bytes m m m m := by
    unfold bytes
    ring
  have hpos : 0 < 2 ^ k := by positivity
  rw [← bytes_and ha hb hc hm, hfull] at hh
  calc bytes a b c d / 2 ^ k &&& bytes m m m m = (bytes a b c d &&& 2 ^ k * bytes m m m m) / 2 ^ k := by
        rw [Nat.and_div_two_pow, Nat.mul_div_cancel_left _ hpos]
    _ = h := by rw [← hh, Nat.mul_div_cancel_left _ hpos]

/-- **Multiplying by `0x01010101` leaves the sum of the bytes in the top byte.** -/
theorem bytes_mul_top (ha : a ≤ 8) (hb : b ≤ 8) (hc : c ≤ 8) (hd : d ≤ 8) :
    bytes a b c d * 0x01010101 % 2 ^ 32 / 2 ^ 24 = a + b + c + d := by
  -- the low three bytes of the product stay below `2 ^ 24`, the rest is a multiple of `2 ^ 32`
  have hsplit : bytes a b c d * 0x01010101 = 2 ^ 24 * (a + b + c + d)
      + (a * 0x010101 + b * 0x010100 + c * 0x010000) + 2 ^ 32 * (b + c * 0x0101 + d * 0x010101) := by
    unfold bytes
    ring
  rw [hsplit, Nat.add_mul_mod_self_left, Nat.mod_eq_of_lt (by omega),
    Nat.mul_add_div (by decide), Nat.div_eq_of_lt (by omega), Nat.add_zero]

theorem count_congr {p q : Nat → Prop} [DecidablePred p] [DecidablePred q] {n : Nat}
    (h : ∀ i < n, p i ↔ q i) : Nat.count p n = Nat.count q n :=
  le_antisymm (Nat.count_mono_left fun i hi => (h i hi).mp) (Nat.count_mono_left fun i hi => (h i hi).mpr)

/-- The number of ones in a byte. -/
def ones (a : Nat) : Nat := Nat.count (fun i => a.testBit i) 8

theorem ones_byte (x k : Nat) : ones (x / 2 ^ k % 256) = Nat.count (fun i => x.testBit (k + i)) 8 := by
  refine count_congr fun i hi => ?_
  rw [show 256 = 2 ^ 8 from rfl, Nat.testBit_mod_two_pow, Nat.testBit_div_two_pow, Nat.add_comm]
  simp [hi]

theorem count_testBit (x : Nat) : Nat.count (fun i => x.testBit i) 32 =
    ones (x % 256) + ones (x / 2 ^ 8 % 256) + ones (x / 2 ^ 16 % 256) + ones (x / 2 ^ 24 % 256) := by
  have hlow := ones_byte x 0
  rw [pow_zero, Nat.div_one] at hlow
  rw [show 32 = 8 + 8 + 8 + 8 from rfl, Nat.count_add, Nat.count_add, Nat.count_add, hlow,
    ones_byte, ones_byte, ones_byte]
  simp only [Nat.zero_add]

theorem count_between (p : Nat → Prop) [DecidablePred p] {k l : Nat} (hkl : k ≤ l) (n : Nat) :
    Nat.count (fun i => p i ∧ k ≤ i ∧ i < l) n + Nat.count p (min n k) = Nat.count p (min n l) := by
  induction n with
  | zero => simp
  | succ n ih =>
    rw [Nat.count_succ]
    rcases Nat.lt_or_ge n k with hk | hk
    · rw [Nat.min_eq_left hk, Nat.min_eq_left (by omega), Nat.count_succ]
      rw [Nat.min_eq_left (by omega), Nat.min_eq_left (by omega)] at ih
      simp only [show ¬ k ≤ n by omega, false_and, and_false, if_false]
      omega
    · rw [Nat.min_eq_right (by omega)] at ih ⊢
      rcases Nat.lt_or_ge n l with hl | hl
      · rw [Nat.min_eq_left (by omega)] at ih ⊢
        rw [Nat.count_succ]
        simp only [hk, hl, and_true]
        omega
      · rw [Nat.min_eq_right hl] at ih
        rw [Nat.min_eq_right (by omega)]
        simp only [show ¬ n < l by omega, and_false, if_false]
        omega

end Artgod.Bits
