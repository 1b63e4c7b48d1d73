/-
# Decimal texts

Numbers as texts of decimal digits.  `Nat.toDigits 10` writes a number canonically, `Nat.ofDigitChars 10` reads any
digits back.  A program that works on the texts strips zeros, pads with zeros, splits at the point and compares
lengths; each of these is a statement about the value.

§2 is the canonical text of a value, §3 the order, §4 amounts with a fraction and the two directions between them
and their number of base units.
-/
import Mathlib.Algebra.Order.Field.Rat
import Mathlib.Data.List.DropRight
import Mathlib.Tactic.FieldSimp
import Mathlib.Tactic.IntervalCases
import Mathlib.Tactic.Ring

namespace Artgod.Text

/-! ## 1. Digits -/

/-- Decimal digits, and nothing else. -/
def IsDigits (l : List Char) : Prop := ∀ c ∈ l, c.isDigit = true

instance (l : List Char) : Decidable (IsDigits l) := decidable_of_iff (l.all Char.isDigit = true) List.all_eq_true

/-- The number that the digits write. -/
def digitsValue (l : List Char) : Nat := Nat.ofDigitChars 10 l 0

variable {fraction l m text whole : List Char} {d n : Nat} {c : Char}

theorem toNat_of_isDigit (h : c.isDigit = true) : 48 ≤ c.toNat ∧ c.toNat ≤ 57 :=
  Char.isDigit_iff_toNat.mp h

theorem digitChar_of_isDigit (h : c.isDigit = true) : Nat.digitChar (c.toNat - 48) = c := by
  obtain ⟨hlo, hhi⟩ := toNat_of_isDigit h
  have hc : Char.ofNat c.toNat = c := Char.ofNat_toNat c
  generalize c.toNat = n at hlo hhi hc
  subst hc
  interval_cases n <;> rfl

theorem IsDigits.append (hl : IsDigits l) (hm : IsDigits m) : IsDigits (l ++ m) :=
  fun c hc => (List.mem_append.mp hc).elim (hl c) (hm c)

theorem IsDigits.sublist (hm : IsDigits m) (h : l.Sublist m) : IsDigits l := fun c hc => hm c (h.subset hc)

theorem isDigits_zeros (n : Nat) : IsDigits (List.replicate n '0') := by
  intro c hc
  rw [List.eq_of_mem_replicate hc]
  decide

theorem isDigits_toDigits (n : Nat) : IsDigits (Nat.toDigits 10 n) :=
  fun _ hc => Nat.isDigit_of_mem_toDigits (by decide) (by decide) hc

@[simp] theorem digitsValue_toDigits (n : Nat) : digitsValue (Nat.toDigits 10 n) = n := Nat.ofDigitChars_ten_toDigits

theorem digitsValue_append (l m : List Char) :
    digitsValue (l ++ m) = 10 ^ m.length * digitsValue l + digitsValue m := by
  rw [digitsValue, Nat.ofDigitChars_append, Nat.ofDigitChars_eq_ofDigitChars_zero]
  rfl

@[simp] theorem digitsValue_zeros (n : Nat) : digitsValue (List.replicate n '0') = 0 := by
  rw [digitsValue, Nat.ofDigitChars_replicate_zero, Nat.mul_zero]

theorem digitsValue_singleton (c : Char) : digitsValue [c] = c.toNat - 48 := by
  rw [digitsValue, Nat.ofDigitChars_cons, Nat.ofDigitChars_nil, Nat.mul_zero, Nat.zero_add]
  rfl

theorem digitsValue_cons (c : Char) (l : List Char) :
    digitsValue (c :: l) = 10 ^ l.length * (c.toNat - 48) + digitsValue l := by
  rw [← List.singleton_append, digitsValue_append, digitsValue_singleton]

theorem digitsValue_lt (h : IsDigits l) : digitsValue l < 10 ^ l.length := by
  induction l with
  | nil => decide
  | cons c rest ih =>
    obtain ⟨-, hc⟩ := toNat_of_isDigit (h c List.mem_cons_self)
    have hrest := ih fun d hd => h d (List.mem_cons_of_mem c hd)
    rw [digitsValue_cons, List.length_cons, pow_succ]
    have hle : 10 ^ rest.length * (c.toNat - 48) ≤ 10 ^ rest.length * 9 := Nat.mul_le_mul_left _ (by omega)
    omega

/-! ## 2. The canonical text -/

/-- Without the zeros in front. -/
def stripZeros (l : List Char) : List Char := l.dropWhile (· = '0')

/-- Without the zeros in front, and a zero where nothing is left. -/
def canonicalDigits (l : List Char) : List Char := if stripZeros l = [] then ['0'] else stripZeros l

theorem takeWhile_zeros (l : List Char) :
    l.takeWhile (· = '0') = List.replicate (l.takeWhile (· = '0')).length '0' := by
  refine List.eq_replicate_iff.mpr ⟨rfl, fun c hc => ?_⟩
  have hzero := List.mem_takeWhile_imp hc
  exact of_decide_eq_true hzero

theorem digitsValue_stripZeros (l : List Char) : digitsValue (stripZeros l) = digitsValue l := by
  conv_rhs => rw [← List.takeWhile_append_dropWhile (p := (· = '0')) (l := l), takeWhile_zeros l, digitsValue_append,
    digitsValue_zeros, Nat.mul_zero, Nat.zero_add]
  rfl

theorem IsDigits.stripZeros (h : IsDigits l) : IsDigits (stripZeros l) :=
  h.sublist (List.dropWhile_sublist _)

theorem stripZeros_head (h : (stripZeros l).head? = some c) : c ≠ '0' := by
  have hnot := List.head?_dropWhile_not (fun c => decide (c = '0')) l
  rw [show l.dropWhile (fun c => decide (c = '0')) = stripZeros l from rfl, h] at hnot
  simpa using hnot

/-- **Digits that do not begin with a zero are the canonical text of what they write.** -/
theorem eq_toDigits_of_head (h : IsDigits l) (hne : l ≠ []) (hhead : l.head? ≠ some '0') :
    l = Nat.toDigits 10 (digitsValue l) ∧ 0 < digitsValue l := by
  induction l using List.reverseRecOn with
  | nil => exact absurd rfl hne
  | append_singleton front c ih =>
    have hc : c.isDigit = true := h c (List.mem_append_right _ (List.mem_singleton.mpr rfl))
    obtain ⟨hlo, hhi⟩ := toNat_of_isDigit hc
    have hlast : Nat.toDigits 10 (c.toNat - 48) = [c] := by
      rw [Nat.toDigits_of_lt_base (by omega), digitChar_of_isDigit hc]
    by_cases hfront : front = []
    · subst hfront
      rw [List.nil_append, digitsValue_singleton, hlast]
      refine ⟨rfl, Nat.pos_of_ne_zero fun hzero => hhead ?_⟩
      have hchar := digitChar_of_isDigit hc
      rw [hzero] at hchar
      rw [List.nil_append, List.head?_cons, ← hchar]
      rfl
    · have hfront' := ih (fun d hd => h d (List.mem_append_left _ hd)) hfront fun heq => hhead <| by
        rw [List.head?_append_of_ne_nil _ hfront, heq]
      rw [digitsValue_append, digitsValue_singleton, List.length_singleton, pow_one,
        ← Nat.toDigits_append_toDigits (by decide) hfront'.2 (by omega), hlast, ← hfront'.1]
      exact ⟨rfl, Nat.add_pos_left (Nat.mul_pos (by decide) hfront'.2) _⟩

theorem canonicalDigits_eq (h : IsDigits l) : canonicalDigits l = Nat.toDigits 10 (digitsValue l) := by
  unfold canonicalDigits
  split
  · next hnil => rw [← digitsValue_stripZeros l, hnil]; rfl
  next hne =>
  have hcanonical := eq_toDigits_of_head h.stripZeros hne fun hhead => stripZeros_head hhead rfl
  rw [digitsValue_stripZeros] at hcanonical
  exact hcanonical.1

theorem head_toDigits (hn : 0 < n) : (Nat.toDigits 10 n).head? ≠ some '0' := by
  intro hhead
  have hcanonical := canonicalDigits_eq (isDigits_toDigits n)
  rw [digitsValue_toDigits] at hcanonical
  unfold canonicalDigits at hcanonical
  split at hcanonical
  · have hzero := congrArg digitsValue hcanonical
    rw [digitsValue_toDigits] at hzero
    exact absurd hzero (by rw [digitsValue_singleton]; exact hn.ne)
  · rw [← hcanonical] at hhead
    exact stripZeros_head hhead rfl

/-! ## 3. Order -/

theorem digits_lt_iff (hl : IsDigits l) (hm : IsDigits m) (hlength : l.length = m.length) :
    l < m ↔ digitsValue l < digitsValue m := by
  induction l generalizing m with
  | nil =>
    rw [List.length_nil, eq_comm, List.length_eq_zero_iff] at hlength
    subst hlength
    exact iff_of_false (List.lt_irrefl _) (lt_irrefl _)
  | cons c rest ih =>
    cases m with
    | nil => cases hlength
    | cons d others =>
      have hlength : rest.length = others.length := Nat.succ.inj hlength
      have hrest : IsDigits rest := fun e he => hl e (List.mem_cons_of_mem c he)
      have hothers : IsDigits others := fun e he => hm e (List.mem_cons_of_mem d he)
      obtain ⟨hc, -⟩ := toNat_of_isDigit (hl c List.mem_cons_self)
      obtain ⟨hd, -⟩ := toNat_of_isDigit (hm d List.mem_cons_self)
      have hrestlt := digitsValue_lt hrest
      have hotherslt := digitsValue_lt hothers
      rw [List.cons_lt_cons_iff, ih hrest hothers hlength, digitsValue_cons, digitsValue_cons, ← hlength]
      rw [← hlength] at hotherslt
      rcases lt_trichotomy c.toNat d.toNat with hlt | heq | hgt
      · have hchar : c < d := hlt
        have hle : 10 ^ rest.length * (c.toNat - 48 + 1) ≤ 10 ^ rest.length * (d.toNat - 48) :=
          Nat.mul_le_mul_left _ (by omega)
        exact iff_of_true (.inl hchar) (by rw [Nat.mul_add] at hle; omega)
      · have hchar : c = d := Char.toNat_inj.mp heq
        subst hchar
        rw [or_iff_right (Char.lt_irrefl c), and_iff_right rfl]
        exact (Nat.add_lt_add_iff_left).symm
      · have hchar : ¬(c < d ∨ c = d ∧ digitsValue rest < digitsValue others) := by
          rintro (hlt | ⟨rfl, -⟩)
          · exact absurd (show c.toNat < d.toNat from hlt) (by omega)
          · omega
        have hle : 10 ^ rest.length * (d.toNat - 48 + 1) ≤ 10 ^ rest.length * (c.toNat - 48) :=
          Nat.mul_le_mul_left _ (by omega)
        exact iff_of_false hchar (by rw [Nat.mul_add] at hle; omega)

theorem lt_of_length_toDigits {m : Nat} (h : (Nat.toDigits 10 m).length < (Nat.toDigits 10 n).length) : m < n := by
  have hm := (Nat.length_toDigits_le_iff (by decide) Nat.length_toDigits_pos).mp (le_refl (Nat.toDigits 10 m).length)
  have hn := mt (Nat.length_toDigits_le_iff (n := n) (by decide) (@Nat.length_toDigits_pos 10 m)).mpr (not_le.mpr h)
  omega

/-- **Canonical texts are ordered by length, and then by their digits.** -/
theorem toDigits_lt_iff {m : Nat} :
    (Nat.toDigits 10 m).length < (Nat.toDigits 10 n).length ∨
        (Nat.toDigits 10 m).length = (Nat.toDigits 10 n).length ∧ Nat.toDigits 10 m < Nat.toDigits 10 n ↔ m < n := by
  rcases lt_trichotomy (Nat.toDigits 10 m).length (Nat.toDigits 10 n).length with hlt | heq | hgt
  · exact iff_of_true (.inl hlt) (lt_of_length_toDigits hlt)
  · rw [or_iff_right (by omega), and_iff_right heq, digits_lt_iff (isDigits_toDigits m) (isDigits_toDigits n) heq,
      digitsValue_toDigits, digitsValue_toDigits]
  · refine iff_of_false (fun h => h.elim (by omega) fun h => by omega) ?_
    exact not_lt.mpr (lt_of_length_toDigits hgt).le

/-! ## 4. Amounts -/

/-- `whole.fraction`, or `whole` alone, with at most `d` digits after the point. -/
structure AmountText (d : Nat) (text whole fraction : List Char) : Prop where
  whole_ne_nil : whole ≠ []
  isDigits_whole : IsDigits whole
  isDigits_fraction : IsDigits fraction
  length_le : fraction.length ≤ d
  text_eq : text = if fraction = [] then whole else whole ++ '.' :: fraction

/-- The number before the point, and the fraction after it. -/
def amountValue (whole fraction : List Char) : ℚ := digitsValue whole + digitsValue fraction / 10 ^ fraction.length

/-- The text is a decimal with at most `d` digits after the point, and this is its value. -/
def Denotes (d : Nat) (text : List Char) (amount : ℚ) : Prop :=
  ∃ whole fraction, AmountText d text whole fraction ∧ amount = amountValue whole fraction

/-- The digits of an amount, with as many zeros as make it base units. -/
def baseUnitDigits (d : Nat) (whole fraction : List Char) : List Char :=
  whole ++ (fraction ++ List.replicate (d - fraction.length) '0')

/-- **The digits with the zeros behind them write the amount in base units.** -/
theorem digitsValue_baseUnitDigits (h : fraction.length ≤ d) :
    (digitsValue (baseUnitDigits d whole fraction) : ℚ) = amountValue whole fraction * 10 ^ d := by
  obtain ⟨k, rfl⟩ := Nat.exists_eq_add_of_le h
  have hpow : (10 : ℚ) ^ fraction.length ≠ 0 := pow_ne_zero _ (by norm_num)
  rw [baseUnitDigits, digitsValue_append, digitsValue_append, digitsValue_zeros, List.length_append,
    List.length_replicate, Nat.add_sub_cancel_left, amountValue]
  push_cast
  field_simp
  ring

theorem point_not_mem (h : IsDigits l) : '.' ∉ l := fun hmem => absurd (h '.' hmem) (by decide)

theorem AmountText.splitOn (h : AmountText d text whole fraction) :
    text.splitOn '.' = if fraction = [] then [whole] else [whole, fraction] := by
  rw [h.text_eq]
  split
  · exact List.splitOn_eq_singleton (point_not_mem h.isDigits_whole)
  · rw [List.splitOn_append_cons_self, List.splitOn_eq_singleton (point_not_mem h.isDigits_whole),
      List.splitOn_eq_singleton (point_not_mem h.isDigits_fraction)]
    rfl

theorem Denotes.unique {amount amount' : ℚ} (h : Denotes d text amount)
    (h' : Denotes d text amount') : amount = amount' := by
  obtain ⟨whole, fraction, htext, rfl⟩ := h
  obtain ⟨whole', fraction', htext', rfl⟩ := h'
  have hparts := htext.splitOn.symm.trans htext'.splitOn
  split at hparts
  · next hnone =>
    split at hparts
    · next hnone' =>
      cases hparts
      rw [hnone, hnone']
    · cases hparts
  · split at hparts
    · cases hparts
    · cases hparts
      rfl

theorem amountText_of_splitOn (hne : whole ≠ []) (hwhole : IsDigits whole)
    (hfraction : IsDigits fraction) (hlength : fraction.length ≤ d)
    (hparts : text.splitOn '.' = if fraction = [] then [whole] else [whole, fraction]) :
    AmountText d text whole fraction := by
  refine ⟨hne, hwhole, hfraction, hlength, ?_⟩
  have hjoined : ['.'].intercalate (text.splitOn '.') = text := List.intercalate_splitOn '.'
  rw [← hjoined, hparts]
  split
  · simp [List.intercalate]
  · simp [List.intercalate]

/-! ### From base units back to a text -/

/-- Without the zeros at the end. -/
def stripTrailingZeros (l : List Char) : List Char := l.rdropWhile (· = '0')

theorem eq_stripTrailingZeros_append (l : List Char) :
    ∃ k, l = stripTrailingZeros l ++ List.replicate k '0' := by
  refine ⟨(l.rtakeWhile (· = '0')).length, ?_⟩
  have hzeros : l.rtakeWhile (· = '0') = List.replicate (l.rtakeWhile (· = '0')).length '0' := by
    refine List.eq_replicate_iff.mpr ⟨rfl, fun c hc => ?_⟩
    have hzero := List.mem_rtakeWhile_imp hc
    exact of_decide_eq_true hzero
  rw [← hzeros]
  exact List.rdropWhile_append_rtakeWhile.symm

/-- Digits with zeros in front of them, up to a width. -/
def padDigits (width : Nat) (l : List Char) : List Char := List.replicate (width - l.length) '0' ++ l

theorem isDigits_padDigits {width : Nat} (h : IsDigits l) : IsDigits (padDigits width l) :=
  (isDigits_zeros _).append h

theorem digitsValue_padDigits (width : Nat) (l : List Char) : digitsValue (padDigits width l) = digitsValue l := by
  rw [padDigits, digitsValue_append, digitsValue_zeros, Nat.mul_zero, Nat.zero_add]

theorem length_padDigits (width : Nat) (l : List Char) : width ≤ (padDigits width l).length := by
  rw [padDigits, List.length_append, List.length_replicate]
  omega

/-- The text of an amount. -/
def amountText (whole fraction : List Char) : List Char := if fraction = [] then whole else whole ++ '.' :: fraction

/-- **Digits with a point before the last `d` of them,** without the zeros that do not count, are a text of their value
over `10 ^ d`. -/
theorem denotes_split (hl : IsDigits l) (hlength : d ≤ l.length) :
    Denotes d (amountText (canonicalDigits (l.take (l.length - d))) (stripTrailingZeros (l.drop (l.length - d))))
      (digitsValue l / 10 ^ d) := by
  have hwhole : IsDigits (l.take (l.length - d)) := hl.sublist (List.take_sublist _ _)
  have hfraction : IsDigits (l.drop (l.length - d)) := hl.sublist (List.drop_sublist _ _)
  obtain ⟨k, hk⟩ := eq_stripTrailingZeros_append (l.drop (l.length - d))
  have hdrop : (l.drop (l.length - d)).length = d := by
    rw [List.length_drop]
    omega
  have hsum : (stripTrailingZeros (l.drop (l.length - d))).length + k = d := by
    have hlengths := congrArg List.length hk
    rw [hdrop, List.length_append, List.length_replicate] at hlengths
    exact hlengths.symm
  have hvalue : digitsValue l = 10 ^ d * digitsValue (l.take (l.length - d)) +
        10 ^ k * digitsValue (stripTrailingZeros (l.drop (l.length - d))) := by
    conv_lhs => rw [← List.take_append_drop (l.length - d) l, digitsValue_append, hdrop, hk, digitsValue_append,
      digitsValue_zeros, List.length_replicate, Nat.add_zero]
  refine ⟨_, _, ⟨?_, ?_, ?_, ?_, rfl⟩, ?_⟩
  · rw [canonicalDigits_eq hwhole]
    exact Nat.toDigits_ne_nil
  · rw [canonicalDigits_eq hwhole]
    exact isDigits_toDigits _
  · rw [hk] at hfraction
    exact hfraction.sublist (List.sublist_append_left _ _)
  · omega
  have hpower : (10 : ℚ) ^ d = 10 ^ (stripTrailingZeros (l.drop (l.length - d))).length * 10 ^ k := by
    rw [← pow_add, hsum]
  have hk : (10 : ℚ) ^ k ≠ 0 := pow_ne_zero _ (by norm_num)
  have hkept : (10 : ℚ) ^ (stripTrailingZeros (l.drop (l.length - d))).length ≠ 0 := pow_ne_zero _ (by norm_num)
  rw [canonicalDigits_eq hwhole, amountValue, digitsValue_toDigits, hvalue]
  push_cast
  rw [hpower]
  field_simp

end Artgod.Text
