/-
# Token ids as texts

An EVM token id is an unsigned integer of 256 bits, and the programs hand it around as a decimal text.
`normalizeEvmTokenId` makes one text of every decimal spelling of an id and refuses everything else;
`BigInt` reads a text, decimal or not.

§3 is what the programs rely on: on the spellings of an id the two agree, and the normalized text of an id is
the one text that normalization leaves alone.
-/
import Artgod.Js.Value
import Artgod.Text.Decimal

namespace Artgod.Text

open Js

/-! ## 1. `BigInt` of a text -/

/-- The number that a literal of a radix writes, if it has digits of that radix and nothing else. -/
def literalValue? (radix : Nat) (isRadixDigit : Char → Bool) (digits : List Char) : Option Int :=
  if digits ≠ [] ∧ digits.all isRadixDigit then
    some (digits.foldl (fun n c => radix * n + hexDigitValue c) 0 : Nat)
  else none

/-- `BigInt(text)`, unless it throws. -/
def bigInt? (text : String) : Option Int :=
  match (trim text).toList with
  | [] => some 0
  | '0' :: 'x' :: digits | '0' :: 'X' :: digits => literalValue? 16 isHexDigit digits
  | '0' :: 'o' :: digits | '0' :: 'O' :: digits => literalValue? 8 (fun c => '0' ≤ c && c ≤ '7') digits
  | '0' :: 'b' :: digits | '0' :: 'B' :: digits => literalValue? 2 (fun c => c = '0' || c = '1') digits
  | '-' :: digits => (literalValue? 10 Char.isDigit digits).map fun n => -n
  | '+' :: digits => literalValue? 10 Char.isDigit digits
  | digits => literalValue? 10 Char.isDigit digits

/-! ## 2. Normalized token ids -/

def evmTokenIdMax : Nat := 2 ^ 256 - 1

def evmTokenIdDecimalLength : Nat := (toString evmTokenIdMax).length

def normalizeEvmTokenId : Value → Option String
  | .string value =>
    let text := (trim value).toList
    if ¬ (text ≠ [] ∧ text.all Char.isDigit) ∨ text.length > evmTokenIdDecimalLength then none
    else
      let tokenId := digitsValue text
      if tokenId ≤ evmTokenIdMax then some (toString tokenId) else none
  | _ => none

/-- `BigInt(text)` of a normalized token id. -/
def tokenIdValue (text : String) : Nat := digitsValue text.toList

/-- The text is the normalized one of its token id. -/
def IsTokenId (text : String) : Prop := normalizeEvmTokenId (.string text) = some text

instance (text : String) : Decidable (IsTokenId text) := inferInstanceAs (Decidable (_ = _))

/-! ## 3. Reading and writing token ids -/

theorem toList_toString (n : Nat) : (toString n).toList = Nat.toDigits 10 n := Nat.toList_repr

@[simp] theorem tokenIdValue_toString (n : Nat) : tokenIdValue (toString n) = n := by
  rw [tokenIdValue, toList_toString, digitsValue_toDigits]

theorem not_space_of_isDigit {c : Char} (h : c.isDigit = true) : isSpace c = false := by
  obtain ⟨hlo, hhi⟩ := toNat_of_isDigit h
  simp only [isSpace, decide_eq_false_iff_not, List.mem_cons, List.not_mem_nil, or_false]
  omega

theorem trim_digits {s : String} (h : IsDigits s.toList) : trim s = s := by
  have hspace : ∀ c ∈ s.toList, isSpace c = false := fun c hc => not_space_of_isDigit (h c hc)
  rw [trim, dropWhile_of_none hspace, dropWhile_of_none (fun c hc => hspace c (List.mem_reverse.mp hc)),
    List.reverse_reverse, String.ofList_toList]

theorem length_toDigits_le {n : Nat} (h : n ≤ evmTokenIdMax) :
    (Nat.toDigits 10 n).length ≤ evmTokenIdDecimalLength := by
  rw [evmTokenIdDecimalLength, ← String.length_toList, toList_toString]
  refine Nat.le_of_not_lt fun hlt => ?_
  exact absurd h (Nat.not_le_of_lt (lt_of_length_toDigits hlt))

theorem isTokenId_toString {n : Nat} (h : n ≤ evmTokenIdMax) : IsTokenId (toString n) := by
  have hdigits : IsDigits (toString n).toList := by
    rw [toList_toString]
    exact isDigits_toDigits n
  have hne : (toString n).toList ≠ [] := by
    rw [toList_toString]
    exact Nat.toDigits_ne_nil
  have hlength : ¬ (toString n).toList.length > evmTokenIdDecimalLength := by
    rw [toList_toString]
    exact Nat.not_lt_of_le (length_toDigits_le h)
  have hall : (toString n).toList.all Char.isDigit = true := List.all_eq_true.mpr hdigits
  unfold IsTokenId normalizeEvmTokenId
  dsimp only
  rw [trim_digits hdigits, if_neg (not_or.mpr ⟨not_not.mpr ⟨hne, hall⟩, hlength⟩), toList_toString,
    digitsValue_toDigits, if_pos h]

variable {text value : String}

/-- **What normalizes is the decimal spelling of an id**, up to zeros and white space around it. -/
theorem normalizeEvmTokenId_eq_some (h : normalizeEvmTokenId (.string value) = some text) :
    IsDigits (trim value).toList ∧ (trim value).toList ≠ [] ∧
      text = toString (digitsValue (trim value).toList) ∧ digitsValue (trim value).toList ≤ evmTokenIdMax := by
  unfold normalizeEvmTokenId at h
  dsimp only at h
  split at h
  · cases h
  next hvalid =>
  obtain ⟨hdigits, -⟩ := not_or.mp hvalid
  obtain ⟨hne, hall⟩ := not_not.mp hdigits
  split at h
  · next hle =>
    rw [Option.some.injEq] at h
    exact ⟨List.all_eq_true.mp hall, hne, h.symm, hle⟩
  · cases h

theorem isTokenId_of_normalize (h : normalizeEvmTokenId (.string value) = some text) : IsTokenId text := by
  obtain ⟨-, -, rfl, hle⟩ := normalizeEvmTokenId_eq_some h
  exact isTokenId_toString hle

theorem IsTokenId.le (h : IsTokenId text) : tokenIdValue text ≤ evmTokenIdMax := by
  obtain ⟨-, -, htext, hle⟩ := normalizeEvmTokenId_eq_some h
  rw [htext, tokenIdValue_toString]
  exact hle

theorem IsTokenId.eq_toString (h : IsTokenId text) : text = toString (tokenIdValue text) := by
  obtain ⟨-, -, htext, -⟩ := normalizeEvmTokenId_eq_some h
  rw [htext, tokenIdValue_toString]

theorem IsTokenId.eq_of_value {s t : String} (hs : IsTokenId s) (ht : IsTokenId t)
    (h : tokenIdValue s = tokenIdValue t) : s = t := by
  rw [hs.eq_toString, ht.eq_toString, h]

theorem literalValue?_digits {l : List Char} (h : IsDigits l) (hne : l ≠ []) :
    literalValue? 10 Char.isDigit l = some (digitsValue l : Int) := by
  have hfold : ∀ n, l.foldl (fun n c => 10 * n + hexDigitValue c) n = Nat.ofDigitChars 10 l n := by
    clear hne
    induction l with
    | nil => intro n; rfl
    | cons c rest ih =>
      intro n
      have hc : hexDigitValue c = c.toNat - '0'.toNat := if_pos (h c List.mem_cons_self)
      rw [List.foldl_cons, Nat.ofDigitChars_cons, hc, ih fun d hd => h d (List.mem_cons_of_mem c hd)]
  rw [literalValue?, if_pos ⟨hne, List.all_eq_true.mpr h⟩, hfold]
  rfl

theorem bigInt?_of_normalize (h : normalizeEvmTokenId (.string value) = some text) :
    bigInt? value = some (tokenIdValue text : Int) := by
  obtain ⟨hdigits, hne, rfl, -⟩ := normalizeEvmTokenId_eq_some h
  rw [tokenIdValue_toString]
  have hnot : ∀ (before : List Char) {c : Char} {rest : List Char},
      (trim value).toList = before ++ c :: rest → c.isDigit = true := by
    intro before c rest heq
    exact hdigits c (heq ▸ List.mem_append_right _ List.mem_cons_self)
  unfold bigInt?
  -- every other kind of literal has a character that is no digit
  split
  · next heq => exact absurd heq hne
  · next heq => exact absurd (hnot ['0'] heq) (by decide)
  · next heq => exact absurd (hnot ['0'] heq) (by decide)
  · next heq => exact absurd (hnot ['0'] heq) (by decide)
  · next heq => exact absurd (hnot ['0'] heq) (by decide)
  · next heq => exact absurd (hnot ['0'] heq) (by decide)
  · next heq => exact absurd (hnot ['0'] heq) (by decide)
  · next heq => exact absurd (hnot [] heq) (by decide)
  · next heq => exact absurd (hnot [] heq) (by decide)
  · exact literalValue?_digits hdigits hne

end Artgod.Text
