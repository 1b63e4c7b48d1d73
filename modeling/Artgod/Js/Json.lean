/-
# JSON texts of strings

`JSON.stringify` of a string: the text between quotes, with the quote, the backslash and the control
characters escaped.  A quoted string can be read off the front of a text, so that quoted strings that follow
one another are determined by the text (`quoteChars_append_inj`).
-/
import Mathlib.Tactic.Common

namespace Js

/-! ## 1. Quoting -/

/-- A digit of the escape of a control character. -/
def hexDigit (n : Nat) : Char := "0123456789abcdef".toList.getD n '0'

/-- What stands for a character between the quotes. -/
def escapeChar (c : Char) : List Char :=
  if c = '"' then ['\\', '"']
  else if c = '\\' then ['\\', '\\']
  else if c.toNat = 8 then ['\\', 'b']
  else if c.toNat = 9 then ['\\', 't']
  else if c.toNat = 10 then ['\\', 'n']
  else if c.toNat = 12 then ['\\', 'f']
  else if c.toNat = 13 then ['\\', 'r']
  else if c.toNat < 32 then ['\\', 'u', '0', '0', hexDigit (c.toNat / 16), hexDigit (c.toNat % 16)]
  else [c]

/-- The characters of `JSON.stringify` of a string. -/
def quoteChars (s : String) : List Char := '"' :: s.toList.flatMap escapeChar ++ ['"']

def quote (s : String) : String := String.ofList (quoteChars s)

theorem toList_quote (s : String) : (quote s).toList = quoteChars s := String.toList_ofList

/-! ## 2. Reading back -/

def hexDigitNumber (c : Char) : Nat := if c.toNat < 58 then c.toNat - 48 else c.toNat - 87

/-- The character that an escape of one letter stands for. -/
def unescape (c : Char) : Char :=
  if c = 'b' then Char.ofNat 8
  else if c = 't' then Char.ofNat 9
  else if c = 'n' then Char.ofNat 10
  else if c = 'f' then Char.ofNat 12
  else if c = 'r' then Char.ofNat 13
  else c

/-- What follows a backslash. -/
def readEscape : List Char → Option (Char × List Char)
  | 'u' :: _ :: _ :: high :: low :: rest =>
    some (Char.ofNat (16 * hexDigitNumber high + hexDigitNumber low), rest)
  | c :: rest => some (unescape c, rest)
  | [] => none

/-- One character of a quoted string, and what follows it. -/
def readChar : List Char → Option (Char × List Char)
  | [] => none
  | c :: rest => if c = '\\' then readEscape rest else some (c, rest)

theorem hexDigitNumber_hexDigit : ∀ n < 16, hexDigitNumber (hexDigit n) = n := by decide

theorem readChar_escapeChar (c : Char) (rest : List Char) :
    readChar (escapeChar c ++ rest) = some (c, rest) := by
  have hback : ∀ n, c.toNat = n → Char.ofNat n = c := fun n hn => by rw [← hn, Char.ofNat_toNat]
  unfold escapeChar
  split
  · next h => rw [h]; rfl
  split
  · next h => rw [h]; rfl
  split
  · next h => rw [← hback 8 h]; rfl
  split
  · next h => rw [← hback 9 h]; rfl
  split
  · next h => rw [← hback 10 h]; rfl
  split
  · next h => rw [← hback 12 h]; rfl
  split
  · next h => rw [← hback 13 h]; rfl
  split
  · next hcontrol =>
    -- a control character is its two digits
    have hnumber : 16 * hexDigitNumber (hexDigit (c.toNat / 16)) + hexDigitNumber (hexDigit (c.toNat % 16)) =
        c.toNat := by
      rw [hexDigitNumber_hexDigit _ (by omega), hexDigitNumber_hexDigit _ (by omega)]
      omega
    show some (Char.ofNat (16 * hexDigitNumber (hexDigit (c.toNat / 16)) +
      hexDigitNumber (hexDigit (c.toNat % 16))), rest) = some (c, rest)
    rw [hnumber, Char.ofNat_toNat]
  · next hquote hslash _ _ _ _ _ _ =>
    show readChar (c :: rest) = _
    rw [readChar, if_neg hslash]

theorem head_escapeChar (c : Char) (rest : List Char) : (escapeChar c ++ rest).head? ≠ some '"' := by
  unfold escapeChar
  split
  · simp
  next hquote =>
  split
  · simp
  split
  · simp
  split
  · simp
  split
  · simp
  split
  · simp
  split
  · simp
  split
  · simp
  · simpa using hquote

theorem quoteChars_append_inj {s t : String} {x y : List Char}
    (h : quoteChars s ++ x = quoteChars t ++ y) : s = t ∧ x = y := by
  have hchars : ∀ {l m : List Char} {x y : List Char},
      l.flatMap escapeChar ++ '"' :: x = m.flatMap escapeChar ++ '"' :: y → l = m ∧ x = y := by
    intro l
    induction l with
    | nil =>
      intro m x y h
      cases m with
      | nil => exact ⟨rfl, (List.cons.inj h).2⟩
      | cons d m =>
        rw [List.flatMap_cons, List.append_assoc] at h
        exact absurd (congrArg List.head? h).symm (head_escapeChar d _)
    | cons c l ih =>
      intro m x y h
      cases m with
      | nil =>
        rw [List.flatMap_cons, List.append_assoc] at h
        exact absurd (congrArg List.head? h) (head_escapeChar c _)
      | cons d m =>
        rw [List.flatMap_cons, List.flatMap_cons, List.append_assoc, List.append_assoc] at h
        have hread := congrArg readChar h
        rw [readChar_escapeChar, readChar_escapeChar] at hread
        obtain ⟨hcd, hrest⟩ := Prod.mk.inj (Option.some.inj hread)
        obtain ⟨hlm, hxy⟩ := ih hrest
        exact ⟨by rw [hcd, hlm], hxy⟩
  unfold quoteChars at h
  simp only [List.cons_append, List.cons.injEq, true_and, List.append_assoc, List.nil_append] at h
  obtain ⟨hst, hxy⟩ := hchars h
  exact ⟨String.toList_inj.mp hst, hxy⟩

end Js
