/-
# JavaScript values

What a TypeScript program can receive from code it does not control.  Finite numbers are exact rationals,
because the programs only take floors, maxima and integer tests of them; a hole of an array is `undefined`, as
it reads.  Texts are of Unicode scalars; `toLowerCase` outside ASCII is given by a `Platform`.
-/
import Artgod.Js.Joined
import Mathlib.Data.List.Lex
import Mathlib.Data.List.Sort
import Mathlib.Data.Rat.Floor

namespace Js

/-! ## 1. Numbers -/

/-- A double. -/
inductive Number where
  | nan
  | posInfinity
  | negInfinity
  | finite (q : ℚ)
deriving DecidableEq

def maxSafeInteger : Int := 9007199254740991

/-- The integer that a number is, if it is one that is safe. -/
def Number.safeInteger? : Number → Option Int
  | .finite q => if q.den = 1 ∧ -maxSafeInteger ≤ q.num ∧ q.num ≤ maxSafeInteger then some q.num else none
  | _ => none

def Number.floor : Number → Number
  | .finite q => .finite ⌊q⌋
  | n => n

/-- `Math.max(1, n)`. -/
def Number.atLeastOne : Number → Number
  | .nan => .nan
  | .posInfinity => .posInfinity
  | .negInfinity => .finite 1
  | .finite q => .finite (max 1 q)

/-- `BigInt(n)`, which throws for anything but an integer. -/
def Number.toBigInt? : Number → Option Int
  | .finite q => if q.den = 1 then some q.num else none
  | _ => none

variable {s t : String} {i : Int} {n : Nat} {c : Char} {p : Platform} {α : Type}

theorem Number.safeInteger?_eq_some {n : Number} (h : n.safeInteger? = some i) :
    n = .finite i ∧ -maxSafeInteger ≤ i ∧ i ≤ maxSafeInteger := by
  cases n with
  | finite q =>
    rw [safeInteger?] at h
    split at h
    · next hq =>
      rw [Option.some.injEq] at h
      subst h
      refine ⟨?_, hq.2⟩
      rw [Number.finite.injEq]
      exact (Rat.coe_int_num_of_den_eq_one hq.1).symm
    · cases h
  | nan => cases h
  | posInfinity => cases h
  | negInfinity => cases h

theorem Number.safeInteger?_finite (h : -maxSafeInteger ≤ i) (h' : i ≤ maxSafeInteger) :
    (Number.finite i).safeInteger? = some i := by
  simp [safeInteger?, h, h']

@[simp] theorem Number.floor_int (i : Int) : (Number.finite i).floor = .finite i := by
  simp [floor]

theorem Number.atLeastOne_int (h : 0 < i) : (Number.finite i).atLeastOne = .finite i := by
  rw [atLeastOne]
  congr 1
  refine max_eq_right ?_
  exact_mod_cast h

@[simp] theorem Number.toBigInt?_int (i : Int) : (Number.finite i).toBigInt? = some i := by
  simp [toBigInt?]

/-! ## 2. Values -/

inductive Value where
  | undefined
  | null
  | bool (b : Bool)
  | number (n : Number)
  | bigint (i : Int)
  | string (s : String)
  | array (items : List Value)
  | object (fields : List (String × Value))
  | function

/-- `value[key]` of a record. -/
def field (fields : List (String × Value)) (key : String) : Value :=
  ((fields.find? (fun f => f.1 = key)).map (·.2)).getD .undefined

/-- A value that `structuredClone` copies: it has no function in it. -/
def Value.isCloneable : Value → Bool
  | .function => false
  | .array items => itemsCloneable items
  | .object fields => fieldsCloneable fields
  | _ => true
where
  itemsCloneable : List Value → Bool
    | [] => true
    | v :: rest => v.isCloneable && itemsCloneable rest
  fieldsCloneable : List (String × Value) → Bool
    | [] => true
    | (_, v) :: rest => v.isCloneable && fieldsCloneable rest

/-- The fields of an object that is not an array. -/
def Value.record? : Value → Option (List (String × Value))
  | .object fields => some fields
  | _ => none

def Value.array? : Value → Option (List Value)
  | .array items => some items
  | _ => none

def Value.string? : Value → Option String
  | .string s => some s
  | _ => none

def Value.bool? : Value → Option Bool
  | .bool b => some b
  | _ => none

/-- The value as a safe integer, if it is a number and one. -/
def Value.safeInteger? : Value → Option Int
  | .number n => n.safeInteger?
  | _ => none

/-! ## 3. Text -/

/-- The code points that `trim` removes. -/
def isSpace (c : Char) : Bool :=
  c.toNat ∈ [0x9, 0xa, 0xb, 0xc, 0xd, 0x20, 0xa0, 0x1680, 0x2000, 0x2001, 0x2002, 0x2003, 0x2004,
    0x2005, 0x2006, 0x2007, 0x2008, 0x2009, 0x200a, 0x2028, 0x2029, 0x202f, 0x205f, 0x3000, 0xfeff]

def trim (s : String) : String :=
  String.ofList (((s.toList.dropWhile isSpace).reverse.dropWhile isSpace).reverse)

/-- What the engine and its libraries bring. -/
structure Platform where
  /-- The lower case of a character outside ASCII. -/
  lowerNonAscii : Char → List Char
  /-- viem's `checksumAddress`. -/
  checksumAddress : String → String

/-- `toLowerCase` on ASCII. -/
def asciiLower (s : String) : String := String.ofList (s.toList.map Char.toLower)

def toLowerCase (p : Platform) (s : String) : String :=
  String.ofList (s.toList.flatMap (fun c =>
    if c.toNat < 128 then [c.toLower] else p.lowerNonAscii c))

/-- `[0-9a-fA-F]`. -/
def isHexDigit (c : Char) : Bool :=
  c.isDigit || ('a' ≤ c && c ≤ 'f') || ('A' ≤ c && c ≤ 'F')

/-- `/^0x[0-9a-fA-F]{n}$/`. -/
def isHexOfLength (n : Nat) (s : String) : Bool :=
  match s.toList with
  | '0' :: 'x' :: digits => digits.length = n && digits.all isHexDigit
  | _ => false

/-- `/^[1-9]\d*$/`. -/
def isPositiveDecimal (s : String) : Bool :=
  match s.toList with
  | c :: rest => '1' ≤ c && c ≤ '9' && rest.all Char.isDigit
  | [] => false

/-- `/^(0|[1-9]\d*)$/`. -/
def isCanonicalDecimal (s : String) : Bool := s = "0" || isPositiveDecimal s

/-- `/^0x[0-9a-fA-F]+$/`. -/
def isHexLiteral (s : String) : Bool :=
  match s.toList with
  | '0' :: 'x' :: digits => digits ≠ [] && digits.all isHexDigit
  | _ => false

def hexDigitValue (c : Char) : Nat :=
  if c.isDigit then c.toNat - 48 else if 'a' ≤ c then c.toNat - 87 else c.toNat - 55

/-- `BigInt(s)` of a decimal literal. -/
def decimalValue (s : String) : Nat := s.toList.foldl (fun n c => 10 * n + (c.toNat - 48)) 0

/-- `BigInt(s)` of a `0x` literal. -/
def hexValue (s : String) : Nat := (s.toList.drop 2).foldl (fun n c => 16 * n + hexDigitValue c) 0

/-- viem's `getAddress` accepts any spelling of twenty bytes and returns the checksummed one. -/
def getAddress? (p : Platform) (s : String) : Option String :=
  if isHexOfLength 40 s then some (p.checksumAddress s) else none

theorem isHexDigit_cases (h : isHexDigit c = true) :
    (48 ≤ c.toNat ∧ c.toNat ≤ 57) ∨ (97 ≤ c.toNat ∧ c.toNat ≤ 102) ∨ (65 ≤ c.toNat ∧ c.toNat ≤ 70) := by
  simp only [isHexDigit, Bool.or_eq_true, Bool.and_eq_true, decide_eq_true_eq, or_assoc] at h
  rcases h with h | h | h
  · exact Or.inl (Char.isDigit_iff_toNat.mp h)
  · exact Or.inr (Or.inl h)
  · exact Or.inr (Or.inr h)

theorem isHexOfLength_char (h : isHexOfLength n s = true)
    (hc : c ∈ s.toList) : c.toNat < 128 ∧ isSpace c = false := by
  have hrange : (48 ≤ c.toNat ∧ c.toNat ≤ 57) ∨ (97 ≤ c.toNat ∧ c.toNat ≤ 120) ∨
      (65 ≤ c.toNat ∧ c.toNat ≤ 70) := by
    rw [isHexOfLength] at h
    split at h
    · next digits hs =>
      rw [hs, List.mem_cons, List.mem_cons] at hc
      rw [Bool.and_eq_true, List.all_eq_true] at h
      rcases hc with rfl | rfl | hc
      · left
        decide
      · right
        left
        decide
      · have := isHexDigit_cases (h.2 c hc)
        omega
    · cases h
  refine ⟨by omega, ?_⟩
  simp only [isSpace, decide_eq_false_iff_not, List.mem_cons, List.not_mem_nil, or_false]
  omega

theorem toLowerCase_address (h : isHexOfLength n s = true) : toLowerCase p s = asciiLower s := by
  rw [toLowerCase, asciiLower, List.map_eq_flatMap]
  congr 1
  refine List.flatMap_congr (fun c hc => ?_)
  exact if_pos (isHexOfLength_char h hc).1

theorem dropWhile_of_none {p : α → Bool} {l : List α} (h : ∀ a ∈ l, p a = false) :
    l.dropWhile p = l := by
  cases l with
  | nil => rfl
  | cons a rest => simp [h a]

theorem trim_address (h : isHexOfLength n s = true) : trim s = s := by
  have hspace : ∀ c ∈ s.toList, isSpace c = false := fun c hc => (isHexOfLength_char h hc).2
  rw [trim, dropWhile_of_none hspace, dropWhile_of_none (fun c hc => hspace c (List.mem_reverse.mp hc)),
    List.reverse_reverse, String.ofList_toList]

theorem dropWhile_of_prefix {p : α → Bool} {l m : List α} (h : m <+: l.dropWhile p) :
    m.dropWhile p = m := by
  cases m with
  | nil => rfl
  | cons a rest =>
    obtain ⟨t, ht⟩ := h
    have hne : l.dropWhile p ≠ [] := by
      rw [← ht]
      exact List.cons_ne_nil _ _
    have hhead := List.head_dropWhile_not p hne
    simp only [← ht, List.cons_append, List.head_cons] at hhead
    rw [List.dropWhile_cons_of_neg (by simp [hhead])]

theorem trim_prefix (s : String) : (trim s).toList <+: s.toList.dropWhile isSpace := by
  have hsuffix := List.dropWhile_suffix isSpace (l := (s.toList.dropWhile isSpace).reverse)
  rw [← List.reverse_prefix, List.reverse_reverse] at hsuffix
  rw [trim, String.toList_ofList]
  exact hsuffix

theorem trim_trim (s : String) : trim (trim s) = trim s := by
  have hfront : ((s.toList.dropWhile isSpace).reverse.dropWhile isSpace).reverse.dropWhile isSpace =
      ((s.toList.dropWhile isSpace).reverse.dropWhile isSpace).reverse := by
    have hprefix := trim_prefix s
    rw [trim, String.toList_ofList] at hprefix
    exact dropWhile_of_prefix hprefix
  have hback : ((s.toList.dropWhile isSpace).reverse.dropWhile isSpace).dropWhile isSpace =
      (s.toList.dropWhile isSpace).reverse.dropWhile isSpace :=
    dropWhile_of_prefix (List.prefix_refl _)
  rw [trim, trim, String.toList_ofList, hfront, List.reverse_reverse, hback]

/-- The UTF-16 code units of a text. -/
def utf16Units (s : String) : List Nat :=
  s.toList.flatMap fun c =>
    if c.toNat < 0x10000 then [c.toNat]
    else [0xD800 + (c.toNat - 0x10000) / 0x400, 0xDC00 + (c.toNat - 0x10000) % 0x400]

theorem utf16Units_injective (h : utf16Units s = utf16Units t) : s = t := by
  refine String.toList_injective (flatMap_inj (fun c => ?_) (fun c d x y hcd => ?_) h)
  · split
    · exact List.cons_ne_nil _ _
    · exact List.cons_ne_nil _ _
  have hc : c.toNat < 0xD800 ∨ 0xDFFF < c.toNat ∧ c.toNat < 0x110000 := c.valid
  have hd : d.toNat < 0xD800 ∨ 0xDFFF < d.toNat ∧ d.toNat < 0x110000 := d.valid
  by_cases hc' : c.toNat < 0x10000
  · by_cases hd' : d.toNat < 0x10000
    · rw [if_pos hc', if_pos hd'] at hcd
      obtain ⟨hunit, hrest⟩ := List.cons.inj hcd
      exact ⟨Char.toNat_inj.mp hunit, hrest⟩
    · rw [if_pos hc', if_neg hd'] at hcd
      have hunit := (List.cons.inj hcd).1
      omega
  · by_cases hd' : d.toNat < 0x10000
    · rw [if_neg hc', if_pos hd'] at hcd
      have hunit := (List.cons.inj hcd).1
      omega
    rw [if_neg hc', if_neg hd'] at hcd
    obtain ⟨hhigh, hrest⟩ := List.cons.inj hcd
    obtain ⟨hlow, hrest⟩ := List.cons.inj hrest
    exact ⟨Char.toNat_inj.mp (by omega), hrest⟩

/-- `sort()` of texts, by their code units. -/
def sortTexts (texts : List String) : List String :=
  texts.insertionSort fun a b => utf16Units a ≤ utf16Units b

/-- The two texts spell the same address. -/
def SameAddress (s t : String) : Prop := asciiLower s = asciiLower t

/-- `checksumAddress` only chooses the case of letters. -/
def Platform.ChecksumKeepsAddress (p : Platform) : Prop :=
  ∀ s, isHexOfLength 40 s = true → SameAddress (p.checksumAddress s) s

theorem sameAddress_of_getAddress? (hp : p.ChecksumKeepsAddress) {a : String}
    (hs : getAddress? p s = some a) (ht : getAddress? p t = some a) : SameAddress s t := by
  rw [getAddress?] at hs ht
  split at hs
  · next hs' =>
    split at ht
    · next ht' =>
      rw [Option.some.injEq] at hs ht
      calc
        asciiLower s = asciiLower (p.checksumAddress s) := (hp s hs').symm
        _ = asciiLower (p.checksumAddress t) := by rw [hs, ht]
        _ = asciiLower t := hp t ht'
    · cases ht
  · cases hs

end Js
