/-
# From what is reviewed to what is enforced

The amounts of a bidding mandate are entered as decimals; the desktop application turns them into texts of base
units (`bidding_mandate.rs`), shows these as decimals and serializes them for the bot, which reads integers
(`bidding-mandate.ts`).  Every amount that the bot enforces is the one that was entered and shown.  256-bit
integers come from a library, `U256Text`.
-/
import Mathlib.Data.String.Basic
import Artgod.Text.Decimal
import Artgod.Trading.SecretEnvelope
import Artgod.Trading.ParentSecretChannel

namespace Artgod.Trading

open Js Text

/-! ## 1. Texts and integers of the native side -/

/-- `char::is_whitespace`. -/
def isRustSpace (c : Char) : Bool :=
  c.toNat ∈ [0x9, 0xa, 0xb, 0xc, 0xd, 0x20, 0x85, 0xa0, 0x1680, 0x2000, 0x2001, 0x2002, 0x2003, 0x2004, 0x2005,
    0x2006, 0x2007, 0x2008, 0x2009, 0x200a, 0x2028, 0x2029, 0x202f, 0x205f, 0x3000]

/-- `str::trim`. -/
def rustTrim (s : String) : String := String.ofList ((s.toList.dropWhile isRustSpace).rdropWhile isRustSpace)

/-- `U256`: `str::parse`, and `{:0width$}`. -/
structure U256Text where
  parse : String → Option Nat
  display : Nat → Nat → String
  parse_digits : ∀ digits, digits ≠ [] → IsDigits digits →
    parse (String.ofList digits) = if digitsValue digits < 2 ^ 256 then some (digitsValue digits) else none
  display_digits : ∀ width n, n < 2 ^ 256 → display width n = String.ofList (padDigits width (Nat.toDigits 10 n))

section Amounts

variable (u : U256Text)

/-- `parse_decimal_to_base_units`.  Nothing but ASCII digits is kept, so that a length in bytes is one in
characters. -/
def parseDecimalToBaseUnits (raw : String) (decimals : Nat) : Option String :=
  match (rustTrim raw).toList.splitOn '.' with
  | [] => none
  | whole :: parts =>
    let fraction := parts.head?
    if parts.tail ≠ [] ∨ whole = [] ∨ ¬IsDigits whole ∨
        ∃ digits ∈ fraction, digits = [] ∨ decimals < digits.length ∨ ¬IsDigits digits then none
    else
      let normalizedWhole := canonicalDigits whole
      let fractionalWei := fraction.getD [] ++ List.replicate (decimals - (fraction.getD []).length) '0'
      let normalizedWei := String.ofList (canonicalDigits (normalizedWhole ++ fractionalWei))
      match u.parse normalizedWei with
      | none => none
      | some _ => some normalizedWei

def formatBaseUnits (wei : String) (decimals : Nat) (error : String) : Except String String :=
  match u.parse wei with
  | none => .error error
  | some parsed =>
    let padded := (u.display (decimals + 1) parsed).toList
    let splitAt := padded.length - decimals
    .ok (String.ofList (amountText (canonicalDigits (padded.take splitAt)) (stripTrailingZeros (padded.drop splitAt))))

/-! ## 2. Amounts in both directions -/

theorem repr_eq_ofList (n : Nat) : n.repr = String.ofList (Nat.toDigits 10 n) := Nat.repr_eq_ofList_toDigits

variable {d n : Nat} {raw : String}

theorem U256Text.parse_repr (h : n < 2 ^ 256) : u.parse n.repr = some n := by
  rw [repr_eq_ofList, u.parse_digits _ Nat.toDigits_ne_nil (isDigits_toDigits n), digitsValue_toDigits, if_pos h]

theorem canonical_baseUnits {d : Nat} {whole fraction : List Char} (hwhole : IsDigits whole)
    (hfraction : IsDigits fraction) :
    canonicalDigits (canonicalDigits whole ++ (fraction ++ List.replicate (d - fraction.length) '0')) =
      Nat.toDigits 10 (digitsValue (baseUnitDigits d whole fraction)) := by
  have hdigits : IsDigits (canonicalDigits whole ++ (fraction ++ List.replicate (d - fraction.length) '0')) := by
    rw [canonicalDigits_eq hwhole]
    exact (isDigits_toDigits _).append (hfraction.append (isDigits_zeros _))
  rw [canonicalDigits_eq hdigits, baseUnitDigits, digitsValue_append, digitsValue_append whole, canonicalDigits_eq hwhole,
    digitsValue_toDigits]

theorem parse_of_amountText {whole fraction : List Char}
    (h : AmountText d (rustTrim raw).toList whole fraction) :
    parseDecimalToBaseUnits u raw d =
      if digitsValue (baseUnitDigits d whole fraction) < 2 ^ 256 then
        some (digitsValue (baseUnitDigits d whole fraction)).repr
      else none := by
  have hparse := u.parse_digits _ Nat.toDigits_ne_nil (isDigits_toDigits (digitsValue (baseUnitDigits d whole fraction)))
  rw [digitsValue_toDigits] at hparse
  have hdigits := @canonical_baseUnits d whole fraction h.isDigits_whole h.isDigits_fraction
  have hread : (match u.parse (String.ofList (canonicalDigits (canonicalDigits whole ++
        (fraction ++ List.replicate (d - fraction.length) '0')))) with
      | none => none
      | some _ => some (String.ofList (canonicalDigits (canonicalDigits whole ++
          (fraction ++ List.replicate (d - fraction.length) '0'))))) =
      if digitsValue (baseUnitDigits d whole fraction) < 2 ^ 256 then
        some (digitsValue (baseUnitDigits d whole fraction)).repr
      else none := by
    rw [hdigits, hparse]
    by_cases hfits : digitsValue (baseUnitDigits d whole fraction) < 2 ^ 256
    · rw [if_pos hfits, if_pos hfits, repr_eq_ofList]
    · rw [if_neg hfits, if_neg hfits]
  unfold parseDecimalToBaseUnits
  rw [h.splitOn]
  by_cases hnone : fraction = []
  · subst hnone
    rw [if_pos rfl]
    dsimp only
    rw [if_neg (by simp [h.whole_ne_nil, h.isDigits_whole])]
    exact hread
  · rw [if_neg hnone]
    dsimp only
    rw [if_neg (by simp [h.whole_ne_nil, h.isDigits_whole, hnone, h.length_le, h.isDigits_fraction])]
    exact hread

variable {wei : String} {text : List Char} {amount : ℚ}

theorem amountText_of_parse (h : parseDecimalToBaseUnits u raw d = some wei) :
    ∃ whole fraction, AmountText d (rustTrim raw).toList whole fraction := by
  unfold parseDecimalToBaseUnits at h
  split at h
  · cases h
  next whole parts hparts =>
  dsimp only at h
  split at h
  · cases h
  next hchecks =>
  simp only [not_or, not_exists, not_and, ne_eq, not_not] at hchecks
  obtain ⟨htail, hne, hwhole, hfraction⟩ := hchecks
  cases parts with
  | nil =>
    exact ⟨whole, [], amountText_of_splitOn hne hwhole (fun _ hc => absurd hc List.not_mem_nil) (Nat.zero_le d) hparts⟩
  | cons fraction rest =>
    obtain rfl : rest = [] := htail
    obtain ⟨hfilled, hlength, hdigits⟩ := hfraction fraction rfl
    refine ⟨whole, fraction, amountText_of_splitOn hne hwhole hdigits (not_lt.mp hlength) ?_⟩
    rw [if_neg hfilled]
    exact hparts

/-- **What is parsed:** a decimal with at most `d` digits after the point whose base units fit into 256 bits, to the
canonical text of its base units. -/
theorem parseDecimalToBaseUnits_eq_some : parseDecimalToBaseUnits u raw d = some wei ↔
      ∃ amount, ∃ n : Nat, Denotes d (rustTrim raw).toList amount ∧ amount * 10 ^ d = n ∧ n < 2 ^ 256 ∧
        wei = n.repr := by
  constructor
  · intro h
    obtain ⟨whole, fraction, htext⟩ := amountText_of_parse u h
    rw [parse_of_amountText u htext] at h
    split at h
    · next hfits =>
      exact ⟨_, _, ⟨whole, fraction, htext, rfl⟩, (digitsValue_baseUnitDigits htext.length_le).symm, hfits,
        (Option.some.inj h).symm⟩
    · cases h
  · rintro ⟨amount, n, ⟨whole, fraction, htext, rfl⟩, hvalue, hfits, rfl⟩
    have hn : digitsValue (baseUnitDigits d whole fraction) = n := by
      have hcast := (digitsValue_baseUnitDigits htext.length_le).trans hvalue
      exact_mod_cast hcast
    rw [parse_of_amountText u htext, hn, if_pos hfits]

theorem not_isRustSpace_of_denotes (h : Denotes d text amount) :
    text ≠ [] ∧ ∀ c ∈ text, isRustSpace c = false := by
  have hdigit : ∀ c : Char, c.isDigit = true → isRustSpace c = false := by
    intro c hc
    obtain ⟨hlo, hhi⟩ := toNat_of_isDigit hc
    simp only [isRustSpace, decide_eq_false_iff_not, List.mem_cons, List.not_mem_nil, or_false]
    omega
  obtain ⟨whole, fraction, htext, -⟩ := h
  rw [htext.text_eq]
  split
  · exact ⟨htext.whole_ne_nil, fun c hc => hdigit c (htext.isDigits_whole c hc)⟩
  refine ⟨List.append_ne_nil_of_left_ne_nil htext.whole_ne_nil _, fun c hc => ?_⟩
  rcases List.mem_append.mp hc with hc | hc
  · exact hdigit c (htext.isDigits_whole c hc)
  · rcases List.mem_cons.mp hc with rfl | hc
    · decide
    · exact hdigit c (htext.isDigits_fraction c hc)

theorem rustTrim_of_denotes (h : Denotes d text amount) :
    (rustTrim (String.ofList text)).toList = text := by
  obtain ⟨-, hplain⟩ := not_isRustSpace_of_denotes h
  rw [rustTrim, String.toList_ofList, String.toList_ofList, dropWhile_of_none hplain, List.rdropWhile_eq_self_iff]
  intro hne
  rw [hplain _ (List.getLast_mem hne)]
  decide

/-- **What is shown:** base units below `2 ^ 256` as a decimal of exactly their value. -/
theorem formatBaseUnits_repr (hn : n < 2 ^ 256) (error : String) :
    ∃ shown, formatBaseUnits u n.repr d error = .ok shown ∧ Denotes d shown.toList (n / 10 ^ d) ∧
      (rustTrim shown).toList = shown.toList := by
  have hwidth : d ≤ (padDigits (d + 1) (Nat.toDigits 10 n)).length :=
    le_trans (Nat.le_succ d) (length_padDigits (d + 1) _)
  have hdenotes := denotes_split (isDigits_padDigits (isDigits_toDigits n)) hwidth
  rw [digitsValue_padDigits, digitsValue_toDigits] at hdenotes
  unfold formatBaseUnits
  rw [u.parse_repr hn]
  dsimp only
  rw [u.display_digits _ _ hn, String.toList_ofList]
  refine ⟨_, rfl, ?_, ?_⟩
  · rw [String.toList_ofList]
    exact hdenotes
  · rw [rustTrim_of_denotes hdenotes, String.toList_ofList]

theorem parse_formatBaseUnits (hn : n < 2 ^ 256) (error : String) :
    ∃ shown, formatBaseUnits u n.repr d error = .ok shown ∧ parseDecimalToBaseUnits u shown d = some n.repr := by
  obtain ⟨shown, hshown, hdenotes, htrim⟩ := formatBaseUnits_repr u hn error
  refine ⟨shown, hshown, (parseDecimalToBaseUnits_eq_some u).mpr ⟨n / 10 ^ d, n, ?_, ?_, hn, rfl⟩⟩
  · rw [htrim]
    exact hdenotes
  · exact div_mul_cancel₀ _ (pow_ne_zero _ (by norm_num))

end Amounts

/-! ## 3. Texts in order -/

def canonicalUintGreaterThan (left right : String) : Bool :=
  right.length < left.length || (left.length = right.length && decide (right < left))

def compareCanonicalUintDescending (left right : String) : Ordering :=
  (compare right.length left.length).then (compare right left)

variable {m n : Nat}

theorem repr_lt_iff :
    m.repr.length < n.repr.length ∨ m.repr.length = n.repr.length ∧ m.repr < n.repr ↔ m < n := by
  rw [String.lt_iff, Nat.toList_repr, Nat.toList_repr, ← String.length_toList, ← String.length_toList, Nat.toList_repr,
    Nat.toList_repr]
  exact toDigits_lt_iff

theorem canonicalUintGreaterThan_repr : canonicalUintGreaterThan m.repr n.repr = true ↔ n < m := by
  rw [canonicalUintGreaterThan, Bool.or_eq_true, Bool.and_eq_true, decide_eq_true_iff, decide_eq_true_iff,
    decide_eq_true_iff, eq_comm (a := m.repr.length)]
  exact repr_lt_iff

/-- **The order of the collections is that of their price limits, the highest first.** -/
theorem compareCanonicalUintDescending_repr (m n : Nat) :
    compareCanonicalUintDescending m.repr n.repr = compare n m := by
  unfold compareCanonicalUintDescending
  rcases lt_trichotomy n m with hlt | rfl | hgt
  · rw [Nat.compare_eq_lt.mpr hlt]
    rcases repr_lt_iff.mpr hlt with hlength | ⟨hlength, htext⟩
    · rw [Nat.compare_eq_lt.mpr hlength]
      rfl
    · rw [Nat.compare_eq_eq.mpr hlength]
      exact compare_lt_iff_lt.mpr htext
  · rw [Nat.compare_eq_eq.mpr rfl, Nat.compare_eq_eq.mpr rfl]
    exact compare_eq_iff_eq.mpr rfl
  · rw [Nat.compare_eq_gt.mpr hgt]
    rcases repr_lt_iff.mpr hgt with hlength | ⟨hlength, htext⟩
    · rw [Nat.compare_eq_gt.mpr hlength]
      rfl
    · rw [Nat.compare_eq_eq.mpr hlength.symm]
      exact compare_gt_iff_gt.mpr htext

/-! ## 4. The start policy -/

def biddingWethAllowanceCapEnvKey : String := "BIDDING_WETH_ALLOWANCE_ETH"
def biddingTraitOffersEnabledEnvKey : String := "BIDDING_TRUST_OPENSEA_SIGNED_ZONE_FOR_TRAIT_OFFERS"
def biddingTxMinPriorityFeeEnvKey : String := "BIDDING_TX_MIN_PRIORITY_FEE_GWEI"
def biddingTxMaxFeeEnvKey : String := "BIDDING_TX_MAX_FEE_GWEI"
def biddingWethApprovalMaxGasFeeEnvKey : String := "BIDDING_WETH_APPROVAL_MAX_GAS_FEE_ETH"
def biddingTxPendingNoncePolicyEnvKey : String := "BIDDING_TX_PENDING_NONCE_POLICY"

inductive ZeroPolicy
  | allowed
  | rejected
  deriving DecidableEq

section Authority

variable (u : U256Text)

section

variable (env : String → Option String)

def parseRequiredBaseUnitSetting (key : String) (decimals : Nat)
    (zeroPolicy : ZeroPolicy) : Except String String :=
  match env key with
  | none => .error s!"Missing bidding policy setting {key}."
  | some value =>
    match parseDecimalToBaseUnits u value decimals with
    | none => .error s!"Invalid bidding policy setting {key}."
    | some parsed =>
      if zeroPolicy = .rejected ∧ parsed = "0" then .error s!"Bidding policy setting {key} must be greater than zero."
      else .ok parsed

def parseRequiredBool (key : String) : Except String Bool :=
  match (env key).map fun value => asciiLower (rustTrim value) with
  | none => .error s!"Missing bidding policy setting {key}."
  | some value =>
    if value = "true" then .ok true
    else if value = "false" then .ok false
    else .error s!"Invalid bidding policy setting {key}: {value}."

/-- `BiddingPendingNoncePolicy::parse_process_env`; there is one policy. -/
def parsePendingNoncePolicy : Except String Unit :=
  match (env biddingTxPendingNoncePolicyEnvKey).map fun value => asciiLower (rustTrim value) with
  | none => .error s!"Missing bidding policy setting {biddingTxPendingNoncePolicyEnvKey}."
  | some value =>
    if value = pendingNoncePolicyFail then .ok ()
    else .error s!"Unsupported bidding policy setting {biddingTxPendingNoncePolicyEnvKey}: {value}."

/-- `BiddingStartPolicy::from_process_env`. -/
def NativeStartPolicy.fromProcessEnv : Except String NativeStartPolicy := do
  let wethAllowanceCapWei ← parseRequiredBaseUnitSetting u env biddingWethAllowanceCapEnvKey 18 .allowed
  let minPriorityFeePerGasWei ← parseRequiredBaseUnitSetting u env biddingTxMinPriorityFeeEnvKey 9 .rejected
  let maxFeePerGasWei ← parseRequiredBaseUnitSetting u env biddingTxMaxFeeEnvKey 9 .rejected
  let maxTotalGasFeeWei ← parseRequiredBaseUnitSetting u env biddingWethApprovalMaxGasFeeEnvKey 18 .rejected
  if canonicalUintGreaterThan minPriorityFeePerGasWei maxFeePerGasWei = true then
    .error (s!"Bidding policy setting {biddingTxMinPriorityFeeEnvKey} must not exceed " ++
      s!"{biddingTxMaxFeeEnvKey}.")
  else do
    let trust ← parseRequiredBool env biddingTraitOffersEnabledEnvKey
    let _ ← parsePendingNoncePolicy env
    .ok ⟨wethAllowanceCapWei, trust, minPriorityFeePerGasWei, maxFeePerGasWei, maxTotalGasFeeWei⟩

end

/-- The text that was entered is a decimal, and `n` is its number of base units. -/
def EnteredAs (raw : String) (d n : Nat) : Prop := Denotes d (rustTrim raw).toList (n / 10 ^ d)

/-- The text of base units that was reviewed is that of `n`, and the prompt shows the same number. -/
def ShownAs (text : String) (d n : Nat) : Prop :=
  text = n.repr ∧ ∀ error, ∃ shown, formatBaseUnits u text d error = .ok shown ∧ Denotes d shown.toList (n / 10 ^ d)

/-- **An amount from its entry to its enforcement:** `n` base units were entered and shown, and `enforced` is `n`. -/
structure AmountKept (raw text : String) (d enforced : Nat) : Prop where
  entered : EnteredAs raw d enforced
  shown : ShownAs u text d enforced

theorem digitsValue_repr (n : Nat) : decimalValue n.repr = n := by
  have hvalue : decimalValue n.repr = digitsValue n.repr.toList := rfl
  rw [hvalue, Nat.toList_repr, digitsValue_toDigits]

variable {n : Nat} {text : String}

theorem repr_eq_zero_iff : n.repr = "0" ↔ n = 0 := by
  constructor
  · intro h
    have hvalue := digitsValue_repr n
    rw [h] at hvalue
    exact hvalue.symm
  · rintro rfl
    rfl

theorem isPositiveDecimal_repr (hn : 0 < n) : isPositiveDecimal n.repr = true := by
  have hdigits := isDigits_toDigits n
  have hhead := head_toDigits hn
  unfold isPositiveDecimal
  rw [Nat.toList_repr]
  cases htext : Nat.toDigits 10 n with
  | nil => exact absurd htext Nat.toDigits_ne_nil
  | cons c rest =>
    rw [htext] at hdigits hhead
    obtain ⟨hlo, hhi⟩ := toNat_of_isDigit (hdigits c List.mem_cons_self)
    have hne : c.toNat ≠ 48 := by
      intro heq
      have hzero : c = '0' := Char.toNat_inj.mp heq
      exact hhead (congrArg some hzero)
    have hone : '1' ≤ c := show 49 ≤ c.toNat by omega
    have hnine : c ≤ '9' := show c.toNat ≤ 57 from hhi
    have hrest : rest.all Char.isDigit = true :=
      List.all_eq_true.mpr fun d hd => hdigits d (List.mem_cons_of_mem c hd)
    simp only [hone, hnine, hrest, decide_true, Bool.and_self]

theorem isCanonicalDecimal_repr (n : Nat) : isCanonicalDecimal n.repr = true := by
  unfold isCanonicalDecimal
  rw [Bool.or_eq_true, decide_eq_true_iff, repr_eq_zero_iff]
  rcases Nat.eq_zero_or_pos n with hzero | hpos
  · exact .inl hzero
  · exact .inr (isPositiveDecimal_repr hpos)

variable {raw : String} {d : Nat} {env : String → Option String}

theorem amountKept_of_parse (h : parseDecimalToBaseUnits u raw d = some text) :
    ∃ n, AmountKept u raw text d n ∧ n < 2 ^ 256 ∧ text = n.repr := by
  obtain ⟨amount, n, hdenotes, hvalue, hfits, rfl⟩ := (parseDecimalToBaseUnits_eq_some u).mp h
  have hamount : amount = n / 10 ^ d := eq_div_of_mul_eq (pow_ne_zero _ (by norm_num)) hvalue
  rw [hamount] at hdenotes
  refine ⟨n, ⟨hdenotes, rfl, fun error => ?_⟩, hfits, rfl⟩
  obtain ⟨shown, hshown, hdenotes, -⟩ := formatBaseUnits_repr u hfits error
  exact ⟨shown, hshown, hdenotes⟩

theorem parseRequiredBaseUnitSetting_ok {key : String}
    {zeroPolicy : ZeroPolicy} (h : parseRequiredBaseUnitSetting u env key d zeroPolicy = .ok text) :
    ∃ raw n, env key = some raw ∧ AmountKept u raw text d n ∧ n < 2 ^ 256 ∧ text = n.repr ∧
      (zeroPolicy = .rejected → 0 < n) := by
  unfold parseRequiredBaseUnitSetting at h
  split at h
  · cases h
  next raw hraw =>
  split at h
  · cases h
  next parsed hparsed =>
  obtain ⟨hzero, h⟩ := ite_error_eq_ok.mp h
  cases h
  obtain ⟨n, hkept, hfits, htext⟩ := amountKept_of_parse u hparsed
  refine ⟨raw, n, hraw, hkept, hfits, htext, fun hrejected => Nat.pos_of_ne_zero fun hn => ?_⟩
  exact hzero ⟨hrejected, htext.trans (repr_eq_zero_iff.mpr hn)⟩

/-- **What the environment sets is what the start policy enforces.** -/
structure PolicyKept (env : String → Option String) (policy : NativeStartPolicy) (enforced : BiddingStartPolicy) :
    Prop where
  wethAllowanceCap : ∃ raw, env biddingWethAllowanceCapEnvKey = some raw ∧
    AmountKept u raw policy.wethAllowanceCapWei 18 enforced.wethAllowanceCapWei
  minPriorityFeePerGas : ∃ raw, env biddingTxMinPriorityFeeEnvKey = some raw ∧
    AmountKept u raw policy.minPriorityFeePerGasWei 9 enforced.minPriorityFeePerGasWei
  maxFeePerGas : ∃ raw, env biddingTxMaxFeeEnvKey = some raw ∧
    AmountKept u raw policy.maxFeePerGasWei 9 enforced.maxFeePerGasWei
  maxTotalGasFee : ∃ raw, env biddingWethApprovalMaxGasFeeEnvKey = some raw ∧
    AmountKept u raw policy.maxTotalGasFeeWei 18 enforced.maxTotalGasFeeWei
  trust : enforced.trustOpenSeaSignedZoneTraitOffers = policy.trustOpenSeaSignedZoneTraitOffers

theorem le_maxUint256 (h : n < 2 ^ 256) : n ≤ maxUint256 := Nat.le_pred_of_lt h

theorem NativeStartPolicy.fromProcessEnv_ok {policy : NativeStartPolicy}
    (h : NativeStartPolicy.fromProcessEnv u env = .ok policy) :
    policy.WellFormed ∧ PolicyKept u env policy policy.authority := by
  unfold NativeStartPolicy.fromProcessEnv at h
  obtain ⟨capText, hcap, h⟩ := bind_eq_ok.mp h
  obtain ⟨minText, hmin, h⟩ := bind_eq_ok.mp h
  obtain ⟨maxText, hmax, h⟩ := bind_eq_ok.mp h
  obtain ⟨totalText, htotal, h⟩ := bind_eq_ok.mp h
  obtain ⟨hordered, h⟩ := ite_error_eq_ok.mp h
  obtain ⟨trust, -, h⟩ := bind_eq_ok.mp h
  obtain ⟨-, -, h⟩ := bind_eq_ok.mp h
  cases h
  obtain ⟨capRaw, cap, hcapRaw, hcapKept, hcapFits, rfl, -⟩ := parseRequiredBaseUnitSetting_ok u hcap
  obtain ⟨minRaw, minFee, hminRaw, hminKept, hminFits, rfl, hminPos⟩ := parseRequiredBaseUnitSetting_ok u hmin
  obtain ⟨maxRaw, maxFee, hmaxRaw, hmaxKept, hmaxFits, rfl, hmaxPos⟩ := parseRequiredBaseUnitSetting_ok u hmax
  obtain ⟨totalRaw, total, htotalRaw, htotalKept, htotalFits, rfl, htotalPos⟩ :=
    parseRequiredBaseUnitSetting_ok u htotal
  rw [canonicalUintGreaterThan_repr, not_lt] at hordered
  constructor
  · constructor
    · exact isCanonicalDecimal_repr cap
    · exact (digitsValue_repr cap).trans_le (le_maxUint256 hcapFits)
    · exact isPositiveDecimal_repr (hminPos rfl)
    · exact (digitsValue_repr minFee).trans_le (le_maxUint256 hminFits)
    · exact isPositiveDecimal_repr (hmaxPos rfl)
    · exact (digitsValue_repr maxFee).trans_le (le_maxUint256 hmaxFits)
    · exact isPositiveDecimal_repr (htotalPos rfl)
    · exact (digitsValue_repr total).trans_le (le_maxUint256 htotalFits)
    · dsimp only
      rw [digitsValue_repr, digitsValue_repr]
      exact hordered
  · unfold NativeStartPolicy.authority
    simp only [digitsValue_repr]
    exact ⟨⟨capRaw, hcapRaw, hcapKept⟩, ⟨minRaw, hminRaw, hminKept⟩, ⟨maxRaw, hmaxRaw, hmaxKept⟩,
      ⟨totalRaw, htotalRaw, htotalKept⟩, rfl⟩

/-! ## 5. The mandate -/

def maxBiddingMandateCollections : Nat := 64

def biddingMandateMaxOfferQuantity : UInt32 := 1

structure BiddingCollectionCandidate where
  chainId : UInt64
  collectionId : UInt64
  artgodSlug : String
  contractAddress : String
  openseaSlug : String
  tokenScope : NativeScope

structure BiddingCollectionMandateDraft where
  collectionId : UInt64
  maxUnitBidEth : String

structure BiddingMandateDraft where
  collections : List BiddingCollectionMandateDraft

def NativeMandate.parsePositiveEthToWei (raw : String) (collectionId : UInt64) : Except String String :=
  match parseDecimalToBaseUnits u raw 18 with
  | none => .error (s!"Collection {collectionId} maximum WETH for any one NFT must be a positive decimal with at " ++
      "most 18 fractional digits.")
  | some normalizedWei =>
    if normalizedWei = "0" then
      .error s!"Collection {collectionId} maximum WETH for any one NFT must be greater than zero."
    else .ok normalizedWei

/-- The collection of a candidate, with this price limit. -/
def BiddingCollectionCandidate.authorize (candidate : BiddingCollectionCandidate) (maxUnitBidWei : String) :
    NativeCollection where
  collectionId := candidate.collectionId
  artgodSlug := candidate.artgodSlug
  contractAddress := candidate.contractAddress
  openseaSlug := candidate.openseaSlug
  tokenScope := candidate.tokenScope
  maxUnitBidWei := maxUnitBidWei
  maxQuantity := biddingMandateMaxOfferQuantity

/-- The loop of `BiddingMandate::resolve`, with the ids seen so far.  The map of the candidates holds the last one of
an id. -/
def resolveCollections (chainId : UInt64) (candidates : List BiddingCollectionCandidate) :
    List BiddingCollectionMandateDraft → List UInt64 → Except String (List NativeCollection)
  | [], _ => .ok []
  | proposed :: rest, seen =>
    if proposed.collectionId ∈ seen then
      .error s!"Collection {proposed.collectionId} appears more than once in the bidding authorization."
    else
      match candidates.reverse.find? (fun candidate => candidate.collectionId = proposed.collectionId) with
      | none =>
        .error (s!"Collection {proposed.collectionId} is not eligible for bidding authorization. " ++ "Refresh Bots.")
      | some candidate =>
        if candidate.chainId ≠ chainId then
          .error (s!"Collection {candidate.collectionId} belongs to chain {candidate.chainId}, " ++
            s!"expected chain {chainId}.")
        else do
          let maxUnitBidWei ← NativeMandate.parsePositiveEthToWei u proposed.maxUnitBidEth candidate.collectionId
          let collections ← resolveCollections chainId candidates rest (proposed.collectionId :: seen)
          return candidate.authorize maxUnitBidWei :: collections

/-- The order of the collections: the highest price limit first, then by slug, then by id. -/
def compareCollections (left right : NativeCollection) : Ordering :=
  (compareCanonicalUintDescending left.maxUnitBidWei right.maxUnitBidWei).then
    ((compare left.artgodSlug right.artgodSlug).then (compare left.collectionId right.collectionId))

/-- `BiddingMandate::resolve`. -/
def NativeMandate.resolve (chainId : UInt64) (startPolicy : NativeStartPolicy) (draft : BiddingMandateDraft)
    (candidates : List BiddingCollectionCandidate) : Except String NativeMandate :=
  if draft.collections = [] then .error "Select at least one collection to authorize bidding."
  else if maxBiddingMandateCollections < draft.collections.length then
    .error s!"Bidding authorization may include at most {maxBiddingMandateCollections} collections."
  else do
    let collections ← resolveCollections u chainId candidates draft.collections []
    return ⟨chainId, startPolicy, collections.insertionSort fun left right => compareCollections left right ≠ .gt⟩

/-- The collection that a draft entry becomes. -/
def Authorizes (chainId : UInt64) (candidates : List BiddingCollectionCandidate)
    (proposed : BiddingCollectionMandateDraft) (collection : NativeCollection) : Prop :=
  ∃ candidate ∈ candidates, ∃ n, candidate.collectionId = proposed.collectionId ∧ candidate.chainId = chainId ∧
    AmountKept u proposed.maxUnitBidEth n.repr 18 n ∧ 0 < n ∧ n < 2 ^ 256 ∧ collection = candidate.authorize n.repr

theorem NativeMandate.parsePositiveEthToWei_ok {collectionId : UInt64}
    (h : NativeMandate.parsePositiveEthToWei u raw collectionId = .ok text) :
    ∃ n, AmountKept u raw text 18 n ∧ 0 < n ∧ n < 2 ^ 256 ∧ text = n.repr := by
  unfold NativeMandate.parsePositiveEthToWei at h
  split at h
  · cases h
  next parsed hparsed =>
  obtain ⟨hzero, h⟩ := ite_error_eq_ok.mp h
  cases h
  obtain ⟨n, hkept, hfits, htext⟩ := amountKept_of_parse u hparsed
  exact ⟨n, hkept, Nat.pos_of_ne_zero fun hn => hzero (htext.trans (repr_eq_zero_iff.mpr hn)), hfits, htext⟩

theorem resolveCollections_ok {chainId : UInt64} {candidates : List BiddingCollectionCandidate}
    {drafts : List BiddingCollectionMandateDraft} {seen : List UInt64} {collections : List NativeCollection}
    (h : resolveCollections u chainId candidates drafts seen = .ok collections) :
    List.Forall₂ (Authorizes u chainId candidates) drafts collections ∧
      (drafts.map (·.collectionId)).Nodup ∧ ∀ proposed ∈ drafts, proposed.collectionId ∉ seen := by
  induction drafts generalizing seen collections with
  | nil =>
    cases h
    exact ⟨.nil, List.nodup_nil, fun _ hmem => absurd hmem List.not_mem_nil⟩
  | cons proposed rest ih =>
    unfold resolveCollections at h
    obtain ⟨hnew, h⟩ := ite_error_eq_ok.mp h
    split at h
    · cases h
    next candidate hcandidate =>
    obtain ⟨hchain, h⟩ := ite_error_eq_ok.mp h
    obtain ⟨text, htext, h⟩ := bind_eq_ok.mp h
    obtain ⟨others, hothers, h⟩ := bind_eq_ok.mp h
    cases h
    obtain ⟨n, hkept, hpos, hfits, rfl⟩ := NativeMandate.parsePositiveEthToWei_ok u htext
    obtain ⟨hrest, hnodup, hseen⟩ := ih hothers
    have hid := List.find?_some hcandidate
    have hmem := List.mem_reverse.mp (List.mem_of_find?_eq_some hcandidate)
    refine ⟨.cons ⟨candidate, hmem, n, of_decide_eq_true hid, not_not.mp hchain, hkept, hpos, hfits, rfl⟩ hrest,
      List.nodup_cons.mpr ⟨fun hdup => ?_, hnodup⟩, fun other hother => ?_⟩
    · obtain ⟨other, hother, heq⟩ := List.mem_map.mp hdup
      exact hseen other hother (heq ▸ List.mem_cons_self)
    · rcases List.mem_cons.mp hother with rfl | hother
      · exact hnew
      · exact fun hmem => hseen other hother (List.mem_cons_of_mem _ hmem)

/-- A candidate with a positive safe-integer id, an address, and slugs that are not blank. -/
structure BiddingCollectionCandidate.Lawful (candidate : BiddingCollectionCandidate) : Prop where
  id_pos : 0 < candidate.collectionId.toNat
  id_safe : (candidate.collectionId.toNat : Int) ≤ maxSafeInteger
  artgodSlug : trim candidate.artgodSlug ≠ ""
  contractAddress : isHexOfLength 40 candidate.contractAddress = true
  openseaSlug : trim candidate.openseaSlug ≠ ""

end Authority

/-- `toLowerCase` leaves something of every character. -/
def LowersToText (p : Platform) : Prop := ∀ c, p.lowerNonAscii c ≠ []

theorem toLowerCase_ne_empty {p : Platform} (hp : LowersToText p) {s : String} (h : s ≠ "") : toLowerCase p s ≠ "" := by
  intro hempty
  have hlist := congrArg String.toList hempty
  rw [toLowerCase, String.toList_ofList] at hlist
  have hnil : s.toList = [] := by
    cases hs : s.toList with
    | nil => rfl
    | cons c rest =>
      rw [hs, List.flatMap_cons] at hlist
      have hfirst := (List.append_eq_nil_iff.mp hlist).1
      split at hfirst
      · cases hfirst
      · exact absurd hfirst (hp c)
  exact h (String.toList_inj.mp (hnil.trans rfl))

theorem isHexDigit_toLower {c : Char} (h : isHexDigit c = true) :
    isHexDigit c.toLower = true ∧ c.toLower.isUpper = false := by
  have hcases := isHexDigit_cases h
  have hc : Char.ofNat c.toNat = c := Char.ofNat_toNat c
  generalize c.toNat = n at hcases hc
  subst hc
  rcases hcases with ⟨hlo, hhi⟩ | ⟨hlo, hhi⟩ | ⟨hlo, hhi⟩ <;> interval_cases n <;> decide

theorem lower_address {p : Platform} {n : Nat} {s : String} (h : isHexOfLength n s = true) :
    isHexOfLength n (toLowerCase p (trim s)) = true ∧
      (toLowerCase p (trim s)).toList.all (fun c => !c.isUpper) = true := by
  rw [trim_address h, toLowerCase_address h, asciiLower]
  unfold isHexOfLength at h ⊢
  rw [String.toList_ofList]
  split at h
  · next digits hdigits =>
    rw [Bool.and_eq_true, decide_eq_true_iff, List.all_eq_true] at h
    rw [hdigits, List.map_cons, List.map_cons]
    constructor
    · have hall : (digits.map Char.toLower).all isHexDigit = true := by
        rw [List.all_map, List.all_eq_true]
        exact fun c hc => (isHexDigit_toLower (h.2 c hc)).1
      have hlength : (digits.map Char.toLower).length = n := by rw [List.length_map, h.1]
      exact Bool.and_eq_true_iff.mpr ⟨decide_eq_true hlength, hall⟩
    · rw [List.all_cons, List.all_cons, List.all_map]
      have hall : digits.all ((fun c => !c.isUpper) ∘ Char.toLower) = true := by
        rw [List.all_eq_true]
        intro c hc
        rw [Function.comp_apply, (isHexDigit_toLower (h.2 c hc)).2]
        rfl
      rw [hall]
      rfl
  · cases h

/-! ## 6. What is enforced -/

section Enforced

variable (u : U256Text) (p : Platform)

/-- **A draft entry, the collection that is reviewed for it, and the authority that the bot reads,** with one price
limit and a quantity of one. -/
structure CollectionKept (proposed : BiddingCollectionMandateDraft) (collection : NativeCollection)
    (authority : BiddingCollectionAuthority) : Prop where
  id_eq : collection.collectionId = proposed.collectionId
  authority_eq : authority = collection.authority p
  maxUnitBid : AmountKept u proposed.maxUnitBidEth collection.maxUnitBidWei 18 authority.maxUnitBidWei
  maxQuantity : authority.maxQuantity = 1

variable {u p}

variable {chainId : UInt64} {candidates : List BiddingCollectionCandidate}

theorem Authorizes.wellFormed (hp : LowersToText p)
    (hlawful : ∀ candidate ∈ candidates, candidate.Lawful) {proposed : BiddingCollectionMandateDraft}
    {collection : NativeCollection} (h : Authorizes u chainId candidates proposed collection) :
    collection.WellFormed p ∧ CollectionKept u p proposed collection (collection.authority p) := by
  obtain ⟨candidate, hmem, n, hid, -, hkept, hpos, hfits, rfl⟩ := h
  have hcandidate := hlawful candidate hmem
  obtain ⟨hhex, hlower⟩ := @lower_address p 40 _ hcandidate.contractAddress
  refine ⟨⟨hcandidate.id_pos, hcandidate.id_safe, hcandidate.artgodSlug, hhex, hlower, hcandidate.openseaSlug,
    toLowerCase_ne_empty hp hcandidate.openseaSlug, isPositiveDecimal_repr hpos,
    (digitsValue_repr n).trans_le (le_maxUint256 hfits), ?_⟩, ⟨hid, rfl, ?_, rfl⟩⟩
  · exact Nat.one_pos
  · have hvalue : ((candidate.authorize n.repr).authority p).maxUnitBidWei = n := digitsValue_repr n
    rw [hvalue]
    exact hkept

theorem collectionIds_of_authorizes
    {drafts : List BiddingCollectionMandateDraft} {collections : List NativeCollection}
    (h : List.Forall₂ (Authorizes u chainId candidates) drafts collections) :
    collections.map (·.collectionId) = drafts.map (·.collectionId) := by
  induction h with
  | nil => rfl
  | cons hfirst _ ih =>
    obtain ⟨candidate, -, n, hid, -, -, -, -, rfl⟩ := hfirst
    rw [List.map_cons, List.map_cons, ih]
    congr 1

/-- **A resolved mandate is read, and enforces what was entered and shown.** -/
theorem resolve_enforced (hp : LowersToText p) {env : String → Option String} {policy : NativeStartPolicy}
    {draft : BiddingMandateDraft}
    {mandate : NativeMandate} (hpolicy : NativeStartPolicy.fromProcessEnv u env = .ok policy)
    (hmandate : NativeMandate.resolve u chainId policy draft candidates = .ok mandate)
    (hchain : 0 < chainId.toNat) (hsafe : (chainId.toNat : Int) ≤ maxSafeInteger)
    (hlawful : ∀ candidate ∈ candidates, candidate.Lawful) :
    ∃ enforced, BiddingMandate.parse p mandate.toValue chainId.toNat = .ok enforced ∧
      PolicyKept u env mandate.startPolicy enforced.startPolicy ∧
      (∀ proposed ∈ draft.collections, ∃ collection ∈ mandate.collections, ∃ authority ∈ enforced.collections,
        CollectionKept u p proposed collection authority) ∧
      ∀ authority ∈ enforced.collections, ∃ proposed ∈ draft.collections, ∃ collection ∈ mandate.collections,
        CollectionKept u p proposed collection authority := by
  obtain ⟨hwellFormed, hpolicyKept⟩ := NativeStartPolicy.fromProcessEnv_ok u hpolicy
  unfold NativeMandate.resolve at hmandate
  obtain ⟨hfilled, hmandate⟩ := ite_error_eq_ok.mp hmandate
  obtain ⟨-, hmandate⟩ := ite_error_eq_ok.mp hmandate
  obtain ⟨collections, hcollections, hmandate⟩ := bind_eq_ok.mp hmandate
  cases hmandate
  obtain ⟨hauthorizes, hnodup, -⟩ := resolveCollections_ok u hcollections
  obtain ⟨hcollected, hproposed⟩ := forall₂_partners hauthorizes
  have hperm := List.perm_insertionSort (fun left right => compareCollections left right ≠ .gt) collections
  have hwf : NativeMandate.WellFormed p ⟨chainId, policy, collections.insertionSort fun left right =>
      compareCollections left right ≠ .gt⟩ := by
    refine ⟨hchain, hsafe, hwellFormed, fun hnil => ?_, fun collection hmem => ?_, ?_⟩
    · have hlength := hauthorizes.length_eq
      rw [← hperm.length_eq, show List.length _ = 0 from congrArg List.length hnil] at hlength
      exact hfilled (List.length_eq_zero_iff.mp hlength)
    · obtain ⟨proposed, -, hauthorized⟩ := hcollected collection (hperm.mem_iff.mp hmem)
      exact (hauthorized.wellFormed hp hlawful).1
    · have hids := hnodup.map fun a b heq => UInt64.toNat_inj.mp heq
      rw [← collectionIds_of_authorizes hauthorizes, List.map_map] at hids
      exact (hperm.map fun c => c.collectionId.toNat).nodup_iff.mpr hids
  refine ⟨_, parse_toValue.mpr ⟨rfl, hwf, rfl⟩, hpolicyKept, fun proposed hmem => ?_, fun authority hmem => ?_⟩
  · obtain ⟨collection, hcollection, hauthorized⟩ := hproposed proposed hmem
    exact ⟨collection, hperm.mem_iff.mpr hcollection, _, List.mem_map_of_mem (hperm.mem_iff.mpr hcollection),
      (hauthorized.wellFormed hp hlawful).2⟩
  · obtain ⟨collection, hcollection, rfl⟩ := List.mem_map.mp hmem
    obtain ⟨proposed, hproposed, hauthorized⟩ := hcollected collection (hperm.mem_iff.mp hcollection)
    exact ⟨proposed, hproposed, collection, hcollection, (hauthorized.wellFormed hp hlawful).2⟩

/-- **Reviewed authority is enforced authority.**  What is parsed is exactly a decimal with at most `d` digits after
the point whose base units fit into 256 bits, to the canonical text of the base units; the text that is shown for it
denotes the same number, and is parsed back to it; the two comparisons of such texts are those of the numbers; and
whatever environment and draft are accepted, the bot reads the serialized mandate, with the amounts that were entered
and shown. -/
theorem reviewed_authority_enforced (u : U256Text) (p : Platform) :
    (∀ raw wei d, parseDecimalToBaseUnits u raw d = some wei ↔
      ∃ amount, ∃ n : Nat, Denotes d (rustTrim raw).toList amount ∧ amount * 10 ^ d = n ∧ n < 2 ^ 256 ∧
        wei = n.repr) ∧
    (∀ raw wei d, parseDecimalToBaseUnits u raw d = some wei → ∀ error, ∃ shown,
      formatBaseUnits u wei d error = .ok shown ∧
        ∀ amount, Denotes d (rustTrim raw).toList amount ↔ Denotes d shown.toList amount) ∧
    (∀ n d error, n < 2 ^ 256 → ∃ shown, formatBaseUnits u n.repr d error = .ok shown ∧
      parseDecimalToBaseUnits u shown d = some n.repr) ∧
    (∀ m n : Nat, (canonicalUintGreaterThan m.repr n.repr = true ↔ n < m) ∧
      compareCanonicalUintDescending m.repr n.repr = compare n m) ∧
    (LowersToText p → ∀ env policy chainId draft candidates mandate,
      NativeStartPolicy.fromProcessEnv u env = .ok policy →
      NativeMandate.resolve u chainId policy draft candidates = .ok mandate →
      0 < chainId.toNat → (chainId.toNat : Int) ≤ maxSafeInteger → (∀ candidate ∈ candidates, candidate.Lawful) →
      ∃ enforced, BiddingMandate.parse p mandate.toValue chainId.toNat = .ok enforced ∧
        PolicyKept u env mandate.startPolicy enforced.startPolicy ∧
        (∀ proposed ∈ draft.collections, ∃ collection ∈ mandate.collections, ∃ authority ∈ enforced.collections,
          CollectionKept u p proposed collection authority) ∧
        ∀ authority ∈ enforced.collections, ∃ proposed ∈ draft.collections, ∃ collection ∈ mandate.collections,
          CollectionKept u p proposed collection authority) := by
  refine ⟨fun _ _ _ => parseDecimalToBaseUnits_eq_some u, fun raw wei d hparse error => ?_,
    fun n d error hn => parse_formatBaseUnits u hn error,
    fun m n => ⟨canonicalUintGreaterThan_repr, compareCanonicalUintDescending_repr m n⟩,
    fun hp env policy chainId draft candidates mandate hpolicy hmandate hchain hsafe hlawful =>
      resolve_enforced hp hpolicy hmandate hchain hsafe hlawful⟩
  obtain ⟨n, hkept, -, -⟩ := amountKept_of_parse u hparse
  obtain ⟨shown, hshown, hdenotes⟩ := hkept.shown.2 error
  refine ⟨shown, hshown, fun amount => ⟨fun h => ?_, fun h => ?_⟩⟩
  · rw [h.unique hkept.entered]
    exact hdenotes
  · rw [h.unique hdenotes]
    exact hkept.entered

end Enforced

/-- 256-bit integers that are read from decimal digits. -/
def decimalU256 : U256Text where
  parse text :=
    if text.toList ≠ [] ∧ IsDigits text.toList ∧ digitsValue text.toList < 2 ^ 256 then some (digitsValue text.toList)
    else none
  display width n := String.ofList (padDigits width (Nat.toDigits 10 n))
  parse_digits digits hne hdigits := by
    rw [String.toList_ofList]
    simp only [hne, hdigits, ne_eq, not_false_eq_true, true_and]
  display_digits _ _ _ := rfl

/-- An environment with half an Ether to spend. -/
def reviewEnv (key : String) : Option String :=
  [(biddingWethAllowanceCapEnvKey, "0.5"), (biddingTraitOffersEnabledEnvKey, "true"),
    (biddingTxMinPriorityFeeEnvKey, "1"), (biddingTxMaxFeeEnvKey, "20.0"),
    (biddingWethApprovalMaxGasFeeEnvKey, "0.01"), (biddingTxPendingNoncePolicyEnvKey, "fail")].lookup key

def reviewCandidate : BiddingCollectionCandidate :=
  ⟨1, 7, "terraforms", "0x00000000000000000000000000000000000000C0", "terraforms", ⟨"all", []⟩⟩

theorem reviewed_half_ether :
    ∃ policy mandate enforced, NativeStartPolicy.fromProcessEnv decimalU256 reviewEnv = .ok policy ∧
      NativeMandate.resolve decimalU256 1 policy ⟨[⟨7, " 00.50 "⟩]⟩ [reviewCandidate] = .ok mandate ∧
      BiddingMandate.parse asciiPlatform mandate.toValue 1 = .ok enforced ∧
      PolicyKept decimalU256 reviewEnv mandate.startPolicy enforced.startPolicy := by
  obtain ⟨enforced, hparse, hpolicy, -⟩ := (reviewed_authority_enforced decimalU256 asciiPlatform).2.2.2.2
    (fun c => List.cons_ne_nil c []) reviewEnv _ 1 ⟨[⟨7, " 00.50 "⟩]⟩ [reviewCandidate] _ rfl rfl (by decide) (by decide)
    (fun candidate hmem => by
      rw [List.mem_singleton.mp hmem]
      exact ⟨by decide, by decide, by decide +kernel, by decide +kernel, by decide +kernel⟩)
  exact ⟨_, _, enforced, rfl, rfl, hparse, hpolicy⟩

end Artgod.Trading
