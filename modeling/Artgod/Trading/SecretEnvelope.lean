/-
# The secret envelope

The frame that hands a wallet key and its authority from the desktop application (`bot_runtime.rs`) to a bot
process (`secret-envelope.ts`).  A native mandate is any list of collections with any texts;
`NativeMandate.WellFormed` is what the reader asks of it (`parse_toValue`).  JSON is a parameter, `JsonCodec`.
-/
import Artgod.Desktop.BotLifecycle
import Artgod.Trading.BiddingMandate

namespace Artgod.Trading

open Js
open Desktop (BotKind)

/-! ## 1. The native side -/

/-- `BiddingCollectionTokenScopeItem`. -/
structure NativeScopeItem where
  label : String
  value : String

/-- `BiddingCollectionTokenScopeSummary`. -/
structure NativeScope where
  label : String
  items : List NativeScopeItem

/-- `BiddingCollectionMandate`. -/
structure NativeCollection where
  collectionId : UInt64
  artgodSlug : String
  contractAddress : String
  openseaSlug : String
  tokenScope : NativeScope
  maxUnitBidWei : String
  maxQuantity : UInt32

/-- `BiddingStartPolicy` of the native side, with its WETH approval policy; the nonce policy has one
value. -/
structure NativeStartPolicy where
  wethAllowanceCapWei : String
  trustOpenSeaSignedZoneTraitOffers : Bool
  minPriorityFeePerGasWei : String
  maxFeePerGasWei : String
  maxTotalGasFeeWei : String

/-- `BiddingMandate` of the native side. -/
structure NativeMandate where
  chainId : UInt64
  startPolicy : NativeStartPolicy
  collections : List NativeCollection

structure WalletPrivateKey where
  bytes : List UInt8
  length_eq : bytes.length = 32

/-- `serde_json`'s number for an unsigned integer. -/
def uintValue (n : Nat) : Value := .number (.finite ((n : Int) : ℚ))

def NativeScope.toValue (scope : NativeScope) : Value :=
  .object [("label", .string scope.label),
    ("items", .array (scope.items.map fun item =>
      .object [("label", .string item.label), ("value", .string item.value)]))]

def NativeCollection.toValue (c : NativeCollection) : Value :=
  .object [("collectionId", uintValue c.collectionId.toNat), ("artgodSlug", .string c.artgodSlug),
    ("contractAddress", .string c.contractAddress), ("openseaSlug", .string c.openseaSlug),
    ("tokenScope", c.tokenScope.toValue), ("maxUnitBidWei", .string c.maxUnitBidWei),
    ("maxQuantity", uintValue c.maxQuantity.toNat)]

def NativeStartPolicy.toValue (policy : NativeStartPolicy) : Value :=
  .object [("wethAllowanceCapWei", .string policy.wethAllowanceCapWei),
    ("trustOpenSeaSignedZoneTraitOffers", .bool policy.trustOpenSeaSignedZoneTraitOffers),
    ("wethApproval", .object [("minPriorityFeePerGasWei", .string policy.minPriorityFeePerGasWei),
      ("maxFeePerGasWei", .string policy.maxFeePerGasWei),
      ("maxTotalGasFeeWei", .string policy.maxTotalGasFeeWei),
      ("pendingNoncePolicy", .string pendingNoncePolicyFail)])]

def NativeMandate.toValue (m : NativeMandate) : Value :=
  .object [("chainId", uintValue m.chainId.toNat), ("startPolicy", m.startPolicy.toValue),
    ("collections", .array (m.collections.map NativeCollection.toValue))]

/-- `rename_all = "snake_case"`. -/
def botKindText : BotKind → String
  | .bidding => "bidding"
  | .sniping => "sniping"

/-- `TradingSecretEnvelopeMetadata` of the native side, as it is serialized. -/
def nativeMetadata (walletId address : String) (botKind : BotKind) (chainId : UInt64)
    (mandate : Option NativeMandate) : Value :=
  .object [("walletId", .string walletId), ("address", .string address),
    ("botKind", .string (botKindText botKind)), ("chainId", uintValue chainId.toNat),
    ("biddingMandate", (mandate.map NativeMandate.toValue).getD .null)]

/-- `serde_json::to_vec`, and `JSON.parse` of the bytes as UTF-8. -/
structure JsonCodec where
  encode : Value → List UInt8
  decode : List UInt8 → Except String Value

/-- `"AGBOTKEY"`. -/
def secretEnvelopeMagic : List UInt8 := [65, 71, 66, 79, 84, 75, 69, 89]

def secretEnvelopeVersion : UInt8 := 3

/-- `to_be_bytes` of a `u32`. -/
def toBeBytes (n : Nat) : List UInt8 :=
  [UInt8.ofNat (n / 2 ^ 24), UInt8.ofNat (n / 2 ^ 16), UInt8.ofNat (n / 2 ^ 8), UInt8.ofNat n]

/-- The frame around metadata and key; the length is cast to `u32`. -/
def envelopeFrame (metadataJson key : List UInt8) : List UInt8 :=
  secretEnvelopeMagic ++ [secretEnvelopeVersion] ++ toBeBytes (metadataJson.length % 2 ^ 32) ++
    metadataJson ++ key

def buildTradingSecretEnvelope (json : JsonCodec) (walletId address : String) (botKind : BotKind)
    (chainId : UInt64) (mandate : Option NativeMandate) (privateKey : WalletPrivateKey) :
    Except String (List UInt8) :=
  match botKind, mandate with
  | .bidding, none => .error "Bidding bot secret envelope requires a native mandate."
  | .sniping, some _ => .error "Sniping bot secret envelope cannot carry a bidding mandate."
  | _, _ =>
    .ok (envelopeFrame (json.encode (nativeMetadata walletId address botKind chainId mandate))
      privateKey.bytes)

/-! ## 2. The reader -/

def secretKeyLengthBytes : Nat := 32
def secretEnvelopeMaxMetadataLengthBytes : Nat := 1024 * 1024
def versionOffset : Nat := 8
def metadataLengthOffset : Nat := 9
def secretEnvelopeHeaderLength : Nat := 13
def secretEnvelopeMaxFrameLength : Nat :=
  secretEnvelopeHeaderLength + secretEnvelopeMaxMetadataLengthBytes + secretKeyLengthBytes

def readUInt32BE (buffer : List UInt8) (offset : Nat) : Nat :=
  (((buffer.getD offset 0).toNat * 256 + (buffer.getD (offset + 1) 0).toNat) * 256 +
    (buffer.getD (offset + 2) 0).toNat) * 256 + (buffer.getD (offset + 3) 0).toNat

def resolveSecretEnvelopeFrameLength (buffer : List UInt8) : Result (Option Nat) :=
  if buffer.length < secretEnvelopeHeaderLength then .ok none
  else if buffer.take 8 ≠ secretEnvelopeMagic then
    .error (.error "Secret envelope magic is invalid")
  else if buffer.getD versionOffset 0 ≠ secretEnvelopeVersion then
    .error (.error s!"Secret envelope version is unsupported: {buffer.getD versionOffset 0}")
  else
    let frameLength :=
      secretEnvelopeHeaderLength + readUInt32BE buffer metadataLengthOffset + secretKeyLengthBytes
    if secretEnvelopeMaxFrameLength < frameLength then
      .error (.error "Secret envelope metadata exceeds the maximum length")
    else .ok (some frameLength)

structure TradingSecretEnvelope where
  walletId : String
  address : String
  botKind : BotKind
  chainId : Nat
  biddingMandate : Option BiddingMandate
  privateKeyBytes : List UInt8

def parseEnvelopeBiddingMandate (p : Platform) (botKind : BotKind) (raw : Value) (chainId : Nat) :
    Result (Option BiddingMandate) :=
  match botKind, raw with
  | .bidding, .null => .error (.error "Bidding secret envelope mandate is missing")
  | .bidding, .undefined => .error (.error "Bidding secret envelope mandate is missing")
  | .bidding, raw => (BiddingMandate.parse p raw chainId).map some
  | .sniping, .null => .ok none
  | .sniping, _ => .error (.error "Sniping secret envelope contains a bidding mandate")

/-- The text of a bot kind, read back. -/
def botKind? : Value → Option BotKind
  | .string text =>
    if text = "bidding" then some .bidding else if text = "sniping" then some .sniping else none
  | _ => none

def parseSecretEnvelope (json : JsonCodec) (p : Platform) (buffer : List UInt8) :
    Result TradingSecretEnvelope :=
  if buffer.length < secretEnvelopeHeaderLength + secretKeyLengthBytes then
    .error (.error "Secret envelope is truncated")
  else do
    match ← resolveSecretEnvelopeFrameLength buffer with
    | none => .error (.error "Secret envelope is truncated")
    | some expectedTotalLength =>
      if buffer.length ≠ expectedTotalLength then
        .error (.error "Secret envelope length is invalid")
      else
        let metadataLength := readUInt32BE buffer metadataLengthOffset
        let metadataBytes := (buffer.drop secretEnvelopeHeaderLength).take metadataLength
        match json.decode metadataBytes with
        | .error message => .error (.error message)
        | .ok metadata =>
          match metadata.record? with
          | none => .error (.error "Secret envelope metadata is invalid")
          | some fields =>
            match (field fields "walletId").string?, (field fields "address").string?,
              botKind? (field fields "botKind"), (field fields "chainId").safeInteger? with
            | some walletId, some address, some botKind, some chainId =>
              if chainId ≤ 0 then .error (.error "Secret envelope metadata is invalid")
              else do
                let biddingMandate ← parseEnvelopeBiddingMandate p botKind
                  (field fields "biddingMandate") chainId.toNat
                let privateKeyBytes := buffer.drop (secretEnvelopeHeaderLength + metadataLength)
                if privateKeyBytes.length ≠ secretKeyLengthBytes then
                  .error (.error "Secret envelope private key payload is invalid")
                else
                  return ⟨walletId, address, botKind, chainId.toNat, biddingMandate, privateKeyBytes⟩
            | _, _, _, _ => .error (.error "Secret envelope metadata is invalid")

/-! ## 3. What the reader makes of a native mandate -/

/-- What the reader asks of a native collection. -/
structure NativeCollection.WellFormed (p : Platform) (c : NativeCollection) : Prop where
  id_pos : 0 < c.collectionId.toNat
  id_safe : (c.collectionId.toNat : Int) ≤ maxSafeInteger
  artgodSlug : trim c.artgodSlug ≠ ""
  contractAddress : isHexOfLength 40 (toLowerCase p (trim c.contractAddress)) = true
  contractLower : (toLowerCase p (trim c.contractAddress)).toList.all (fun x => !x.isUpper) = true
  openseaSlug : trim c.openseaSlug ≠ ""
  openseaLower : toLowerCase p (trim c.openseaSlug) ≠ ""
  bid_canonical : isPositiveDecimal c.maxUnitBidWei = true
  bid_le : decimalValue c.maxUnitBidWei ≤ maxUint256
  quantity_pos : 0 < c.maxQuantity.toNat

/-- The authority that is read from a native collection. -/
def NativeCollection.authority (p : Platform) (c : NativeCollection) : BiddingCollectionAuthority where
  collectionId := c.collectionId.toNat
  contractAddress := toLowerCase p (trim c.contractAddress)
  openseaSlug := toLowerCase p (trim c.openseaSlug)
  maxUnitBidWei := decimalValue c.maxUnitBidWei
  maxQuantity := c.maxQuantity.toNat

/-- What the reader asks of a native start policy. -/
structure NativeStartPolicy.WellFormed (policy : NativeStartPolicy) : Prop where
  cap_canonical : isCanonicalDecimal policy.wethAllowanceCapWei = true
  cap_le : decimalValue policy.wethAllowanceCapWei ≤ maxUint256
  min_canonical : isPositiveDecimal policy.minPriorityFeePerGasWei = true
  min_le : decimalValue policy.minPriorityFeePerGasWei ≤ maxUint256
  max_canonical : isPositiveDecimal policy.maxFeePerGasWei = true
  max_le : decimalValue policy.maxFeePerGasWei ≤ maxUint256
  total_canonical : isPositiveDecimal policy.maxTotalGasFeeWei = true
  total_le : decimalValue policy.maxTotalGasFeeWei ≤ maxUint256
  ordered : decimalValue policy.minPriorityFeePerGasWei ≤ decimalValue policy.maxFeePerGasWei

def NativeStartPolicy.authority (policy : NativeStartPolicy) : BiddingStartPolicy where
  wethAllowanceCapWei := decimalValue policy.wethAllowanceCapWei
  trustOpenSeaSignedZoneTraitOffers := policy.trustOpenSeaSignedZoneTraitOffers
  minPriorityFeePerGasWei := decimalValue policy.minPriorityFeePerGasWei
  maxFeePerGasWei := decimalValue policy.maxFeePerGasWei
  maxTotalGasFeeWei := decimalValue policy.maxTotalGasFeeWei

/-- What the reader asks of a native mandate. -/
structure NativeMandate.WellFormed (p : Platform) (m : NativeMandate) : Prop where
  chain_pos : 0 < m.chainId.toNat
  chain_safe : (m.chainId.toNat : Int) ≤ maxSafeInteger
  startPolicy : m.startPolicy.WellFormed
  nonempty : m.collections ≠ []
  collections : ∀ c ∈ m.collections, c.WellFormed p
  distinct : (m.collections.map fun c => c.collectionId.toNat).Nodup

variable {p : Platform} {key metadataJson : List UInt8} {label s : String}

variable {chainId index k n : Nat} {text value : String} {buffer : List UInt8} {botKind : BotKind}
  {mandate : Option NativeMandate}

theorem requirePositiveSafeInteger_uintValue : requirePositiveSafeInteger (uintValue n) label = .ok k ↔
      0 < n ∧ (n : Int) ≤ maxSafeInteger ∧ k = n := by
  have hlow : -maxSafeInteger ≤ (n : Int) := by
    have : (0 : Int) ≤ n := Int.natCast_nonneg n
    unfold maxSafeInteger
    omega
  unfold requirePositiveSafeInteger
  by_cases hsafe : (n : Int) ≤ maxSafeInteger
  · have hint : (uintValue n).safeInteger? = some (n : Int) := Number.safeInteger?_finite hlow hsafe
    rw [hint]
    simp only [hsafe, true_and]
    by_cases hpos : (0 : Int) < n
    · simp only [if_pos hpos, Int.toNat_natCast, Except.ok.injEq]
      constructor
      · rintro rfl
        exact ⟨by omega, rfl⟩
      · exact fun h => h.2.symm
    · simp only [if_neg hpos, reduceCtorEq, false_iff]
      rintro ⟨h, -⟩
      omega
  · have hnone : (uintValue n).safeInteger? = none := by
      cases h : (uintValue n).safeInteger? with
      | none => rfl
      | some i =>
        have hnumber : (Number.finite ((n : Int) : ℚ)).safeInteger? = some i := h
        obtain ⟨heq, -, hle⟩ := Number.safeInteger?_eq_some hnumber
        have hcast : ((n : Int) : ℚ) = (i : ℚ) := Number.finite.inj heq
        have hint : (n : Int) = i := by exact_mod_cast hcast
        exact absurd (hint ▸ hle) hsafe
    rw [hnone]
    simp [hsafe]

theorem requireCanonicalUint_string {allowZero : Bool} :
    requireCanonicalUint (.string text) label allowZero = .ok k ↔
      (if allowZero then isCanonicalDecimal text else isPositiveDecimal text) = true ∧
        decimalValue text ≤ maxUint256 ∧ k = decimalValue text := by
  simp only [requireCanonicalUint, Value.string?]
  by_cases hcanonical : (if allowZero then isCanonicalDecimal text else isPositiveDecimal text) = true
  · rw [if_pos hcanonical]
    by_cases hle : decimalValue text ≤ maxUint256
    · simp only [hcanonical, hle, if_true, Except.ok.injEq, true_and]
      exact eq_comm
    · simp [hle]
  · rw [if_neg hcanonical]
    simp [hcanonical]

theorem requireNonEmptyString_string :
    requireNonEmptyString (.string text) label = .ok s ↔ trim text ≠ "" ∧ s = trim text := by
  simp only [requireNonEmptyString, Value.string?, ite_error_eq_ok, Except.ok.injEq]
  rw [eq_comm (a := s)]

theorem normalizeMandateAddress_ok : normalizeMandateAddress p value = .ok s ↔
      isHexOfLength 40 (toLowerCase p (trim value)) = true ∧
        (toLowerCase p (trim value)).toList.all (fun x => !x.isUpper) = true ∧
          s = toLowerCase p (trim value) := by
  simp only [normalizeMandateAddress]
  split
  · next h =>
    rw [Bool.and_eq_true] at h
    simp only [h, true_and, Except.ok.injEq]
    exact eq_comm
  · next h =>
    rw [Bool.and_eq_true] at h
    simp only [reduceCtorEq, false_iff]
    rintro ⟨h₁, h₂, -⟩
    exact h ⟨h₁, h₂⟩

theorem normalizeSlug_ok : normalizeSlug p value = .ok s ↔
      toLowerCase p (trim value) ≠ "" ∧ s = toLowerCase p (trim value) := by
  simp only [normalizeSlug, ite_error_eq_ok, Except.ok.injEq]
  rw [eq_comm (a := s)]

theorem parseCollection_toValue {c : NativeCollection}
    {a : BiddingCollectionAuthority} :
    parseCollection p c.toValue index = .ok a ↔ c.WellFormed p ∧ a = c.authority p := by
  have hquantity : (c.maxQuantity.toNat : Int) ≤ maxSafeInteger := by
    have := c.maxQuantity.toNat_lt
    unfold maxSafeInteger
    omega
  have hfields : requireMandateRecord c.toValue s!"collection at index {index}" = .ok
      [("collectionId", uintValue c.collectionId.toNat), ("artgodSlug", .string c.artgodSlug),
        ("contractAddress", .string c.contractAddress), ("openseaSlug", .string c.openseaSlug),
        ("tokenScope", c.tokenScope.toValue), ("maxUnitBidWei", .string c.maxUnitBidWei),
        ("maxQuantity", uintValue c.maxQuantity.toNat)] := rfl
  simp only [parseCollection, bind_eq_ok, hfields, Except.ok.injEq, exists_eq_left', field,
    List.find?_cons_of_pos, List.find?_cons_of_neg, String.reduceEq, decide_false, decide_true,
    Bool.false_eq_true, not_false_eq_true, Option.map_some, Option.getD_some,
    requirePositiveSafeInteger_uintValue, requireNonEmptyString_string, normalizeMandateAddress_ok,
    normalizeSlug_ok, requireCanonicalUint_string, if_false, pure, Except.pure]
  constructor
  · rintro ⟨id, ⟨hpos, hsafe, hid⟩, _, ⟨hartgod, -⟩, contract, ⟨-, hcontract⟩, address,
      ⟨hhex, hlower, haddress⟩, opensea, ⟨hopensea, hopenseaText⟩, slug, ⟨hslug, hslugText⟩, wei,
      ⟨hbid, hle, hwei⟩, quantity, ⟨hq, -, hqText⟩, ha⟩
    subst hcontract hopenseaText
    simp only [trim_trim] at hhex hlower haddress hslug hslugText
    refine ⟨⟨hpos, hsafe, hartgod, hhex, hlower, hopensea, hslug, hbid, hle, hq⟩, ?_⟩
    rw [← ha, hid, haddress, hslugText, hwei, hqText]
    rfl
  · rintro ⟨h, rfl⟩
    have hcontract : trim c.contractAddress ≠ "" := by
      intro hempty
      have hhex := h.contractAddress
      rw [hempty] at hhex
      exact absurd hhex (by simp [toLowerCase, isHexOfLength])
    refine ⟨_, ⟨h.id_pos, h.id_safe, rfl⟩, _, ⟨h.artgodSlug, rfl⟩, _, ⟨hcontract, rfl⟩, _, ⟨?_, ?_, rfl⟩,
      _, ⟨h.openseaSlug, rfl⟩, _, ⟨?_, rfl⟩, _, ⟨h.bid_canonical, h.bid_le, rfl⟩, _,
      ⟨h.quantity_pos, hquantity, rfl⟩, ?_⟩
    · rw [trim_trim]
      exact h.contractAddress
    · rw [trim_trim]
      exact h.contractLower
    · rw [trim_trim]
      exact h.openseaLower
    · simp only [trim_trim]
      rfl

theorem parseCollections_toValue {cs : List NativeCollection}
    {seen : List Nat} {as : List BiddingCollectionAuthority} :
    parseCollections p (cs.map NativeCollection.toValue) index seen = .ok as ↔
      (∀ c ∈ cs, c.WellFormed p) ∧ (cs.map fun c => c.collectionId.toNat).Nodup ∧
        (∀ c ∈ cs, c.collectionId.toNat ∉ seen) ∧ as = cs.map (·.authority p) := by
  induction cs generalizing index seen as with
  | nil => simp [parseCollections, eq_comm]
  | cons c rest ih =>
    simp only [List.map_cons, parseCollections, bind_eq_ok, parseCollection_toValue, ite_error_eq_ok, ih,
      pure, Except.pure, Except.ok.injEq, List.nodup_cons, List.mem_cons, not_or, forall_eq_or_imp]
    constructor
    · rintro ⟨a, ⟨hc, rfl⟩, hnew, tail, ⟨hrest, hnodup, hseen, rfl⟩, rfl⟩
      refine ⟨⟨hc, hrest⟩, ⟨?_, hnodup⟩, ⟨hnew, fun x hx => (hseen x hx).2⟩, rfl⟩
      intro hmem
      obtain ⟨x, hx, heq⟩ := List.mem_map.mp hmem
      exact (hseen x hx).1 heq
    · rintro ⟨⟨hc, hrest⟩, ⟨hnotin, hnodup⟩, ⟨hnew, hseen⟩, rfl⟩
      refine ⟨_, ⟨hc, rfl⟩, hnew, _, ⟨hrest, hnodup, fun x hx => ⟨?_, hseen x hx⟩, rfl⟩, rfl⟩
      intro heq
      exact hnotin (List.mem_map.mpr ⟨x, hx, heq⟩)

theorem parseStartPolicy_toValue {policy : NativeStartPolicy} {a : BiddingStartPolicy} :
    BiddingStartPolicy.parse policy.toValue = .ok a ↔ policy.WellFormed ∧ a = policy.authority := by
  have hparse : BiddingStartPolicy.parse policy.toValue = (do
      let cap ← requireCanonicalUint (.string policy.wethAllowanceCapWei) "WETH allowance cap" true
      let minFee ← requireCanonicalUint (.string policy.minPriorityFeePerGasWei)
        "WETH approval minimum priority fee per gas" false
      let maxFee ← requireCanonicalUint (.string policy.maxFeePerGasWei)
        "WETH approval maximum fee per gas" false
      let total ← requireCanonicalUint (.string policy.maxTotalGasFeeWei)
        "WETH approval maximum total gas fee" false
      if maxFee < minFee then
        .error (.biddingMandateViolation
          "WETH approval minimum priority fee per gas exceeds maximum fee per gas")
      else if some pendingNoncePolicyFail ≠ some pendingNoncePolicyFail then
        .error (.biddingMandateViolation "WETH approval pending nonce policy is unsupported")
      else
        .ok ⟨cap, policy.trustOpenSeaSignedZoneTraitOffers, minFee, maxFee, total⟩) := rfl
  simp only [hparse, bind_eq_ok, requireCanonicalUint_string, ite_error_eq_ok, if_true, Bool.false_eq_true,
    if_false, not_lt, ne_eq, not_true_eq_false, Except.ok.injEq]
  constructor
  · rintro ⟨_, ⟨hcap, hcapLe, rfl⟩, _, ⟨hmin, hminLe, rfl⟩, _, ⟨hmax, hmaxLe, rfl⟩, _,
      ⟨htotal, htotalLe, rfl⟩, hordered, rfl⟩
    exact ⟨⟨hcap, hcapLe, hmin, hminLe, hmax, hmaxLe, htotal, htotalLe, hordered⟩, rfl⟩
  · rintro ⟨h, rfl⟩
    exact ⟨_, ⟨h.cap_canonical, h.cap_le, rfl⟩, _, ⟨h.min_canonical, h.min_le, rfl⟩, _,
      ⟨h.max_canonical, h.max_le, rfl⟩, _, ⟨h.total_canonical, h.total_le, rfl⟩, h.ordered, rfl⟩

/-- The mandate that is read from a native one. -/
def NativeMandate.authority (p : Platform) (m : NativeMandate) (h : m.WellFormed p) : BiddingMandate where
  chainId := m.chainId.toNat
  startPolicy := m.startPolicy.authority
  collections := m.collections.map (·.authority p)
  distinct := by
    rw [List.map_map]
    exact h.distinct

/-- **A native mandate is read exactly if it is well formed, on its own chain.** -/
theorem parse_toValue {m : NativeMandate} {a : BiddingMandate} :
    BiddingMandate.parse p m.toValue chainId = .ok a ↔
      m.chainId.toNat = chainId ∧ ∃ h : m.WellFormed p, a = m.authority p h := by
  have hfields : requireMandateRecord m.toValue "mandate" = .ok
      [("chainId", uintValue m.chainId.toNat), ("startPolicy", m.startPolicy.toValue),
        ("collections", .array (m.collections.map NativeCollection.toValue))] := rfl
  simp only [BiddingMandate.parse, bind_eq_ok, hfields, Except.ok.injEq, exists_eq_left', field,
    List.find?_cons_of_pos, List.find?_cons_of_neg, String.reduceEq, decide_false, decide_true,
    Bool.false_eq_true, not_false_eq_true, Option.map_some, Option.getD_some, Value.array?,
    requirePositiveSafeInteger_uintValue, parseStartPolicy_toValue, ite_error_eq_ok, List.map_eq_nil_iff,
    ne_eq, not_not]
  constructor
  · rintro ⟨id, ⟨hpos, hsafe, rfl⟩, hchain, _, ⟨hpolicy, rfl⟩, hnonempty, hmatch⟩
    split at hmatch
    · cases hmatch
    next collections hcollections =>
    obtain ⟨hall, hnodup, -, rfl⟩ := parseCollections_toValue.mp hcollections
    refine ⟨hchain, ⟨hpos, hsafe, hpolicy, hnonempty, hall, hnodup⟩, ?_⟩
    rw [← Except.ok.inj hmatch]
    rfl
  · rintro ⟨hchain, h, rfl⟩
    refine ⟨_, ⟨h.chain_pos, h.chain_safe, rfl⟩, hchain, _, ⟨h.startPolicy, rfl⟩, h.nonempty, ?_⟩
    have hcollections : parseCollections p (m.collections.map NativeCollection.toValue) 0 []
        = .ok (m.collections.map (·.authority p)) :=
      parseCollections_toValue.mpr ⟨h.collections, h.distinct, fun _ _ => List.not_mem_nil, rfl⟩
    split
    · next e he =>
      rw [hcollections] at he
      cases he
    next collections hok =>
    rw [hcollections] at hok
    cases hok
    rfl

/-! ## 4. The frame -/

theorem readUInt32BE_toBeBytes {before after : List UInt8} (h : n < 2 ^ 32) :
    readUInt32BE (before ++ (toBeBytes n ++ after)) before.length = n := by
  have hget : ∀ i, (before ++ (toBeBytes n ++ after)).getD (before.length + i) 0
      = (toBeBytes n ++ after).getD i 0 := by
    intro i
    rw [List.getD_eq_getElem?_getD, List.getD_eq_getElem?_getD,
      List.getElem?_append_right (Nat.le_add_right _ _), Nat.add_sub_cancel_left]
  have hfirst := hget 0
  rw [Nat.add_zero] at hfirst
  rw [readUInt32BE, hfirst, hget 1, hget 2, hget 3]
  simp only [toBeBytes, List.cons_append, List.getD_cons_zero, List.getD_cons_succ,
    UInt8.toNat_ofNat', Nat.reducePow]
  omega

/-- Everything before the metadata. -/
def envelopeHeader (metadataLength : Nat) : List UInt8 :=
  secretEnvelopeMagic ++ [secretEnvelopeVersion] ++ toBeBytes (metadataLength % 2 ^ 32)

theorem envelopeFrame_eq :
    envelopeFrame metadataJson key = envelopeHeader metadataJson.length ++ (metadataJson ++ key) := by
  rw [envelopeFrame, envelopeHeader, List.append_assoc]

theorem envelopeFrame_length :
    (envelopeFrame metadataJson key).length = 13 + (metadataJson.length + key.length) := by
  rw [envelopeFrame_eq, List.length_append, List.length_append]
  rfl

theorem readUInt32BE_frame (hsize : metadataJson.length ≤ secretEnvelopeMaxMetadataLengthBytes) :
    readUInt32BE (envelopeFrame metadataJson key) metadataLengthOffset = metadataJson.length := by
  have hlt : metadataJson.length < 2 ^ 32 := by
    unfold secretEnvelopeMaxMetadataLengthBytes at hsize
    omega
  rw [envelopeFrame_eq, envelopeHeader, Nat.mod_eq_of_lt hlt, List.append_assoc]
  exact readUInt32BE_toBeBytes hlt

theorem resolve_frame {key : WalletPrivateKey}
    (hsize : metadataJson.length ≤ secretEnvelopeMaxMetadataLengthBytes) :
    resolveSecretEnvelopeFrameLength (envelopeFrame metadataJson key.bytes)
      = .ok (some (envelopeFrame metadataJson key.bytes).length) := by
  have hlength : (envelopeFrame metadataJson key.bytes).length = 13 + (metadataJson.length + 32) := by
    rw [envelopeFrame_length, key.length_eq]
  have hmagic : (envelopeFrame metadataJson key.bytes).take 8 = secretEnvelopeMagic := rfl
  have hversion : (envelopeFrame metadataJson key.bytes).getD versionOffset 0 = secretEnvelopeVersion := rfl
  rw [resolveSecretEnvelopeFrameLength, if_neg (by rw [hlength]; unfold secretEnvelopeHeaderLength; omega),
    if_neg (not_not.mpr hmagic), if_neg (not_not.mpr hversion), readUInt32BE_frame hsize, if_neg, hlength]
  · unfold secretEnvelopeHeaderLength secretKeyLengthBytes
    rw [Nat.add_assoc]
  · unfold secretEnvelopeMaxFrameLength
    omega

theorem resolve_take (h : secretEnvelopeHeaderLength ≤ buffer.length) :
    resolveSecretEnvelopeFrameLength (buffer.take secretEnvelopeHeaderLength)
      = resolveSecretEnvelopeFrameLength buffer := by
  have hget : ∀ i, i < secretEnvelopeHeaderLength →
      (buffer.take secretEnvelopeHeaderLength).getD i 0 = buffer.getD i 0 := by
    intro i hi
    rw [List.getD_eq_getElem?_getD, List.getD_eq_getElem?_getD, List.getElem?_take_of_lt hi]
  have hread : readUInt32BE (buffer.take secretEnvelopeHeaderLength) metadataLengthOffset
      = readUInt32BE buffer metadataLengthOffset := by
    unfold readUInt32BE
    rw [hget _ (by decide), hget _ (by decide), hget _ (by decide), hget _ (by decide)]
  have hlength : (buffer.take secretEnvelopeHeaderLength).length = secretEnvelopeHeaderLength := by
    rw [List.length_take, Nat.min_eq_left h]
  have hmagic : (buffer.take secretEnvelopeHeaderLength).take 8 = buffer.take 8 := by
    rw [List.take_take]
    rfl
  rw [resolveSecretEnvelopeFrameLength, resolveSecretEnvelopeFrameLength, hmagic, hread,
    hget versionOffset (by decide), if_neg (Nat.not_lt.mpr hlength.ge), if_neg (Nat.not_lt.mpr h)]

theorem resolve_eq_none :
    resolveSecretEnvelopeFrameLength buffer = .ok none ↔ buffer.length < secretEnvelopeHeaderLength := by
  unfold resolveSecretEnvelopeFrameLength
  split
  · next h => simp [h]
  next h =>
  simp only [h, iff_false]
  split
  · exact fun h => by cases h
  split
  · exact fun h => by cases h
  split
  · exact fun h => by cases h
  · exact fun h => by cases h

theorem parseSecretEnvelope_frame {json : JsonCodec} {walletId address : String}
    {chainId : UInt64} {key : WalletPrivateKey}
    {envelope : TradingSecretEnvelope}
    (hjson : json.decode (json.encode (nativeMetadata walletId address botKind chainId mandate))
      = .ok (nativeMetadata walletId address botKind chainId mandate))
    (hsize : (json.encode (nativeMetadata walletId address botKind chainId mandate)).length
      ≤ secretEnvelopeMaxMetadataLengthBytes)
    (hpos : 0 < chainId.toNat) (hsafe : (chainId.toNat : Int) ≤ maxSafeInteger) :
    parseSecretEnvelope json p
        (envelopeFrame (json.encode (nativeMetadata walletId address botKind chainId mandate)) key.bytes)
      = .ok envelope ↔
    ∃ authority, parseEnvelopeBiddingMandate p botKind ((mandate.map NativeMandate.toValue).getD .null)
        chainId.toNat = .ok authority ∧
      envelope = ⟨walletId, address, botKind, chainId.toNat, authority, key.bytes⟩ := by
  have hlength : ∀ m : List UInt8, (envelopeFrame m key.bytes).length = 13 + (m.length + 32) := by
    intro m
    rw [envelopeFrame_length, key.length_eq]
  have hdrop : ∀ m : List UInt8, (envelopeFrame m key.bytes).drop secretEnvelopeHeaderLength
      = m ++ key.bytes := by
    intro m
    rw [envelopeFrame_eq]
    have hheader : (envelopeHeader m.length).length = secretEnvelopeHeaderLength := rfl
    rw [← hheader, List.drop_left]
  have hkey : ∀ m : List UInt8, (envelopeFrame m key.bytes).drop (secretEnvelopeHeaderLength + m.length)
      = key.bytes := by
    intro m
    rw [← List.drop_drop, hdrop]
    exact List.drop_left
  have hchain : (uintValue chainId.toNat).safeInteger? = some (chainId.toNat : Int) := by
    refine Number.safeInteger?_finite ?_ hsafe
    have : (0 : Int) ≤ chainId.toNat := Int.natCast_nonneg _
    unfold maxSafeInteger
    omega
  have hkind : botKind? (.string (botKindText botKind)) = some botKind := by
    cases botKind <;> rfl
  have hfields : ∀ key, field [("walletId", .string walletId), ("address", .string address),
      ("botKind", .string (botKindText botKind)), ("chainId", uintValue chainId.toNat),
      ("biddingMandate", (mandate.map NativeMandate.toValue).getD .null)] key
      = if key = "walletId" then .string walletId else if key = "address" then .string address
        else if key = "botKind" then .string (botKindText botKind)
        else if key = "chainId" then uintValue chainId.toNat
        else if key = "biddingMandate" then (mandate.map NativeMandate.toValue).getD .null
        else .undefined := by
    intro key
    simp only [field, List.find?_cons, List.find?_nil, eq_comm (b := key)]
    split_ifs <;> simp_all
  have hpositive : ¬ (chainId.toNat : Int) ≤ 0 := by omega
  rw [parseSecretEnvelope, if_neg, resolve_frame hsize]
  · simp only [bind, Except.bind, ne_eq, not_true_eq_false, if_false, readUInt32BE_frame hsize, hdrop,
      List.take_left, hjson]
    simp only [nativeMetadata, Value.record?, hfields, String.reduceEq, if_true, if_false, Value.string?,
      hkind, hchain, hpositive, Int.toNat_natCast, hkey, key.length_eq, secretKeyLengthBytes,
      not_true_eq_false, pure, Except.pure]
    cases parseEnvelopeBiddingMandate p botKind ((mandate.map NativeMandate.toValue).getD .null)
        chainId.toNat with
    | error e => simp
    | ok authority =>
      simp only [Except.ok.injEq, exists_eq_left']
      exact eq_comm
  · rw [hlength]
    unfold secretEnvelopeHeaderLength secretKeyLengthBytes
    omega

/-- What a bot of the kind is given as its authority. -/
def MandateRead (p : Platform) (botKind : BotKind) (mandate : Option NativeMandate) (chainId : Nat)
    (authority : Option BiddingMandate) : Prop :=
  match botKind, mandate with
  | .bidding, some m => m.chainId.toNat = chainId ∧ ∃ h : m.WellFormed p, authority = some (m.authority p h)
  | .sniping, none => authority = none
  | _, _ => False

theorem parseEnvelopeBiddingMandate_ok {authority : Option BiddingMandate} :
    parseEnvelopeBiddingMandate p botKind ((mandate.map NativeMandate.toValue).getD .null) chainId
      = .ok authority ↔ MandateRead p botKind mandate chainId authority := by
  cases botKind with
  | bidding =>
    cases mandate with
    | none => simp [parseEnvelopeBiddingMandate, MandateRead]
    | some m =>
      have hparse : parseEnvelopeBiddingMandate p .bidding ((some m |>.map NativeMandate.toValue).getD .null)
          chainId = (BiddingMandate.parse p m.toValue chainId).map some := rfl
      rw [hparse]
      constructor
      · intro h
        cases hread : BiddingMandate.parse p m.toValue chainId with
        | error e =>
          rw [hread] at h
          cases h
        | ok a =>
          rw [hread] at h
          cases h
          obtain ⟨hchain, hwell, rfl⟩ := parse_toValue.mp hread
          exact ⟨hchain, hwell, rfl⟩
      · rintro ⟨hchain, hwell, rfl⟩
        rw [parse_toValue.mpr ⟨hchain, hwell, rfl⟩]
        rfl
  | sniping =>
    cases mandate with
    | none => simp [parseEnvelopeBiddingMandate, MandateRead, eq_comm]
    | some m =>
      have hparse : parseEnvelopeBiddingMandate p .sniping ((some m |>.map NativeMandate.toValue).getD .null)
          chainId = .error (.error "Sniping secret envelope contains a bidding mandate") := rfl
      rw [hparse]
      simp [MandateRead]

end Artgod.Trading
