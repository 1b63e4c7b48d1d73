/-
# Signing authority

The wallet that the OpenSea SDK gets (`adapters/opensea/open-sea-policy-wallet.ts`) signs only typed data inside
a session that one placement opened: it copies the value, checks the copy and forwards it.  `OfferConforms` is
what a forwarded order is; the three computations of a quantity agree (`quantities_agree`).
-/
import Artgod.Trading.BiddingMandate
import Mathlib.Data.List.Sort

namespace Artgod.Trading

open Js

/-! ## 1. The pinned policy -/

/-- `OPENSEA_MAINNET_SECURITY_POLICY`, with the values the wallet uses. -/
structure OpenSeaSecurityPolicy where
  chainId : Nat
  seaportName : String
  seaportVersion : String
  seaportAddress : String
  signedZoneAddress : String
  conduitKey : String
  wethAddress : String
  zeroAddress : String
  zeroBytes32 : String

def openSeaMainnetSecurityPolicy : OpenSeaSecurityPolicy where
  chainId := 1
  seaportName := "Seaport"
  seaportVersion := "1.6"
  seaportAddress := "0x0000000000000068F116a894984e2DB1123eB395"
  signedZoneAddress := "0x000056f7000000ece9003ca63978907a00ffd100"
  conduitKey := "0x0000007b02230091a7ed01230072f7006a004d60a8d4e71d599b8104250f0000"
  wethAddress := "0xC02aaA39b223FE8D0A0e5C4F27eAD9083C756Cc2"
  zeroAddress := "0x0000000000000000000000000000000000000000"
  zeroBytes32 := "0x0000000000000000000000000000000000000000000000000000000000000000"

/-- `SEAPORT_ITEM_TYPE`. -/
def itemTypeErc20 : Nat := 1
def itemTypeErc721 : Nat := 2
def itemTypeErc1155 : Nat := 3
def itemTypeErc721WithCriteria : Nat := 4
def itemTypeErc1155WithCriteria : Nat := 5

/-- `SEAPORT_ORDER_TYPE.PartialRestricted`. -/
def orderTypePartialRestricted : Nat := 3

def seaportOrderTypes : List (String × List (String × String)) :=
  [("OrderComponents",
      [("offerer", "address"), ("zone", "address"), ("offer", "OfferItem[]"),
        ("consideration", "ConsiderationItem[]"), ("orderType", "uint8"), ("startTime", "uint256"),
        ("endTime", "uint256"), ("zoneHash", "bytes32"), ("salt", "uint256"),
        ("conduitKey", "bytes32"), ("counter", "uint256")]),
    ("OfferItem",
      [("itemType", "uint8"), ("token", "address"), ("identifierOrCriteria", "uint256"),
        ("startAmount", "uint256"), ("endAmount", "uint256")]),
    ("ConsiderationItem",
      [("itemType", "uint8"), ("token", "address"), ("identifierOrCriteria", "uint256"),
        ("startAmount", "uint256"), ("endAmount", "uint256"), ("recipient", "address")])]

def seaportDomainFields : List String := ["chainId", "name", "version", "verifyingContract"]

/-! ## 2. Checks on values -/

def violation {α : Type} (message : String) : Result α := .error (.openSeaPolicyViolation message)

/-- The unsigned integer that a value denotes: a `bigint`, a safe integer, or a literal. -/
def parseUint (value : Value) : Option Nat :=
  let parsed : Option Int :=
    match value with
    | .bigint i => some i
    | .number n => n.safeInteger?
    | .string s =>
      if isCanonicalDecimal s then some (decimalValue s)
      else if isHexLiteral s then some (hexValue s)
      else none
    | _ => none
  (parsed.filter (fun i => decide (0 ≤ i) && decide (i ≤ (maxUint256 : Int)))).map Int.toNat

def requireUint (value : Value) (label : String) : Result Nat :=
  match parseUint value with
  | some n => .ok n
  | none => violation s!"{label} must be an unsigned integer"

def assertUintEquals (value : Value) (expected : Int) (label : String) : Result Unit := do
  let actual ← requireUint value label
  if (actual : Int) ≠ expected then violation s!"{label} must be {expected}; received {actual}"
  else .ok ()

def assertOneOfUint (value : Value) (expected : List Nat) (label : String) : Result Unit := do
  let actual ← requireUint value label
  if actual ∉ expected then
    let allowed := ",".intercalate (expected.map toString)
    violation s!"{label} must be one of {allowed}; received {actual}"
  else .ok ()

def requireString (value : Value) (label : String) : Result String :=
  match value.string? with
  | some s => if s = "" then violation s!"{label} must be a non-empty string" else .ok s
  | none => violation s!"{label} must be a non-empty string"

def requireRecord (value : Value) (label : String) : Result (List (String × Value)) :=
  match value.record? with
  | some fields => .ok fields
  | none => violation s!"{label} must be an object"

def requireArray (value : Value) (label : String) : Result (List Value) :=
  match value.array? with
  | some items => .ok items
  | none => violation s!"{label} must be an array"

def requireBytes32 (value : Value) (label : String) : Result String :=
  match value.string? with
  | some s =>
    if isHexOfLength 64 s then .ok s else violation s!"{label} must be a 32-byte hex value"
  | none => violation s!"{label} must be a 32-byte hex value"

def assertBytes32Equals (value : Value) (expected label : String) : Result Unit := do
  let actual ← requireBytes32 value label
  let expectedHex ← requireBytes32 (.string expected) s!"expected {label}"
  let received := asciiLower actual
  let wanted := asciiLower expectedHex
  if received ≠ wanted then violation s!"{label} must be {wanted}; received {received}"
  else .ok ()

def assertStringEquals (value : Value) (expected label : String) : Result Unit := do
  let actual ← requireString value label
  if actual ≠ expected then violation s!"{label} must be {expected}; received {actual}" else .ok ()

def normalizeAddress (p : Platform) (value label : String) : Result String :=
  match getAddress? p value with
  | some address => .ok address
  | none => violation s!"{label} must be a valid EVM address"

def assertAddressEquals (p : Platform) (value expected label : String) : Result Unit := do
  let actualAddress ← normalizeAddress p value label
  let expectedAddress ← normalizeAddress p expected s!"expected {label}"
  if actualAddress ≠ expectedAddress then
    violation s!"{label} must be {expectedAddress}; received {actualAddress}"
  else .ok ()

/-- A field that must be an address, and this one. -/
def assertAddressField (p : Platform) (value : Value) (expected label stringLabel : String) :
    Result Unit := do
  let text ← requireString value stringLabel
  assertAddressEquals p text expected label

/-- `Object.keys(value).sort()`. -/
def sortedKeys {α : Type} (fields : List (String × α)) : List String :=
  (fields.map Prod.fst).insertionSort (· ≤ ·)

/-! ## 3. Typed data -/

/-- `OpenSeaTypedDataInput`. -/
structure OpenSeaTypedData where
  domain : List (String × Value)
  types : List (String × Value)
  primaryType : String
  message : List (String × Value)

/-- `snapshotRecord`: a copy, which a function anywhere inside prevents. -/
def snapshotRecord (value : Value) (label : String) : Result (List (String × Value)) :=
  if value.isCloneable then requireRecord value label
  else violation s!"{label} could not be copied into trusted memory"

def normalizeTypedDataInput (input : Value) : Result OpenSeaTypedData := do
  let record ← requireRecord input "typed-data request"
  let domain ← snapshotRecord (field record "domain") "typed-data domain"
  let types ← snapshotRecord (field record "types") "typed-data types"
  let primaryType ← requireString (field record "primaryType") "typed-data primary type"
  let message ← snapshotRecord (field record "message") "typed-data message"
  return ⟨domain, types, primaryType, message⟩

def assertSeaportDomain (p : Platform) (domain : List (String × Value))
    (expectedVerifyingContract : String) : Result Unit := do
  if sortedKeys domain ≠ seaportDomainFields.insertionSort (· ≤ ·) then
    let received := ",".intercalate (sortedKeys domain)
    violation s!"EIP-712 domain fields differ; received {received}"
  else
    assertUintEquals (field domain "chainId") openSeaMainnetSecurityPolicy.chainId
      "EIP-712 chain id"
    assertStringEquals (field domain "name") openSeaMainnetSecurityPolicy.seaportName
      "EIP-712 domain name"
    assertStringEquals (field domain "version") openSeaMainnetSecurityPolicy.seaportVersion
      "EIP-712 domain version"
    assertAddressField p (field domain "verifyingContract") expectedVerifyingContract
      "EIP-712 verifying contract" "EIP-712 verifying contract"

/-- One field of a schema. -/
def schemaField (name : String) (index : Nat) (value : Value) : Result (String × String) := do
  let record ← requireRecord value s!"typed-data schema {name} field {index}"
  let fieldName ← requireString (field record "name") "typed-data field name"
  let fieldType ← requireString (field record "type") "typed-data field type"
  return (fieldName, fieldType)

def assertTypedDataTypes (actual : List (String × Value))
    (expected : List (String × List (String × String))) : Result Unit := do
  if sortedKeys actual ≠ sortedKeys expected then
    let received := ",".intercalate (sortedKeys actual)
    violation s!"typed-data schemas differ; received {received}"
  else
    (expected.insertionSort (fun a b => a.1 ≤ b.1)).forM (fun (name, schema) => do
      let fields ← requireArray (field actual name) s!"typed-data schema {name}"
      let normalized ← fields.zipIdx.mapM (fun (value, index) => schemaField name index value)
      if normalized ≠ schema then
        violation s!"typed-data schema {name} does not match the pinned Seaport schema"
      else .ok ())

def assertPrimaryType (actual expected : String) : Result Unit :=
  if actual ≠ expected then
    violation s!"typed-data primary type must be {expected}; received {actual}"
  else .ok ()

/-! ## 4. Placement and expectation -/

structure OpenSeaOfferSigningAuthorization where
  job : BidderJob
  totalAmountWei : Int
  expirationTime : Number

/-- `BigInt(Math.max(1, Math.floor(quantity)))`. -/
def placementQuantity (quantity : Number) : Result Int :=
  match quantity.floor.atLeastOne.toBigInt? with
  | some q => .ok q
  | none => .error (.rangeError "The number cannot be converted to a BigInt because it is not an integer")

/-- The quantity that `placeOffer` multiplies the unit price with. -/
def placeOfferQuantity : BidderTarget → Result Int
  | .token _ => .ok 1
  | .collection quantity _ => placementQuantity quantity
  | .competitiveTrait quantity _ _ => placementQuantity quantity

/-- The authorization that `placeOffer` hands to the wallet. -/
def placeOffer (trustOpenSeaSignedZoneTraitOffers : Bool) (job : BidderJob) (amount : Int)
    (expirationTime : Number) : Result OpenSeaOfferSigningAuthorization :=
  if bidderTargetRequiresOpenSeaSignedZoneTrust job.target && !trustOpenSeaSignedZoneTraitOffers then
    .error (.error
      "Trait and multi-trait offer placement requires explicit OpenSea SignedZone trust in Admin Config")
  else do
    let quantity ← placeOfferQuantity job.target
    return ⟨job, amount * quantity, expirationTime⟩

structure OpenSeaPolicyWallet where
  makerAddress : String
  wethAddress : String
  biddingMandate : BiddingMandate
deriving DecidableEq

/-- The constructor. -/
def OpenSeaPolicyWallet.create (p : Platform) (signerAddress wethAddress : String)
    (biddingMandate : BiddingMandate) : Result OpenSeaPolicyWallet := do
  let maker ← normalizeAddress p signerAddress "typed-data signer"
  let weth ← normalizeAddress p wethAddress "configured WETH address"
  assertAddressEquals p weth openSeaMainnetSecurityPolicy.wethAddress "configured WETH address"
  return ⟨maker, weth, biddingMandate⟩

structure OfferSigningExpectation where
  collectionAddress : String
  tokenId : Option Nat
  quantity : Int
  requiresSignedZoneTrust : Bool
  totalAmountWei : Int
  expirationTime : Int
deriving DecidableEq

def normalizeTargetQuantity (value : Number) : Result Int :=
  match value.floor.atLeastOne.safeInteger? with
  | some q => .ok q
  | none => violation "authorized target quantity must resolve to a safe integer"

/-- The quantity the wallet expects. -/
def expectedQuantity : BidderTarget → Result Int
  | .token _ => .ok 1
  | .collection quantity _ => normalizeTargetQuantity quantity
  | .competitiveTrait quantity _ _ => normalizeTargetQuantity quantity

/-- The token the wallet expects. -/
def expectedTokenId : BidderTarget → Result (Option Nat)
  | .token tokenId => do
    let id ← requireUint (.string tokenId) "authorized token id"
    return some id
  | _ => .ok none

/-- A mandate violation is reported as one of the wallet's policy. -/
def wrapMandateViolation : Result Unit → Result Unit
  | .error (.biddingMandateViolation message) =>
    violation s!"native bidding mandate rejected offer: {message}"
  | result => result

section

variable (w : OpenSeaPolicyWallet)

def OpenSeaPolicyWallet.createOfferSigningExpectation (p : Platform)
    (authorization : OpenSeaOfferSigningAuthorization) : Result OfferSigningExpectation := do
  let job := authorization.job
  let total := authorization.totalAmountWei
  let cap := w.biddingMandate.startPolicy.wethAllowanceCapWei
  wrapMandateViolation (w.biddingMandate.assertOfferAuthorized p job total)
  if total ≤ 0 then violation "offer amount must be positive"
  else if (cap : Int) < total then
    violation s!"offer amount {total} exceeds authorized WETH allowance cap {cap}"
  else
    match authorization.expirationTime.safeInteger? with
    | none => violation "offer expiration must be a positive safe integer"
    | some expirationTime =>
      if expirationTime ≤ 0 then violation "offer expiration must be a positive safe integer"
      else
        let collectionAddress ← normalizeAddress p job.collectionAddress "offer collection address"
        let trust := bidderTargetRequiresOpenSeaSignedZoneTrust job.target
        if trust && !w.biddingMandate.startPolicy.trustOpenSeaSignedZoneTraitOffers then
          violation "trait offer requires explicit OpenSea SignedZone trust"
        else
          let tokenId ← expectedTokenId job.target
          let quantity ← expectedQuantity job.target
          return ⟨collectionAddress, tokenId, quantity, trust, total, expirationTime⟩

/-! ## 5. The order -/

def assertConstantItemAmount (item : List (String × Value)) (expected : Int) (label : String) :
    Result Unit := do
  assertUintEquals (field item "startAmount") expected s!"{label} start"
  assertUintEquals (field item "endAmount") expected s!"{label} end"

def OpenSeaPolicyWallet.assertOfferItems (p : Platform) (value : Value)
    (totalAmountWei : Int) : Result Unit := do
  let items ← requireArray value "order offer"
  match items with
  | [only] =>
    let item ← requireRecord only "WETH offer item"
    assertUintEquals (field item "itemType") itemTypeErc20 "WETH offer item type"
    assertAddressField p (field item "token") w.wethAddress "WETH offer token" "WETH offer token"
    assertUintEquals (field item "identifierOrCriteria") 0 "WETH offer identifier"
    assertUintEquals (field item "startAmount") totalAmountWei "WETH offer start amount"
    assertUintEquals (field item "endAmount") totalAmountWei "WETH offer end amount"
  | items =>
    violation s!"order must contain exactly one WETH offer item; received {items.length}"

def OpenSeaPolicyWallet.assertTargetNftItem (p : Platform)
    (item : List (String × Value)) (e : OfferSigningExpectation) : Result Unit := do
  assertAddressField p (field item "recipient") w.makerAddress "target NFT recipient"
    "target NFT recipient"
  match e.tokenId with
  | some tokenId =>
    assertOneOfUint (field item "itemType") [itemTypeErc721, itemTypeErc1155] "target NFT item type"
    assertUintEquals (field item "identifierOrCriteria") tokenId "target token id"
    assertConstantItemAmount item 1 "target token amount"
  | none =>
    assertOneOfUint (field item "itemType")
      [itemTypeErc721WithCriteria, itemTypeErc1155WithCriteria] "target NFT criteria item type"
    if e.requiresSignedZoneTrust then
      let _ ← requireUint (field item "identifierOrCriteria") "trait criteria root"
      assertConstantItemAmount item e.quantity "target NFT quantity"
    else
      assertUintEquals (field item "identifierOrCriteria") 0 "collection-wide criteria root"
      assertConstantItemAmount item e.quantity "target NFT quantity"

/-- `assertWethFeeItem`: the amount of the fee. -/
def OpenSeaPolicyWallet.assertWethFeeItem (p : Platform) (item : List (String × Value)) : Result Nat := do
  assertUintEquals (field item "itemType") itemTypeErc20 "fee item type"
  assertAddressField p (field item "token") w.wethAddress "fee token" "fee token"
  assertUintEquals (field item "identifierOrCriteria") 0 "fee identifier"
  let text ← requireString (field item "recipient") "fee recipient"
  let recipient ← normalizeAddress p text "fee recipient"
  let zero ← normalizeAddress p openSeaMainnetSecurityPolicy.zeroAddress "zero address"
  if recipient = zero then violation "fee recipient must not be the zero address"
  else
    let amount ← requireUint (field item "startAmount") "fee start amount"
    assertUintEquals (field item "endAmount") amount "fee end amount"
    return amount

/-- The token of a consideration item, normalized. -/
def considerationToken (p : Platform) (item : List (String × Value)) : Result String := do
  let text ← requireString (field item "token") "consideration token"
  normalizeAddress p text "consideration token"

/-- The loop over the other items: the sum of the fees.  An item is compared with the target by
reference; it is the target when its token is the collection, since only one item's is. -/
def OpenSeaPolicyWallet.sumFees (w : OpenSeaPolicyWallet) (p : Platform)
    (collectionAddress : String) : List (List (String × Value) × String) → Nat → Result Nat
  | [], total => .ok total
  | (item, token) :: rest, total =>
    if token = collectionAddress then w.sumFees p collectionAddress rest total
    else do
      let amount ← w.assertWethFeeItem p item
      w.sumFees p collectionAddress rest (total + amount)

def OpenSeaPolicyWallet.assertConsiderationItems (p : Platform)
    (value : Value) (e : OfferSigningExpectation) : Result Unit := do
  let values ← requireArray value "order consideration"
  let items ← values.zipIdx.mapM (fun (item, index) =>
    requireRecord item s!"order consideration item {index}")
  let tokens ← items.mapM (considerationToken p)
  let tagged := items.zip tokens
  match tagged.filter (fun i => i.2 = e.collectionAddress) with
  | [target] =>
    w.assertTargetNftItem p target.1 e
    let feeTotalWei ← w.sumFees p e.collectionAddress tagged 0
    if e.totalAmountWei < feeTotalWei then
      violation s!"order fee allocations {feeTotalWei} exceed offer amount {e.totalAmountWei}"
    else .ok ()
  | nftItems =>
    violation s!"order must contain exactly one target NFT item; received {nftItems.length}"

def OpenSeaPolicyWallet.assertOfferTypedData (p : Platform)
    (typedData : OpenSeaTypedData) (e : OfferSigningExpectation) : Result Unit := do
  let policy := openSeaMainnetSecurityPolicy
  assertSeaportDomain p typedData.domain policy.seaportAddress
  assertPrimaryType typedData.primaryType "OrderComponents"
  assertTypedDataTypes typedData.types seaportOrderTypes
  let order := typedData.message
  assertAddressField p (field order "offerer") w.makerAddress "order offerer" "order offerer"
  assertAddressField p (field order "zone") policy.signedZoneAddress "order zone" "order zone"
  assertBytes32Equals (field order "zoneHash") policy.zeroBytes32 "order zone hash"
  assertBytes32Equals (field order "conduitKey") policy.conduitKey "order conduit key"
  assertUintEquals (field order "orderType") orderTypePartialRestricted "order type"
  let startTime ← requireUint (field order "startTime") "order start time"
  let endTime ← requireUint (field order "endTime") "order end time"
  assertUintEquals (.bigint endTime) e.expirationTime "order expiration"
  if endTime < startTime then violation "order start time exceeds expiration"
  else
    let _ ← requireUint (field order "salt") "order salt"
    let _ ← requireUint (field order "counter") "order counter"
    w.assertOfferItems p (field order "offer") e.totalAmountWei
    w.assertConsiderationItems p (field order "consideration") e
    match field order "totalOriginalConsiderationItems" with
    | .undefined => .ok ()
    | count =>
      let items ← requireArray (field order "consideration") "order consideration"
      assertUintEquals count items.length "total original consideration item count"

/-! ## 6. Sessions -/

inductive OpenSeaSignatureState where
  | available
  | pending
  | complete
deriving DecidableEq

/-- `OfferSigningSession`, with what was forwarded to the signer and how often it signed. -/
structure OfferSigningSession where
  active : Bool
  expectation : OfferSigningExpectation
  signatureState : OpenSeaSignatureState
  forwarded : List OpenSeaTypedData
  signatures : Nat

/-- `authorizeOffer`: the session its work runs in. -/
def OpenSeaPolicyWallet.authorizeOffer (p : Platform)
    (authorization : OpenSeaOfferSigningAuthorization) : Result OfferSigningSession := do
  let expectation ← w.createOfferSigningExpectation p authorization
  return ⟨true, expectation, .available, [], 0⟩

/-- The part of `signTypedData` before the signer is called. -/
def OpenSeaPolicyWallet.acceptTypedData (p : Platform)
    (s : OfferSigningSession) (input : Value) : Result OpenSeaTypedData := do
  if s.active = false then violation "authorized offer is no longer active"
  else if s.signatureState ≠ .available then
    violation "authorized offer requested more than one signature"
  else
    let typedData ← normalizeTypedDataInput input
    w.assertOfferTypedData p typedData s.expectation
    return typedData

/-- What can happen to a session: a request of the SDK, the answer of the signer, the end of the
work. -/
inductive SigningEvent where
  | request (input : Value)
  | signerReturned
  | signerThrew
  | workEnded

def OpenSeaPolicyWallet.signingStep (p : Platform)
    (s : OfferSigningSession) : SigningEvent → OfferSigningSession
  | .request input =>
    match w.acceptTypedData p s input with
    | .ok typedData =>
      { s with signatureState := .pending, forwarded := typedData :: s.forwarded }
    | .error _ => s
  | .signerReturned =>
    if s.signatureState ≠ .pending then s
    else if s.active then { s with signatureState := .complete, signatures := s.signatures + 1 }
    else { s with signatureState := .available }
  | .signerThrew =>
    if s.signatureState ≠ .pending then s else { s with signatureState := .available }
  | .workEnded => { s with active := false }

def OpenSeaPolicyWallet.signingRun (p : Platform)
    (s : OfferSigningSession) (events : List SigningEvent) : OfferSigningSession :=
  events.foldl (w.signingStep p) s

end

/-! ## 7. What the checks establish -/

/-- The value denotes this integer. -/
def DenotesUint (value : Value) (n : Int) : Prop := ∃ k : Nat, parseUint value = some k ∧ (k : Int) = n

/-- The value spells this address. -/
def DenotesAddress (value : Value) (address : String) : Prop :=
  ∃ text, value = .string text ∧ SameAddress text address

variable {label text : String} {value : Value} {u : Unit} {q : Int} {p : Platform}

theorem requireUint_ok {n : Nat}
    (h : requireUint value label = .ok n) : parseUint value = some n := by
  rw [requireUint] at h
  split at h
  · next k hk =>
    cases h
    exact hk
  · cases h

theorem assertUintEquals_ok {expected : Int}
    (h : assertUintEquals value expected label = .ok u) : DenotesUint value expected := by
  simp only [assertUintEquals, violation, bind_eq_ok, ite_error_eq_ok] at h
  obtain ⟨k, hk, heq, -⟩ := h
  exact ⟨k, requireUint_ok hk, not_not.mp heq⟩

theorem assertOneOfUint_ok {expected : List Nat}
    (h : assertOneOfUint value expected label = .ok u) :
    ∃ k ∈ expected, DenotesUint value k := by
  simp only [assertOneOfUint, violation, bind_eq_ok, ite_error_eq_ok] at h
  obtain ⟨k, hk, hmem, -⟩ := h
  exact ⟨k, not_not.mp hmem, k, requireUint_ok hk, rfl⟩

theorem requireString_ok (h : requireString value label = .ok text) : value = .string text := by
  cases value with
  | string s =>
    simp only [requireString, Value.string?, violation, ite_error_eq_ok] at h
    obtain ⟨-, h⟩ := h
    cases h
    rfl
  | _ => cases h

theorem requireRecord_ok {fields : List (String × Value)}
    (h : requireRecord value label = .ok fields) : value = .object fields := by
  cases value with
  | object fs =>
    cases h
    rfl
  | _ => cases h

theorem requireArray_ok {items : List Value}
    (h : requireArray value label = .ok items) : value = .array items := by
  cases value with
  | array vs =>
    cases h
    rfl
  | _ => cases h

theorem normalizeAddress_ok {address : String}
    (h : normalizeAddress p text label = .ok address) : getAddress? p text = some address := by
  rw [normalizeAddress] at h
  split at h
  · next a ha =>
    cases h
    exact ha
  · cases h

section Addresses

variable {p : Platform} (hp : p.ChecksumKeepsAddress)
include hp

variable {label : String}

theorem assertAddressEquals_ok {text expected : String} {u : Unit}
    (h : assertAddressEquals p text expected label = .ok u) : SameAddress text expected := by
  simp only [assertAddressEquals, violation, bind_eq_ok, ite_error_eq_ok] at h
  obtain ⟨a, ha, b, hb, heq, -⟩ := h
  obtain rfl := not_not.mp heq
  exact sameAddress_of_getAddress? hp (normalizeAddress_ok ha) (normalizeAddress_ok hb)

theorem assertAddressField_ok {value : Value} {expected stringLabel : String} {u : Unit}
    (h : assertAddressField p value expected label stringLabel = .ok u) :
    DenotesAddress value expected := by
  simp only [assertAddressField, bind_eq_ok] at h
  obtain ⟨text, htext, heq⟩ := h
  exact ⟨text, requireString_ok htext, assertAddressEquals_ok hp heq⟩

theorem normalizeAddress_same {text address : String}
    (h : normalizeAddress p text label = .ok address) : SameAddress address text := by
  have h' := normalizeAddress_ok h
  rw [getAddress?] at h'
  split at h'
  · next hex =>
    rw [← Option.some.inj h']
    exact hp text hex
  · cases h'

end Addresses

theorem SameAddress.trans {s t u : String} (h : SameAddress s t) (h' : SameAddress t u) :
    SameAddress s u := Eq.trans h h'

theorem DenotesAddress.trans {a b : String} (h : DenotesAddress value a)
    (h' : SameAddress a b) : DenotesAddress value b := by
  obtain ⟨text, htext, hsame⟩ := h
  exact ⟨text, htext, SameAddress.trans hsame h'⟩

/-! ## 8. Conforming orders -/

/-- A constant amount of WETH. -/
structure WethItem (item : List (String × Value)) (amount : Nat) : Prop where
  itemType : DenotesUint (field item "itemType") itemTypeErc20
  token : DenotesAddress (field item "token") openSeaMainnetSecurityPolicy.wethAddress
  identifier : DenotesUint (field item "identifierOrCriteria") 0
  startAmount : DenotesUint (field item "startAmount") amount
  endAmount : DenotesUint (field item "endAmount") amount

/-- An NFT of the contract for the maker: the token itself, or any token that meets criteria. -/
structure TargetItem (item : List (String × Value)) (maker contract : String)
    (target : BidderTarget) (quantity : Int) : Prop where
  token : ∃ text, field item "token" = .string text ∧ asciiLower text = contract
  recipient : DenotesAddress (field item "recipient") maker
  startAmount : DenotesUint (field item "startAmount") quantity
  endAmount : DenotesUint (field item "endAmount") quantity
  kind : match target with
    | .token tokenId =>
      (∃ t ∈ [itemTypeErc721, itemTypeErc1155], DenotesUint (field item "itemType") t) ∧
        ∃ id : Nat, parseUint (.string tokenId) = some id ∧
          DenotesUint (field item "identifierOrCriteria") id
    | _ =>
      ∃ t ∈ [itemTypeErc721WithCriteria, itemTypeErc1155WithCriteria],
        DenotesUint (field item "itemType") t

/-- The order offers one WETH amount for one item of the collection, and splits at most that amount
into fees. -/
structure OfferConforms (maker contract : String) (target : BidderTarget) (quantity total : Int)
    (order : List (String × Value)) : Prop where
  offerer : DenotesAddress (field order "offerer") maker
  offer : ∃ item amount, field order "offer" = .array [.object item] ∧ WethItem item amount ∧
    (amount : Int) = total
  consideration : ∃ before nft after fees,
    field order "consideration" = .array ((before ++ nft :: after).map .object) ∧
      TargetItem nft maker contract target quantity ∧
      List.Forall₂ WethItem (before ++ after) fees ∧ (fees.sum : Int) ≤ total

/-! ## 9. One quantity -/

theorem normalizeTargetQuantity_int (hpos : 0 < q) (hsafe : q ≤ maxSafeInteger) :
    normalizeTargetQuantity (.finite q) = .ok q := by
  have hlow : -maxSafeInteger ≤ q := by
    rw [maxSafeInteger]
    omega
  rw [normalizeTargetQuantity, Number.floor_int, Number.atLeastOne_int hpos,
    Number.safeInteger?_finite hlow hsafe]

theorem placementQuantity_int (hpos : 0 < q) : placementQuantity (.finite q) = .ok q := by
  rw [placementQuantity, Number.floor_int, Number.atLeastOne_int hpos, Number.toBigInt?_int]

theorem resolve_ok {job : BidderJob} {n : Number}
    (h : resolveOfferQuantity.resolve job n = .ok q) :
    placementQuantity n = .ok q ∧ normalizeTargetQuantity n = .ok q := by
  rw [resolveOfferQuantity.resolve] at h
  split at h
  · next k hk =>
    obtain ⟨rfl, -, hsafe⟩ := Number.safeInteger?_eq_some hk
    split at h
    · next hpos =>
      cases h
      exact ⟨placementQuantity_int hpos, normalizeTargetQuantity_int hpos hsafe⟩
    · cases h
  · cases h

theorem normalizeTargetQuantity_ok {n : Number} (h : normalizeTargetQuantity n = .ok q) :
    placementQuantity n = .ok q := by
  rw [normalizeTargetQuantity] at h
  split at h
  · next k hk =>
    cases h
    rw [placementQuantity, (Number.safeInteger?_eq_some hk).1, Number.toBigInt?_int]
  · cases h

/-- The three computations of a quantity agree wherever they return. -/
structure QuantitiesAgree (job : BidderJob) : Prop where
  mandate : ∀ q, resolveOfferQuantity job = .ok q →
    placeOfferQuantity job.target = .ok q ∧ expectedQuantity job.target = .ok q
  wallet : ∀ q, expectedQuantity job.target = .ok q → placeOfferQuantity job.target = .ok q

theorem quantities_agree (job : BidderJob) : QuantitiesAgree job := by
  obtain ⟨id, address, slug, target⟩ := job
  cases target with
  | token tokenId => exact ⟨fun q h => ⟨h, h⟩, fun q h => h⟩
  | collection quantity traits =>
    exact ⟨fun q h => resolve_ok h, fun q h => normalizeTargetQuantity_ok h⟩
  | competitiveTrait quantity targetTrait competitorTraits =>
    exact ⟨fun q h => resolve_ok h, fun q h => normalizeTargetQuantity_ok h⟩

/-! ## 10. Accepted orders conform -/

/-- The wallet was built with this signer and the pinned WETH. -/
structure OpenSeaPolicyWallet.BuiltFor (w : OpenSeaPolicyWallet) (signerAddress : String)
    (m : BiddingMandate) : Prop where
  maker : SameAddress w.makerAddress signerAddress
  weth : SameAddress w.wethAddress openSeaMainnetSecurityPolicy.wethAddress
  mandate : w.biddingMandate = m

theorem split_of_filter_eq_singleton {α : Type} {q : α → Prop} [DecidablePred q] {l : List α} {a : α}
    (h : l.filter (fun x => q x) = [a]) :
    q a ∧ ∃ before after, l = before ++ a :: after ∧ l.filter (fun x => ¬ q x) = before ++ after := by
  obtain ⟨before, after, rfl, hbefore, hqa, hafter⟩ := List.filter_eq_cons_iff.mp h
  rw [List.filter_eq_nil_iff] at hafter
  refine ⟨by simpa using hqa, before, after, rfl, ?_⟩
  rw [List.filter_append, List.filter_cons_of_neg (by simpa using hqa),
    List.filter_eq_self.mpr (fun x hx => by simpa using hbefore x hx),
    List.filter_eq_self.mpr (fun x hx => by simpa using hafter x hx)]

theorem records_ok (label : Nat → String) {k : Nat} :
    ∀ {values : List Value} {items : List (List (String × Value))},
      (values.zipIdx k).mapM (fun x => requireRecord x.1 (label x.2)) = .ok items →
      values = items.map .object
  | [], items, h => by
    cases h
    rfl
  | v :: rest, items, h => by
    simp only [List.zipIdx_cons, List.mapM_cons, bind_eq_ok] at h
    obtain ⟨item, hitem, tail, htail, hpure⟩ := h
    cases hpure
    rw [List.map_cons, ← records_ok label htail, requireRecord_ok hitem]

section Accepted

variable {p : Platform} (hp : p.ChecksumKeepsAddress)
include hp

theorem create_ok {signerAddress wethAddress : String} {m : BiddingMandate}
    {w : OpenSeaPolicyWallet} (h : OpenSeaPolicyWallet.create p signerAddress wethAddress m = .ok w) :
    w.BuiltFor signerAddress m := by
  simp only [OpenSeaPolicyWallet.create, bind_eq_ok] at h
  obtain ⟨maker, hmaker, weth, -, u, hweth, hpure⟩ := h
  cases hpure
  exact ⟨normalizeAddress_same hp hmaker, assertAddressEquals_ok hp hweth, rfl⟩

variable {w : OpenSeaPolicyWallet} {signerAddress : String} {m : BiddingMandate}

theorem assertOfferItems_ok (hw : w.BuiltFor signerAddress m) {value : Value} {total : Int}
    {u : Unit} (h : w.assertOfferItems p value total = .ok u) :
    ∃ item amount, value = .array [.object item] ∧ WethItem item amount ∧ (amount : Int) = total := by
  simp only [OpenSeaPolicyWallet.assertOfferItems, bind_eq_ok] at h
  obtain ⟨items, hitems, h⟩ := h
  split at h
  · next only =>
    simp only [bind_eq_ok] at h
    obtain ⟨item, hitem, _, htype, _, htoken, _, hid, _, hstart, hend⟩ := h
    obtain ⟨amount, hamount, hval⟩ := assertUintEquals_ok hstart
    refine ⟨item, amount, ?_, ?_, hval⟩
    · rw [requireArray_ok hitems, requireRecord_ok hitem]
    exact {
      itemType := assertUintEquals_ok htype
      token := DenotesAddress.trans (assertAddressField_ok hp htoken) hw.weth
      identifier := assertUintEquals_ok hid
      startAmount := ⟨amount, hamount, rfl⟩
      endAmount := by
        rw [hval]
        exact assertUintEquals_ok hend }
  · cases h

theorem assertWethFeeItem_ok (hw : w.BuiltFor signerAddress m) {item : List (String × Value)}
    {amount : Nat} (h : w.assertWethFeeItem p item = .ok amount) : WethItem item amount := by
  simp only [OpenSeaPolicyWallet.assertWethFeeItem, violation, bind_eq_ok, ite_error_eq_ok] at h
  obtain ⟨_, htype, _, htoken, _, hid, _, -, _, -, _, -, -, n, hstart, _, hend, hpure⟩ := h
  cases hpure
  exact {
    itemType := assertUintEquals_ok htype
    token := DenotesAddress.trans (assertAddressField_ok hp htoken) hw.weth
    identifier := assertUintEquals_ok hid
    startAmount := ⟨amount, requireUint_ok hstart, rfl⟩
    endAmount := assertUintEquals_ok hend }

theorem sumFees_ok (hw : w.BuiltFor signerAddress m) {collectionAddress : String} :
    ∀ {tagged : List (List (String × Value) × String)} {total result : Nat},
      w.sumFees p collectionAddress tagged total = .ok result →
      ∃ fees, List.Forall₂ WethItem ((tagged.filter (fun i => i.2 ≠ collectionAddress)).map Prod.fst) fees ∧
        result = total + fees.sum
  | [], total, result, h => by
    cases h
    exact ⟨[], .nil, rfl⟩
  | (item, token) :: rest, total, result, h => by
    rw [OpenSeaPolicyWallet.sumFees] at h
    by_cases htoken : token = collectionAddress
    · rw [if_pos htoken] at h
      obtain ⟨fees, hfees, hsum⟩ := sumFees_ok hw h
      refine ⟨fees, ?_, hsum⟩
      rw [List.filter_cons_of_neg (by simpa using htoken)]
      exact hfees
    · rw [if_neg htoken, bind_eq_ok] at h
      obtain ⟨amount, hamount, h⟩ := h
      obtain ⟨fees, hfees, hsum⟩ := sumFees_ok hw h
      refine ⟨amount :: fees, ?_, ?_⟩
      · rw [List.filter_cons_of_pos (by simpa using htoken)]
        exact .cons (assertWethFeeItem_ok hp hw hamount) hfees
      · rw [List.sum_cons, hsum, Nat.add_assoc]

end Accepted

/-- The target of the placement, as the expectation has it. -/
structure OfferSigningExpectation.Expects (e : OfferSigningExpectation) (p : Platform)
    (contract : String) (target : BidderTarget) (quantity total : Int) : Prop where
  collection : ∃ text, getAddress? p text = some e.collectionAddress ∧ asciiLower text = contract
  tokenId : expectedTokenId target = .ok e.tokenId
  quantity : expectedQuantity target = .ok quantity ∧ e.quantity = quantity
  total : e.totalAmountWei = total

theorem assertConstantItemAmount_ok {item : List (String × Value)} {expected : Int}
    (h : assertConstantItemAmount item expected label = .ok u) :
    DenotesUint (field item "startAmount") expected ∧ DenotesUint (field item "endAmount") expected := by
  simp only [assertConstantItemAmount, bind_eq_ok] at h
  obtain ⟨_, hstart, hend⟩ := h
  exact ⟨assertUintEquals_ok hstart, assertUintEquals_ok hend⟩

theorem expectedTokenId_ok {target : BidderTarget} {id : Option Nat}
    (h : expectedTokenId target = .ok id) :
    (∃ tokenId n, target = .token tokenId ∧ id = some n ∧ parseUint (.string tokenId) = some n) ∨
      (∀ tokenId, target ≠ .token tokenId) ∧ id = none := by
  cases target with
  | token tokenId =>
    simp only [expectedTokenId, bind_eq_ok] at h
    obtain ⟨n, hn, hpure⟩ := h
    cases hpure
    exact Or.inl ⟨tokenId, n, rfl, rfl, requireUint_ok hn⟩
  | collection quantity traits =>
    cases h
    exact Or.inr ⟨fun _ h => (by cases h), rfl⟩
  | competitiveTrait quantity targetTrait competitorTraits =>
    cases h
    exact Or.inr ⟨fun _ h => (by cases h), rfl⟩

section Consideration

variable {p : Platform} (hp : p.ChecksumKeepsAddress)
variable {w : OpenSeaPolicyWallet} {signerAddress : String} {m : BiddingMandate}
variable {e : OfferSigningExpectation} {contract : String} {target : BidderTarget}
variable {quantity total : Int}
include hp

theorem considerationToken_ok (he : e.Expects p contract target quantity total)
    {item : List (String × Value)} (h : considerationToken p item = .ok e.collectionAddress) :
    ∃ text, field item "token" = .string text ∧ asciiLower text = contract := by
  simp only [considerationToken, bind_eq_ok] at h
  obtain ⟨text, htext, haddress⟩ := h
  obtain ⟨authorized, hauthorized, hlower⟩ := he.collection
  refine ⟨text, requireString_ok htext, ?_⟩
  rw [← hlower]
  exact sameAddress_of_getAddress? hp (normalizeAddress_ok haddress) hauthorized

variable {u : Unit}

theorem assertTargetNftItem_ok (hw : w.BuiltFor signerAddress m)
    (he : e.Expects p contract target quantity total) {item : List (String × Value)}
    (htoken : considerationToken p item = .ok e.collectionAddress)
    (h : w.assertTargetNftItem p item e = .ok u) :
    TargetItem item signerAddress contract target quantity := by
  simp only [OpenSeaPolicyWallet.assertTargetNftItem, bind_eq_ok] at h
  obtain ⟨_, hrecipient, h⟩ := h
  have hrecipient' := DenotesAddress.trans (assertAddressField_ok hp hrecipient) hw.maker
  have htoken' := considerationToken_ok hp he htoken
  rcases expectedTokenId_ok he.tokenId with ⟨tokenId, n, rfl, hid, hn⟩ | ⟨hnot, hid⟩
  · -- A token target: its quantity is one for everyone.
    simp only [hid, bind_eq_ok] at h
    obtain ⟨_, htype, _, hident, hamount⟩ := h
    obtain ⟨hstart, hend⟩ := assertConstantItemAmount_ok hamount
    have hone : quantity = 1 := by
      have := he.quantity.1
      cases this
      rfl
    subst hone
    exact ⟨htoken', hrecipient', hstart, hend, assertOneOfUint_ok htype, n, hn, assertUintEquals_ok hident⟩
  · simp only [hid, bind_eq_ok] at h
    obtain ⟨_, htype, h⟩ := h
    have hamount : assertConstantItemAmount item e.quantity "target NFT quantity" = .ok u := by
      split at h
      · rw [bind_eq_ok] at h
        obtain ⟨_, -, h⟩ := h
        exact h
      · rw [bind_eq_ok] at h
        obtain ⟨_, -, h⟩ := h
        exact h
    rw [he.quantity.2] at hamount
    obtain ⟨hstart, hend⟩ := assertConstantItemAmount_ok hamount
    refine ⟨htoken', hrecipient', hstart, hend, ?_⟩
    cases target with
    | token tokenId => exact absurd rfl (hnot tokenId)
    | collection q traits => exact assertOneOfUint_ok htype
    | competitiveTrait q t c => exact assertOneOfUint_ok htype

/-- **One item of the consideration is the target, every other one is a fee in WETH.** -/
theorem assertConsiderationItems_ok (hw : w.BuiltFor signerAddress m)
    (he : e.Expects p contract target quantity total) {value : Value}
    (h : w.assertConsiderationItems p value e = .ok u) :
    ∃ before nft after fees, value = .array ((before ++ nft :: after).map .object) ∧
      TargetItem nft signerAddress contract target quantity ∧
      List.Forall₂ WethItem (before ++ after) fees ∧ (fees.sum : Int) ≤ total := by
  simp only [OpenSeaPolicyWallet.assertConsiderationItems, bind_eq_ok] at h
  obtain ⟨values, hvalues, items, hitems, tokens, htokens, h⟩ := h
  have htokens' := mapM_ok htokens
  have hfst : (items.zip tokens).map Prod.fst = items := by
    rw [← List.unzip_fst, List.unzip_zip_left htokens'.length_eq.le]
  split at h
  · next nft hone =>
    obtain ⟨hnft, before, after, hsplit, hrest⟩ := split_of_filter_eq_singleton hone
    simp only [violation, bind_eq_ok, ite_error_eq_ok] at h
    obtain ⟨_, htarget, feeTotal, hsum, hcap, -⟩ := h
    obtain ⟨fees, hfees, hfeeTotal⟩ := sumFees_ok hp hw hsum
    have hmem : nft ∈ items.zip tokens := by
      rw [hsplit]
      exact List.mem_append_right _ List.mem_cons_self
    have htoken : considerationToken p nft.1 = .ok nft.2 := List.forall₂_zip htokens' hmem
    rw [hnft] at htoken
    have hitems' : items = before.map Prod.fst ++ nft.1 :: after.map Prod.fst := by
      rw [← hfst, hsplit, List.map_append, List.map_cons]
    refine ⟨before.map Prod.fst, nft.1, after.map Prod.fst, fees, ?_,
      assertTargetNftItem_ok hp hw he htoken htarget, ?_, ?_⟩
    · have hrecords := records_ok (fun index => s!"order consideration item {index}") hitems
      rw [requireArray_ok hvalues, hrecords, hitems']
    · rw [← List.map_append, ← hrest]
      exact hfees
    · rw [he.total] at hcap
      omega
  · cases h

/-- **What passes the validator is the order that was authorized.** -/
theorem assertOfferTypedData_ok (hw : w.BuiltFor signerAddress m)
    (he : e.Expects p contract target quantity total) {typedData : OpenSeaTypedData}
    (h : w.assertOfferTypedData p typedData e = .ok u) :
    OfferConforms signerAddress contract target quantity total typedData.message := by
  simp only [OpenSeaPolicyWallet.assertOfferTypedData, violation, bind_eq_ok, ite_error_eq_ok] at h
  obtain ⟨_, -, _, -, _, -, _, hofferer, _, -, _, -, _, -, _, -, _, -, _, -, _, -, -, _, -, _, -,
    _, hoffer, _, hconsideration, -⟩ := h
  rw [he.total] at hoffer
  exact ⟨DenotesAddress.trans (assertAddressField_ok hp hofferer) hw.maker,
    assertOfferItems_ok hp hw hoffer, assertConsiderationItems_ok hp hw he hconsideration⟩

end Consideration

/-! ## 11. Authorized placements -/

theorem wrapMandateViolation_ok {r : Result Unit} (h : wrapMandateViolation r = .ok u) :
    r = .ok u := by
  cases r with
  | ok v => exact h
  | error err =>
    cases err with
    | biddingMandateViolation message => cases h
    | openSeaPolicyViolation message => cases h
    | rangeError message => cases h
    | error message => cases h

theorem authorized_contract {address contract : String}
    (h : getAddress? p text = some address) (hcontract : toLowerCase p (trim text) = contract) :
    asciiLower text = contract := by
  rw [getAddress?] at h
  split at h
  · next hex =>
    rw [← hcontract, trim_address hex, toLowerCase_address hex]
  · cases h

theorem createOfferSigningExpectation_ok {w : OpenSeaPolicyWallet}
    {authorization : OpenSeaOfferSigningAuthorization} {e : OfferSigningExpectation}
    (h : w.createOfferSigningExpectation p authorization = .ok e) :
    ∃ quantity authority,
      OfferAuthorized w.biddingMandate p authorization.job authorization.totalAmountWei quantity authority ∧
      authorization.totalAmountWei ≤ w.biddingMandate.startPolicy.wethAllowanceCapWei ∧
      e.Expects p authority.contractAddress authorization.job.target quantity
        authorization.totalAmountWei := by
  simp only [OpenSeaPolicyWallet.createOfferSigningExpectation, violation, bind_eq_ok, ite_error_eq_ok] at h
  obtain ⟨_, hmandate, -, hcap, h⟩ := h
  obtain ⟨quantity, authority, hauthorized⟩ :=
    assertOfferAuthorized_ok (wrapMandateViolation_ok hmandate)
  split at h
  · cases h
  simp only [bind_eq_ok, ite_error_eq_ok] at h
  obtain ⟨-, address, haddress, -, tokenId, htoken, q, hq, hpure⟩ := h
  cases hpure
  have hagree := ((quantities_agree authorization.job).mandate quantity hauthorized.resolved).2
  have hsame : q = quantity := by
    rw [hagree] at hq
    exact (Except.ok.inj hq).symm
  have hcontract := authorized_contract (normalizeAddress_ok haddress) hauthorized.contract
  exact ⟨quantity, authority, hauthorized, not_lt.mp hcap,
    ⟨_, normalizeAddress_ok haddress, hcontract⟩, htoken, ⟨hagree, hsame⟩, rfl⟩

/-! ## 12. Runs of a session -/

/-- What holds of a session at any time: it was opened for `e`, it forwarded conforming orders only,
and a signature ends it. -/
structure SessionInv (e : OfferSigningExpectation) (conforms : List (String × Value) → Prop)
    (s : OfferSigningSession) : Prop where
  expectation : s.expectation = e
  forwarded : ∀ typedData ∈ s.forwarded, conforms typedData.message
  signatures : s.signatures = if s.signatureState = .complete then 1 else 0

section Runs

variable {p : Platform} {w : OpenSeaPolicyWallet} {e : OfferSigningExpectation}
variable {conforms : List (String × Value) → Prop}
variable (hchecked : ∀ {typedData : OpenSeaTypedData} {u : Unit},
  w.assertOfferTypedData p typedData e = .ok u → conforms typedData.message)
include hchecked

theorem acceptTypedData_ok {s : OfferSigningSession} (hs : SessionInv e conforms s) {input : Value}
    {typedData : OpenSeaTypedData} (h : w.acceptTypedData p s input = .ok typedData) :
    s.signatureState = .available ∧ conforms typedData.message := by
  simp only [OpenSeaPolicyWallet.acceptTypedData, violation, ite_error_eq_ok, bind_eq_ok] at h
  obtain ⟨-, havailable, normalized, -, u, hassert, hpure⟩ := h
  cases hpure
  rw [hs.expectation] at hassert
  exact ⟨not_not.mp havailable, hchecked hassert⟩

theorem SessionInv.step {s : OfferSigningSession} (hs : SessionInv e conforms s)
    (event : SigningEvent) : SessionInv e conforms (w.signingStep p s event) := by
  cases event with
  | request input =>
    rw [OpenSeaPolicyWallet.signingStep]
    split
    · next typedData haccept =>
      obtain ⟨havailable, hconforms⟩ := acceptTypedData_ok hchecked hs haccept
      refine ⟨hs.expectation, fun t ht => ?_, ?_⟩
      · rcases List.mem_cons.mp ht with rfl | ht
        · exact hconforms
        · exact hs.forwarded t ht
      · simpa [havailable] using hs.signatures
    · exact hs
  | signerReturned =>
    simp only [OpenSeaPolicyWallet.signingStep]
    split_ifs with hpending hactive
    · exact hs
    · have hnone := hs.signatures
      rw [not_not.mp hpending] at hnone
      exact ⟨hs.expectation, hs.forwarded, by simp [hnone]⟩
    · have hnone := hs.signatures
      rw [not_not.mp hpending] at hnone
      exact ⟨hs.expectation, hs.forwarded, by simp [hnone]⟩
  | signerThrew =>
    simp only [OpenSeaPolicyWallet.signingStep]
    split_ifs with hpending
    · exact hs
    · have hnone := hs.signatures
      rw [not_not.mp hpending] at hnone
      exact ⟨hs.expectation, hs.forwarded, by simp [hnone]⟩
  | workEnded => exact ⟨hs.expectation, hs.forwarded, hs.signatures⟩

theorem SessionInv.run : ∀ (events : List SigningEvent) {s : OfferSigningSession},
    SessionInv e conforms s → SessionInv e conforms (w.signingRun p s events)
  | [], _, hs => hs
  | event :: rest, _, hs => SessionInv.run rest (hs.step hchecked event)

end Runs

/-- **Signing authority.**  Whatever the SDK asks for in the session of an authorized placement, and
however often it asks, the signer gets only orders of the maker that offer the authorized price times
the authorized quantity in WETH, within the caps, for one item of the authorized collection; fees are
in WETH and within the offer.  The session returns at most one signature.  The three computations of
the quantity agree on every job. -/
theorem forwarded_orders_authorized {p : Platform} (hp : p.ChecksumKeepsAddress)
    {m : BiddingMandate} {signerAddress wethAddress : String} {w : OpenSeaPolicyWallet}
    (hw : OpenSeaPolicyWallet.create p signerAddress wethAddress m = .ok w) {trust : Bool}
    {job : BidderJob} {amount : Int} {expirationTime : Number}
    {authorization : OpenSeaOfferSigningAuthorization}
    (hplace : placeOffer trust job amount expirationTime = .ok authorization)
    {session : OfferSigningSession} (hsession : w.authorizeOffer p authorization = .ok session)
    (events : List SigningEvent) :
    (∃ quantity authority, authority ∈ m.collections ∧ authority.collectionId = job.collectionId ∧
      placeOfferQuantity job.target = .ok quantity ∧
      resolveOfferQuantity job = .ok quantity ∧
      expectedQuantity job.target = .ok quantity ∧
      amount * quantity ≤ authority.maxUnitBidWei * quantity ∧
      amount * quantity ≤ m.startPolicy.wethAllowanceCapWei ∧
      (∀ typedData ∈ (w.signingRun p session events).forwarded,
        OfferConforms signerAddress authority.contractAddress job.target quantity
          (amount * quantity) typedData.message) ∧
      (w.signingRun p session events).signatures ≤ 1) ∧
    ∀ job', QuantitiesAgree job' := by
  refine ⟨?_, quantities_agree⟩
  have hbuilt := create_ok hp hw
  simp only [placeOffer, ite_error_eq_ok, bind_eq_ok] at hplace
  obtain ⟨-, placed, hplaced, hpure⟩ := hplace
  cases hpure
  simp only [OpenSeaPolicyWallet.authorizeOffer, bind_eq_ok] at hsession
  obtain ⟨e, hexpectation, hopen⟩ := hsession
  cases hopen
  obtain ⟨quantity, authority, hauthorized, hcap, hexpects⟩ :=
    createOfferSigningExpectation_ok hexpectation
  rw [hbuilt.mandate] at hauthorized hcap
  have hagree := (quantities_agree job).mandate quantity hauthorized.resolved
  have hsame : placed = quantity := by
    rw [hagree.1] at hplaced
    exact (Except.ok.inj hplaced).symm
  subst hsame
  have hrun := SessionInv.run (assertOfferTypedData_ok hp hbuilt hexpects) events
    (s := ⟨true, e, .available, [], 0⟩) ⟨rfl, by simp, rfl⟩
  refine ⟨placed, authority, hauthorized.mem, hauthorized.collectionId, hagree.1,
    hauthorized.resolved, hagree.2, hauthorized.unitCap, hcap, hrun.forwarded, ?_⟩
  rw [hrun.signatures]
  split <;> omega

/-- A platform with the checksums of the three pinned addresses that have letters. -/
def pinnedPlatform : Platform where
  lowerNonAscii c := [c]
  checksumAddress s :=
    if asciiLower s = "0x0000000000000068f116a894984e2db1123eb395" then
      "0x0000000000000068F116a894984e2DB1123eB395"
    else if asciiLower s = "0x000056f7000000ece9003ca63978907a00ffd100" then
      "0x000056F7000000EcE9003ca63978907a00FFD100"
    else if asciiLower s = "0xc02aaa39b223fe8d0a0e5c4f27ead9083c756cc2" then
      "0xC02aaA39b223FE8D0A0e5C4F27eAD9083C756Cc2"
    else s

theorem pinnedPlatform_keepsAddress : pinnedPlatform.ChecksumKeepsAddress := by
  intro s _
  simp only [SameAddress, pinnedPlatform]
  split_ifs with h₁ h₂ h₃
  · rw [h₁]
    decide +kernel
  · rw [h₂]
    decide +kernel
  · rw [h₃]
    decide +kernel
  · rfl

/-- One collection, at most 10 wei a unit and five units, with an allowance of 100 wei. -/
def twoUnitMandate : BiddingMandate where
  chainId := 1
  startPolicy := ⟨100, false, 1, 1, 1⟩
  collections := [⟨7, "0x2222222222222222222222222222222222222222", "glyphs", 10, 5⟩]
  distinct := by decide

/-- An offer for any two tokens of the collection. -/
def twoUnitJob : BidderJob :=
  ⟨7, "0x2222222222222222222222222222222222222222", "glyphs", .collection (.finite 2) []⟩

/-- The order for `twoUnitJob` at 9 wei a unit, with a fee of one wei. -/
def twoUnitTypedData : Value :=
  let text := Value.string
  let schema (fields : List (String × String)) : Value :=
    .array (fields.map (fun f => .object [("name", text f.1), ("type", text f.2)]))
  let item (itemType token amount : String) : List (String × Value) :=
    [("itemType", text itemType), ("token", text token), ("identifierOrCriteria", text "0"),
      ("startAmount", text amount), ("endAmount", text amount)]
  .object
    [("domain", .object
      [("name", text "Seaport"), ("version", text "1.6"), ("chainId", .number (.finite 1)),
        ("verifyingContract", text "0x0000000000000068F116a894984e2DB1123eB395")]),
    ("types", .object (seaportOrderTypes.map (fun t => (t.1, schema t.2)))),
    ("primaryType", text "OrderComponents"),
    ("message", .object
      [("offerer", text "0x1111111111111111111111111111111111111111"),
        ("zone", text "0x000056f7000000ece9003ca63978907a00ffd100"),
        ("zoneHash", text openSeaMainnetSecurityPolicy.zeroBytes32),
        ("conduitKey", text openSeaMainnetSecurityPolicy.conduitKey),
        ("orderType", .number (.finite 3)), ("startTime", text "900"), ("endTime", text "1000"),
        ("salt", text "0x2a"), ("counter", text "0"),
        ("offer", .array [.object (item "1" "0xC02aaA39b223FE8D0A0e5C4F27eAD9083C756Cc2" "18")]),
        ("consideration", .array
          [.object (item "4" "0x2222222222222222222222222222222222222222" "2" ++
              [("recipient", text "0x1111111111111111111111111111111111111111")]),
            .object (item "1" "0xC02aaA39b223FE8D0A0e5C4F27eAD9083C756Cc2" "1" ++
              [("recipient", text "0x3333333333333333333333333333333333333333")])])])]

def twoUnitWallet : OpenSeaPolicyWallet :=
  ⟨"0x1111111111111111111111111111111111111111", "0xC02aaA39b223FE8D0A0e5C4F27eAD9083C756Cc2",
    twoUnitMandate⟩

def twoUnitSession : OfferSigningSession :=
  ⟨true, ⟨"0x2222222222222222222222222222222222222222", none, 2, false, 18, 1000⟩, .available, [], 0⟩

theorem forwarded_orders_authorized_twoUnits : (twoUnitWallet.signingRun pinnedPlatform twoUnitSession
      [.request twoUnitTypedData, .signerReturned, .request twoUnitTypedData]).forwarded.length = 1 ∧
    ∃ quantity authority, authority ∈ twoUnitMandate.collections ∧
      ∀ typedData ∈ (twoUnitWallet.signingRun pinnedPlatform twoUnitSession
          [.request twoUnitTypedData, .signerReturned, .request twoUnitTypedData]).forwarded,
        OfferConforms "0x1111111111111111111111111111111111111111" authority.contractAddress
          twoUnitJob.target quantity (9 * quantity) typedData.message := by
  have hcreate : OpenSeaPolicyWallet.create pinnedPlatform
      "0x1111111111111111111111111111111111111111" "0xC02aaA39b223FE8D0A0e5C4F27eAD9083C756Cc2"
      twoUnitMandate = .ok twoUnitWallet := by decide +kernel
  have hplace : placeOffer false twoUnitJob 9 (.finite 1000) = .ok ⟨twoUnitJob, 18, .finite 1000⟩ := by rfl
  have hexpectation : twoUnitWallet.createOfferSigningExpectation pinnedPlatform
      ⟨twoUnitJob, 18, .finite 1000⟩ = .ok twoUnitSession.expectation := by decide +kernel
  have hsession : twoUnitWallet.authorizeOffer pinnedPlatform ⟨twoUnitJob, 18, .finite 1000⟩ =
      .ok twoUnitSession := by
    rw [OpenSeaPolicyWallet.authorizeOffer, hexpectation]
    rfl
  obtain ⟨⟨quantity, authority, hmem, -, -, -, -, -, -, hforwarded, -⟩, -⟩ :=
    forwarded_orders_authorized pinnedPlatform_keepsAddress hcreate hplace hsession
      [.request twoUnitTypedData, .signerReturned, .request twoUnitTypedData]
  exact ⟨by decide +kernel, quantity, authority, hmem, hforwarded⟩

end Artgod.Trading
