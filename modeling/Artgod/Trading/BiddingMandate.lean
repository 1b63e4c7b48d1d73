/-
# The bidding mandate

The authority that the native prompt grants to one bidding process (`domain/bidding-mandate.ts`):
the collections it may bid on, with a price cap and a quantity cap each, and the start policy with
the WETH allowance cap.  `BiddingMandate.parse` reads it from a value of any shape; the mandate it
returns has no collection twice, which its type records.

`assertOfferAuthorized` is what every placement passes through: identity of the collection, then
quantity, then price.
-/
import Artgod.Js.Value
import Mathlib.Data.List.Forall2

namespace Artgod.Trading

open Js

/-- What the trading runtime throws. -/
inductive TradingError where
  | biddingMandateViolation (message : String)
  | openSeaPolicyViolation (message : String)
  | rangeError (message : String)
  | error (message : String)
deriving DecidableEq

abbrev Result := Except TradingError

theorem bind_eq_ok {ε α β : Type} {x : Except ε α} {f : α → Except ε β} {b : β} :
    (x >>= f) = .ok b ↔ ∃ a, x = .ok a ∧ f a = .ok b := by
  cases x with
  | error e =>
    constructor
    · intro h
      cases h
    · rintro ⟨a, h, -⟩
      cases h
  | ok a =>
    constructor
    · intro h
      exact ⟨a, rfl, h⟩
    · rintro ⟨a', h, hf⟩
      cases h
      exact hf

theorem ite_error_eq_ok {ε α : Type} {c : Prop} [Decidable c] {e : ε} {x : Except ε α} {a : α} :
    (if c then .error e else x) = .ok a ↔ ¬ c ∧ x = .ok a := by
  by_cases h : c <;> simp [h]

theorem mapM_ok {ε α β : Type} {f : α → Except ε β} {l : List α} {r : List β}
    (h : l.mapM f = .ok r) : List.Forall₂ (fun a b => f a = .ok b) l r := by
  induction l generalizing r with
  | nil =>
    cases h
    exact .nil
  | cons a l ih =>
    simp only [List.mapM_cons, bind_eq_ok] at h
    obtain ⟨b, hb, bs, hbs, hpure⟩ := h
    cases hpure
    exact .cons hb (ih hbs)

theorem forall₂_partners {α β : Type} {R : α → β → Prop} {xs : List α} {ys : List β}
    (h : List.Forall₂ R xs ys) : (∀ y ∈ ys, ∃ x ∈ xs, R x y) ∧ ∀ x ∈ xs, ∃ y ∈ ys, R x y := by
  induction h with
  | nil => exact ⟨fun y hy => absurd hy List.not_mem_nil, fun x hx => absurd hx List.not_mem_nil⟩
  | cons hxy _ ih =>
    constructor
    · intro z hz
      rcases List.mem_cons.mp hz with rfl | hz
      · exact ⟨_, List.mem_cons_self, hxy⟩
      · obtain ⟨w, hw, hr⟩ := ih.1 z hz
        exact ⟨w, List.mem_cons_of_mem _ hw, hr⟩
    · intro w hw
      rcases List.mem_cons.mp hw with rfl | hw
      · exact ⟨_, List.mem_cons_self, hxy⟩
      · obtain ⟨z, hz, hr⟩ := ih.2 w hw
        exact ⟨z, List.mem_cons_of_mem _ hz, hr⟩

/-! ## 1. Jobs -/

structure TraitTarget where
  type : String
  value : String
deriving DecidableEq

structure TraitSelector where
  type : String
  value : Option String
deriving DecidableEq

inductive BidderTarget where
  | token (tokenId : String)
  | collection (quantity : Number) (traits : List TraitTarget)
  | competitiveTrait (quantity : Number) (targetTrait : TraitTarget)
      (competitorTraits : List TraitSelector)
deriving DecidableEq

/-- `BidderJob`, with the fields that placement and authorization read. -/
structure BidderJob where
  collectionId : Nat
  collectionAddress : String
  collectionSlug : String
  target : BidderTarget
deriving DecidableEq

def bidderTargetRequiresOpenSeaSignedZoneTrust : BidderTarget → Bool
  | .token _ => false
  | .collection _ traits => traits ≠ []
  | .competitiveTrait _ _ _ => true

/-! ## 2. Parsing -/

/-- viem's `maxUint256`. -/
def maxUint256 : Nat := 2 ^ 256 - 1

def requirePositiveSafeInteger (value : Value) (label : String) : Result Nat :=
  match value.safeInteger? with
  | some i =>
    if 0 < i then .ok i.toNat
    else .error (.biddingMandateViolation s!"{label} must be a positive safe integer")
  | none => .error (.biddingMandateViolation s!"{label} must be a positive safe integer")

def requireCanonicalUint (value : Value) (label : String) (allowZero : Bool) : Result Nat :=
  let kind := if allowZero then "non-negative" else "positive"
  match value.string? with
  | some text =>
    if (if allowZero then isCanonicalDecimal text else isPositiveDecimal text) then
      if decimalValue text ≤ maxUint256 then .ok (decimalValue text)
      else .error (.biddingMandateViolation s!"{label} exceeds uint256")
    else .error (.biddingMandateViolation s!"{label} must be canonical {kind} wei")
  | none => .error (.biddingMandateViolation s!"{label} must be canonical {kind} wei")

def requireNonEmptyString (value : Value) (label : String) : Result String :=
  match value.string? with
  | some text =>
    if trim text = "" then .error (.biddingMandateViolation s!"{label} must be non-empty")
    else .ok (trim text)
  | none => .error (.biddingMandateViolation s!"{label} must be non-empty")

/-- `isRecord`, with the fields. -/
def requireMandateRecord (value : Value) (label : String) : Result (List (String × Value)) :=
  match value.record? with
  | some fields => .ok fields
  | none => .error (.biddingMandateViolation s!"{label} must be an object")

/-- `normalizeAddress`. -/
def normalizeMandateAddress (p : Platform) (value : String) : Result String :=
  let normalized := toLowerCase p (trim value)
  if isHexOfLength 40 normalized && normalized.toList.all (fun c => !c.isUpper) then .ok normalized
  else .error (.biddingMandateViolation "collection contract must be an EVM address")

def normalizeSlug (p : Platform) (value : String) : Result String :=
  let normalized := toLowerCase p (trim value)
  if normalized = "" then .error (.biddingMandateViolation "OpenSea slug must be non-empty")
  else .ok normalized

/-- `BiddingStartPolicy`; the nonce policy has one value, `Fail`. -/
structure BiddingStartPolicy where
  wethAllowanceCapWei : Nat
  trustOpenSeaSignedZoneTraitOffers : Bool
  minPriorityFeePerGasWei : Nat
  maxFeePerGasWei : Nat
  maxTotalGasFeeWei : Nat
deriving DecidableEq

/-- `EVM_PENDING_NONCE_POLICY.Fail`. -/
def pendingNoncePolicyFail : String := "fail"

def BiddingStartPolicy.parse (raw : Value) : Result BiddingStartPolicy := do
  let fields ← requireMandateRecord raw "start policy"
  match (field fields "trustOpenSeaSignedZoneTraitOffers").bool? with
  | none =>
    .error (.biddingMandateViolation "start policy trait trust must be a boolean")
  | some trust =>
    let approval ← requireMandateRecord (field fields "wethApproval") "WETH approval policy"
    let wethAllowanceCapWei ←
      requireCanonicalUint (field fields "wethAllowanceCapWei") "WETH allowance cap" true
    let minPriorityFeePerGasWei ← requireCanonicalUint (field approval "minPriorityFeePerGasWei")
      "WETH approval minimum priority fee per gas" false
    let maxFeePerGasWei ← requireCanonicalUint (field approval "maxFeePerGasWei")
      "WETH approval maximum fee per gas" false
    let maxTotalGasFeeWei ← requireCanonicalUint (field approval "maxTotalGasFeeWei")
      "WETH approval maximum total gas fee" false
    if maxFeePerGasWei < minPriorityFeePerGasWei then
      .error (.biddingMandateViolation
        "WETH approval minimum priority fee per gas exceeds maximum fee per gas")
    else if (field approval "pendingNoncePolicy").string? ≠ some pendingNoncePolicyFail then
      .error (.biddingMandateViolation "WETH approval pending nonce policy is unsupported")
    else
      .ok ⟨wethAllowanceCapWei, trust, minPriorityFeePerGasWei, maxFeePerGasWei, maxTotalGasFeeWei⟩

structure BiddingCollectionAuthority where
  collectionId : Nat
  contractAddress : String
  openseaSlug : String
  maxUnitBidWei : Nat
  maxQuantity : Nat
deriving DecidableEq

def parseCollection (p : Platform) (raw : Value) (index : Nat) : Result BiddingCollectionAuthority := do
  let fields ← requireMandateRecord raw s!"collection at index {index}"
  let collectionId ← requirePositiveSafeInteger (field fields "collectionId")
    s!"collection at index {index} id"
  let _ ← requireNonEmptyString (field fields "artgodSlug") s!"collection {collectionId} ArtGod slug"
  let contract ← requireNonEmptyString (field fields "contractAddress")
    s!"collection {collectionId} contract"
  let contractAddress ← normalizeMandateAddress p contract
  let slug ← requireNonEmptyString (field fields "openseaSlug")
    s!"collection {collectionId} OpenSea slug"
  let openseaSlug ← normalizeSlug p slug
  let maxUnitBidWei ← requireCanonicalUint (field fields "maxUnitBidWei")
    s!"collection {collectionId} unit bid cap" false
  let maxQuantity ← requirePositiveSafeInteger (field fields "maxQuantity")
    s!"collection {collectionId} quantity cap"
  return ⟨collectionId, contractAddress, openseaSlug, maxUnitBidWei, maxQuantity⟩

/-- The loop over the collections, with the ids seen so far. -/
def parseCollections (p : Platform) : List Value → Nat → List Nat → Result (List BiddingCollectionAuthority)
  | [], _, _ => .ok []
  | raw :: rest, index, seen => do
    let collection ← parseCollection p raw index
    if collection.collectionId ∈ seen then
      .error (.biddingMandateViolation s!"collection {collection.collectionId} is duplicated")
    else
      let collections ← parseCollections p rest (index + 1) (collection.collectionId :: seen)
      return collection :: collections

theorem parseCollections_distinct {p : Platform} :
    ∀ {raw : List Value} {index : Nat} {seen : List Nat}
      {collections : List BiddingCollectionAuthority},
      parseCollections p raw index seen = .ok collections →
      (collections.map (·.collectionId)).Nodup ∧ ∀ c ∈ collections, c.collectionId ∉ seen
  | [], index, seen, collections, h => by
    cases h
    exact ⟨List.nodup_nil, by simp⟩
  | raw :: rest, index, seen, collections, h => by
    simp only [parseCollections, bind_eq_ok, ite_error_eq_ok] at h
    obtain ⟨collection, -, hnew, tail, htail, hpure⟩ := h
    cases hpure
    obtain ⟨hnodup, hseen⟩ := parseCollections_distinct htail
    refine ⟨List.nodup_cons.mpr ⟨fun hmem => ?_, hnodup⟩, fun c hc => ?_⟩
    · obtain ⟨c, hc, heq⟩ := List.mem_map.mp hmem
      exact hseen c hc (heq ▸ List.mem_cons_self)
    · rcases List.mem_cons.mp hc with rfl | hc
      · exact hnew
      · exact fun hmem => hseen c hc (List.mem_cons_of_mem _ hmem)

/-- `BiddingMandate`: `collectionsById` as the list of its values, one for each id. -/
structure BiddingMandate where
  chainId : Nat
  startPolicy : BiddingStartPolicy
  collections : List BiddingCollectionAuthority
  distinct : (collections.map (·.collectionId)).Nodup
deriving DecidableEq

def BiddingMandate.parse (p : Platform) (raw : Value) (expectedChainId : Nat) : Result BiddingMandate := do
  let fields ← requireMandateRecord raw "mandate"
  let chainId ← requirePositiveSafeInteger (field fields "chainId") "chain id"
  if chainId ≠ expectedChainId then
    .error (.biddingMandateViolation
      s!"chain id {chainId} does not match envelope chain {expectedChainId}")
  else
    let startPolicy ← BiddingStartPolicy.parse (field fields "startPolicy")
    match (field fields "collections").array? with
    | none =>
      .error (.biddingMandateViolation "mandate must authorize at least one collection")
    | some values =>
      if values = [] then
        .error (.biddingMandateViolation "mandate must authorize at least one collection")
      else
        match h : parseCollections p values 0 [] with
        | .error e => .error e
        | .ok collections =>
          .ok ⟨chainId, startPolicy, collections, (parseCollections_distinct h).1⟩

/-! ## 3. Authorization -/

variable (m : BiddingMandate)

/-- `collectionsById.get`. -/
def BiddingMandate.authority? (collectionId : Nat) : Option BiddingCollectionAuthority :=
  m.collections.find? (fun c => c.collectionId = collectionId)

def BiddingMandate.collectionAuthorizationError (p : Platform)
    (collectionId : Nat) (collectionAddress : String) (collectionSlug : Option String) :
    Option String :=
  match m.authority? collectionId with
  | none => some s!"collection {collectionId} is not authorized"
  | some authority =>
    if toLowerCase p (trim collectionAddress) ≠ authority.contractAddress then
      some s!"collection {collectionId} contract does not match"
    else if collectionSlug.map (fun slug => toLowerCase p (trim slug)) ≠ some authority.openseaSlug then
      some s!"collection {collectionId} OpenSea slug does not match"
    else none

def BiddingMandate.authorizesCollection (p : Platform) (collectionId : Nat)
    (collectionAddress : String) (collectionSlug : Option String) : Bool :=
  (m.collectionAuthorizationError p collectionId collectionAddress collectionSlug).isNone

def resolveOfferQuantity (job : BidderJob) : Result Int :=
  match job.target with
  | .token _ => .ok 1
  | .collection quantity _ => resolve quantity
  | .competitiveTrait quantity _ _ => resolve quantity
where
  resolve (quantity : Number) : Result Int :=
    match quantity.safeInteger? with
    | some q =>
      if 0 < q then .ok q
      else
        .error (.biddingMandateViolation s!"collection {job.collectionId} offer quantity is invalid")
    | none =>
      .error (.biddingMandateViolation s!"collection {job.collectionId} offer quantity is invalid")

def BiddingMandate.assertOfferAuthorized (p : Platform) (job : BidderJob)
    (totalAmountWei : Int) : Result Unit :=
  match m.collectionAuthorizationError p job.collectionId job.collectionAddress
      (some job.collectionSlug), m.authority? job.collectionId with
  | some message, _ => .error (.biddingMandateViolation message)
  | none, none => .error (.error "unreachable: the identity check proves an authority entry")
  | none, some authority => do
    let quantity ← resolveOfferQuantity job
    if (authority.maxQuantity : Int) < quantity then
      .error (.biddingMandateViolation
        s!"collection {job.collectionId} quantity {quantity} exceeds cap {authority.maxQuantity}")
    else if totalAmountWei ≤ 0 then
      .error (.biddingMandateViolation "offer amount must be positive")
    else if (authority.maxUnitBidWei : Int) * quantity < totalAmountWei then
      .error (.biddingMandateViolation
        s!"collection {job.collectionId} total {totalAmountWei} exceeds unit cap {authority.maxUnitBidWei} for quantity {quantity}")
    else .ok ()

/-- What an authorized offer keeps to. -/
structure OfferAuthorized (m : BiddingMandate) (p : Platform) (job : BidderJob)
    (totalAmountWei quantity : Int) (authority : BiddingCollectionAuthority) : Prop where
  mem : authority ∈ m.collections
  collectionId : authority.collectionId = job.collectionId
  contract : toLowerCase p (trim job.collectionAddress) = authority.contractAddress
  slug : toLowerCase p (trim job.collectionSlug) = authority.openseaSlug
  resolved : resolveOfferQuantity job = .ok quantity
  quantityCap : quantity ≤ authority.maxQuantity
  positive : 0 < totalAmountWei
  unitCap : totalAmountWei ≤ authority.maxUnitBidWei * quantity

theorem assertOfferAuthorized_ok {m : BiddingMandate} {p : Platform} {job : BidderJob}
    {totalAmountWei : Int} {u : Unit} (h : m.assertOfferAuthorized p job totalAmountWei = .ok u) :
    ∃ quantity authority, OfferAuthorized m p job totalAmountWei quantity authority := by
  rw [BiddingMandate.assertOfferAuthorized] at h
  split at h
  · cases h
  · cases h
  next authority hidentity hauthority =>
  simp only [bind_eq_ok, ite_error_eq_ok] at h
  obtain ⟨quantity, hquantity, hcap, hpositive, hunit, -⟩ := h
  simp only [BiddingMandate.collectionAuthorizationError, hauthority] at hidentity
  split at hidentity
  · cases hidentity
  next hcontract =>
  split at hidentity
  · cases hidentity
  next hslug =>
  refine ⟨quantity, authority, List.mem_of_find?_eq_some hauthority, ?_,
    not_not.mp hcontract, ?_, hquantity, by omega, by omega, by omega⟩
  · simpa using List.find?_some hauthority
  · simpa using hslug

end Artgod.Trading
