/-
# Marketplace offers

What the bidder makes of an offer that the marketplace returns: its order hash, its maker, the unit price in
WETH, and the scope, which comes from the NFT items of the order and from its criteria.  Offers of any shape
come in; the ones that name no hash, no maker or no WETH price are left out, and criteria that cannot be read
make the parser throw.
-/
import Artgod.Trading.BidderJobs
import Artgod.Trading.OfferCriteria
import Mathlib.Data.List.Infix

namespace Artgod.Trading

open Js

/-! ## 1. Orders -/

/-- `OfferScope`; the parser never gives `unknown`. -/
inductive OfferScope
  | item
  | collection
  | trait
  deriving DecidableEq

inductive OfferDiscoverySource
  | itemOffers
  | collectionOffers
  | traitOffers
  | bestOffer
  | stateRecovery

/-- What the bidder reasons over, without the fields that only the bid book and the logs show. -/
structure Order where
  id : String
  price : Int
  maker : String
  protocolAddress : Option String
  placedAt : Option String
  expirationTime : Option Rat
  rawOrder : Value
  offerScope : OfferScope
  discoverySource : OfferDiscoverySource

/-! ## 2. The envelope -/

section Envelope

def getOpenSeaProtocolEnvelope (raw : Value) : Option (List (String × Value)) :=
  (orElse (field (asRecord raw) "protocolData") (field (asRecord raw) "protocol_data")).record?

def getOpenSeaProtocolParameters (raw : Value) : List (String × Value) :=
  asRecord (match getOpenSeaProtocolEnvelope raw with
    | some envelope => field envelope "parameters"
    | none => .undefined)

/-- A text that is not blank. -/
def nonBlank : Value → Option String
  | .string s => if trim s = "" then none else some s
  | _ => none

def getOpenSeaOrderHash (raw : Value) : Option String :=
  match nonBlank (field (asRecord raw) "orderHash") with
  | some hash => some hash
  | none => nonBlank (field (asRecord raw) "order_hash")

/-- An object or an array. -/
def recordOrUndefined : Value → Option Value
  | .object record => some (.object record)
  | .array items => some (.array items)
  | _ => none

/-- The properties that `{...value}` copies. -/
def spreadFields : Value → List (String × Value)
  | .object record => record
  | .array items => items.zipIdx.map fun (item, index) => (toString index, item)
  | _ => []

/-- `{...record, [key]: value}`. -/
def withField (record : List (String × Value)) (key : String) (value : Value) : List (String × Value) :=
  if hasKey record key then record.map fun f => if f.1 = key then (key, value) else f
  else record ++ [(key, value)]

def getEncodedTokenIds (criteria : Option Value) : Option String :=
  criteria.bind fun criteria => firstString (asRecord criteria) ["encoded_token_ids", "encodedTokenIds"]

end Envelope

section Offers

variable (engine : OfferEngine)

/-- The trait criteria of a stream message, if it has any. -/
def getOpenSeaStreamTraitCriteria (offer : List (String × Value)) :
    Except String (Option (List BiddingTraitCriterion)) := do
  let trait ← normalizeOptionalOpenSeaTraitCriterion engine
    (orElse (field offer "trait_criteria") (field offer "traitCriteria"))
  let traits ← normalizeOptionalOpenSeaTraitCriteria engine
    (orElse (field offer "trait_criteria_list") (field offer "traitCriteriaList"))
  let numericTraits ← normalizeOpenSeaNumericTraitCriteria engine (field offer "numeric_trait_criteria_list")
  let numericTraits' ← normalizeOpenSeaNumericTraitCriteria engine (field offer "numericTraitCriteriaList")
  match dedupeBiddingTraitCriteria engine.toTraitEngine (trait ++ traits ++ numericTraits ++ numericTraits') with
  | [] => return none
  | traits => return some traits

/-- `criteria` of a list of criteria. -/
def traitsValue (traits : List BiddingTraitCriterion) : Value :=
  .array (traits.map BiddingTraitCriterion.toValue)

/-- `normalizeOpenSeaOfferTraitCriteria` of criteria that may be undefined. -/
def offerTraitCriteria (criteria : Option Value) : Except String (List BiddingTraitCriterion) :=
  normalizeOpenSeaOfferTraitCriteria engine (criteria.getD .undefined)

variable (rawOffer : Value)

/-- The criteria of an offer, with the constraints of the stream message added to those of the envelope. -/
def getOpenSeaOfferCriteria : Except String (Option Value) := do
  let offer := asRecord rawOffer
  let criteria := match recordOrUndefined (field offer "criteria") with
    | some criteria => some criteria
    | none => (getOpenSeaProtocolEnvelope rawOffer).bind fun envelope =>
      recordOrUndefined (field envelope "criteria")
  match ← getOpenSeaStreamTraitCriteria engine offer with
  | none => return criteria
  | some streamTraits =>
    let ownTraits ← offerTraitCriteria engine criteria
    let streamTraits ← normalizeOpenSeaOfferTraitCriteria engine (.object [("traits", traitsValue streamTraits)])
    return some (.object (withField (spreadFields (criteria.getD .undefined)) "traits"
      (traitsValue (dedupeBiddingTraitCriteria engine.toTraitEngine (ownTraits ++ streamTraits)))))

/-- The trait criteria of an offer. -/
def readOfferCriteria : Except String (List BiddingTraitCriterion) := do
  let criteria ← getOpenSeaOfferCriteria engine rawOffer
  offerTraitCriteria engine criteria

/-! ## 3. The scope -/

def readItemType (item : Value) : Number :=
  engine.toNumber (orElse (field (asRecord item) "itemType") (field (asRecord item) "item_type"))

/-- The item types of the protocol for an NFT that is named, and for one that meets criteria. -/
def isExplicitItem (item : Value) : Bool := readItemType engine item ∈ [.finite 2, .finite 3]

def isCriteriaItem (item : Value) : Bool := readItemType engine item ∈ [.finite 4, .finite 5]

/-- The NFT items of one side of the order, those of a collection if one is asked for. -/
def nftItems (items : List Value) (collectionAddress : Option String) : List Value :=
  items.filter fun item =>
    (isExplicitItem engine item || isCriteriaItem engine item) &&
      match collectionAddress with
      | none => true
      | some collectionAddress =>
        collectionAddress = "" ||
          match stringOrUndefined (field (asRecord item) "token") with
          | none => false
          | some token => toLowerCase engine.platform token = toLowerCase engine.platform collectionAddress

variable (rawOrder : Value)

def getOpenSeaNftItems (collectionAddress : Option String) : List Value :=
  let parameters := getOpenSeaProtocolParameters rawOrder
  match nftItems engine (asArray (field parameters "consideration")) collectionAddress with
  | [] => nftItems engine (asArray (field parameters "offer")) collectionAddress
  | items => items

inductive NftSelectionKind
  | item
  | criteria
  | unknown
  deriving DecidableEq

def inferOpenSeaNftSelectionKind (collectionAddress : Option String) : NftSelectionKind :=
  let items := getOpenSeaNftItems engine rawOrder collectionAddress
  if items.any (isExplicitItem engine) then .item
  else if items.any (isCriteriaItem engine) then .criteria
  else .unknown

/-- An explicit NFT leg makes an item offer, also beside criteria. -/
def inferOpenSeaOfferScope : Except String OfferScope :=
  match inferOpenSeaNftSelectionKind engine rawOrder none with
  | .item => .ok .item
  | kind => do
    match ← getOpenSeaOfferCriteria engine rawOrder with
    | some criteria =>
      let criteriaTraits ← normalizeOpenSeaOfferTraitCriteria engine criteria
      return if criteriaTraits = [] then .collection else .trait
    | none => return if kind = .criteria then .collection else .item

/-- Criteria that stand for the whole collection. -/
def isOpenSeaCollectionWideOffer : Except String Bool :=
  match inferOpenSeaNftSelectionKind engine rawOffer none with
  | .item => .ok false
  | _ => do
    let criteria ← getOpenSeaOfferCriteria engine rawOffer
    let criteriaTraits ← offerTraitCriteria engine criteria
    let encodedIds := getEncodedTokenIds criteria
    return criteriaTraits = [] && (encodedIds = none || encodedIds = some "*")

/-! ## 4. The price -/

/-- `OPENSEA_MAINNET_SECURITY_POLICY.wethAddress`, in lower case. -/
def wethAddress : String := "0xc02aaa39b223fe8d0a0e5c4f27ead9083c756cc2"

def readAmount (item : Value) : Value := firstOf (asRecord item) ["startAmount", "start_amount", "amount"]

def tryParseBigInt : Value → Option Int
  | .null | .undefined => none
  | value => engine.toBigInt value

/-- A finite number. -/
def tryParseNumber : Value → Option Rat
  | .null | .undefined => none
  | value =>
    match engine.toNumber value with
    | .finite q => some q
    | _ => none

/-- The sum of the amounts that can be read. -/
def sumAmounts (items : List Value) : Int :=
  (items.map fun item => (tryParseBigInt engine (readAmount item)).getD 0).sum

/-- The token of an item is this address, in lower case. -/
def isToken (tokenAddress : String) (item : Value) : Bool :=
  match stringOrUndefined (field (asRecord item) "token") with
  | none => false
  | some token => toLowerCase engine.platform token = tokenAddress

def sumTokenItems (items : Value) (tokenAddress : String) : Int :=
  sumAmounts engine ((asArray items).filter (isToken engine tokenAddress))

/-- An NFT item that names no token counts for every collection. -/
def sumNftUnits (items : Value) (collectionAddress : Option String) : Int :=
  sumAmounts engine ((asArray items).filter fun item =>
    (isExplicitItem engine item || isCriteriaItem engine item) &&
      match collectionAddress, stringOrUndefined (field (asRecord item) "token") with
      | some collectionAddress, some token =>
        collectionAddress = "" ||
          toLowerCase engine.platform token = toLowerCase engine.platform collectionAddress
      | _, _ => true)

def isPartialOrderType : Value → Bool
  | .number n => n = .finite 1 ∨ n = .finite 3
  | .string s =>
    let upper := engine.toUpperCase s
    "PARTIAL".toList <:+: upper.toList ∨ upper = "1" ∨ upper = "3"
  | _ => false

def divCeil (numerator denominator : Int) : Int :=
  let quotient := numerator.tdiv denominator
  if numerator.tmod denominator = 0 then quotient else quotient + 1

/-- The price of the Seaport parameters: the larger of the two sums of WETH, for each unit of a partial
order. -/
def protocolPrice (collectionAddress : Option String) : Option Int :=
  let parameters := getOpenSeaProtocolParameters rawOrder
  let offerSum := sumTokenItems engine (field parameters "offer") wethAddress
  let considerationSum := sumTokenItems engine (field parameters "consideration") wethAddress
  let nftUnitsFromConsideration := sumNftUnits engine (field parameters "consideration") collectionAddress
  let nftUnits :=
    if nftUnitsFromConsideration > 0 then nftUnitsFromConsideration
    else sumNftUnits engine (field parameters "offer") collectionAddress
  let remainingQuantity := tryParseNumber engine
    (firstOf (asRecord rawOrder) ["remainingQuantity", "remaining_quantity"])
  let isPartial := isPartialOrderType engine (firstOf parameters ["orderType", "order_type"]) ||
    match remainingQuantity with
    | some remainingQuantity => 1 < remainingQuantity
    | none => false
  if offerSum > 0 ∨ considerationSum > 0 then
    let total := if considerationSum ≤ offerSum then offerSum else considerationSum
    let quantity := if nftUnits > 0 then nftUnits else 1
    if isPartial ∧ quantity > 1 then some (divCeil total quantity) else some total
  else none

/-- The envelope has parameters, of any kind that counts as true. -/
def hasParameters : Bool :=
  match getOpenSeaProtocolEnvelope rawOrder with
  | none => false
  | some envelope =>
    match field envelope "parameters" with
    | .undefined | .null => false
    | .bool b => b
    | .number n => n ≠ .nan ∧ n ≠ .finite 0
    | .bigint i => i ≠ 0
    | .string s => s ≠ ""
    | _ => true

def isOpenSeaWethOrder : Bool :=
  let parameters := getOpenSeaProtocolParameters rawOrder
  ((firstString (asRecord rawOrder) ["paymentToken", "payment_token", "paymentTokenAddress",
      "payment_token_address"]).map (toLowerCase engine.platform) = some wethAddress) ||
    (asArray (field parameters "offer")).any (isToken engine wethAddress) ||
    (asArray (field parameters "consideration")).any (isToken engine wethAddress)

def isWethCurrency (currency : String) : Bool :=
  toLowerCase engine.platform currency = wethAddress ∨ toLowerCase engine.platform currency = "weth"

/-- `extractOpenSeaWethUnitPrice`, the price of it. -/
def extractOpenSeaWethUnitPrice (collectionAddress : Option String) : Option Int :=
  match if hasParameters rawOrder then protocolPrice engine rawOrder collectionAddress else none with
  | some price => some price
  | none =>
    let priceRecord := asRecord (field (asRecord rawOrder) "price")
    match tryParseBigInt engine (field priceRecord "value"), stringOrUndefined (field priceRecord "currency") with
    | some price, some currency => if isWethCurrency engine currency then some price else currentPrice
    | _, _ => currentPrice
where
  currentPrice : Option Int :=
    if isOpenSeaWethOrder engine rawOrder then
      tryParseBigInt engine (firstOf (asRecord rawOrder) ["currentPrice", "current_price"])
    else none

/-! ## 5. Parsing -/

def tryParseTimestamp : Value → Option Int
  | .null | .undefined => none
  | value => (engine.dateParse (engine.toText value)).map fun ms => ⌊ms / 1000⌋

/-- `rawOffer` counts as false. -/
def isAbsentOffer : Value → Bool
  | .undefined | .null => true
  | .bool b => !b
  | .number n => n = .nan ∨ n = .finite 0
  | .bigint i => i = 0
  | .string s => s = ""
  | _ => false

/-- The maker that an offer names, as an account or as an address. -/
def offerMaker : Option String :=
  match stringOrUndefined (field (asRecord (field (asRecord rawOffer) "maker")) "address") with
  | some maker => some maker
  | none =>
    match stringOrUndefined (field (asRecord rawOffer) "maker") with
    | some maker => some maker
    | none => stringOrUndefined (field (getOpenSeaProtocolParameters rawOffer) "offerer")

/-- The time an offer expires at, in seconds. -/
def offerExpirationTime : Option Rat :=
  let record := asRecord rawOffer
  let aliases := ["expirationTime", "expiration_time", "closingDate", "closing_date", "endDate", "end_date"]
  match tryParseNumber engine (orElse (firstOf record aliases)
      (firstOf (getOpenSeaProtocolParameters rawOffer) ["endTime", "end_time"])) with
  | some seconds => some seconds
  | none => (tryParseTimestamp engine (firstOf record aliases)).map fun seconds => (seconds : Rat)

def parseRawOffer (collectionAddress : String) (discoverySource : OfferDiscoverySource) :
    Except String (Option Order) :=
  if isAbsentOffer rawOffer then .ok none
  else
    match getOpenSeaOrderHash rawOffer, offerMaker rawOffer,
        extractOpenSeaWethUnitPrice engine rawOffer (some collectionAddress) with
    | some orderHash, some maker, some price => do
      let offerScope ← inferOpenSeaOfferScope engine rawOffer
      -- the scope that the bid book shows reads the criteria of an item offer as well
      let criteria ← getOpenSeaOfferCriteria engine rawOffer
      let _ ← offerTraitCriteria engine criteria
      let createdAt := (tryParseTimestamp engine
        (firstOf (asRecord rawOffer) ["createdAt", "created_at", "createdDate", "created_date"])).map
          engine.toRfc3339Seconds
      return some {
        id := orderHash
        price := price
        maker := toLowerCase engine.platform maker
        protocolAddress := firstString (asRecord rawOffer) ["protocolAddress", "protocol_address"]
        placedAt := createdAt
        expirationTime := offerExpirationTime engine rawOffer
        rawOrder := rawOffer
        offerScope := offerScope
        discoverySource := discoverySource }
    | _, _, _ => .ok none

end Offers

end Artgod.Trading
