/-
# Bidding price tiers

A collection's bidding prices are kept as tiers (`use-cases/trading/bidding-price-tiers.ts`,
`shared/trading/bidding-price-tier-pricing.ts`), whose floor and ceiling are fixed or follow from the parent's.
An upsert resolves the graph with the candidate in place, saves it, and refreshes the prices; archiving refuses
a tier with active children.  The statements are keyed by the tier id alone, so an upsert changes the tier of
another collection that has the id: `TierCall.meets` excludes this.
-/
import Artgod.Graph.Forest
import Artgod.Store.Table
import Artgod.Trading.BiddingMandate
import Mathlib.Data.List.Sort

namespace Artgod.Trading

open Store

/-! ## 1. Definitions and prices -/

/-- `TradingBiddingPriceTierStatus`. -/
inductive PriceTierStatus where
  | enabled
  | paused
  | archived
deriving DecidableEq

/-- `TRADING_BIDDING_PRICE_TIER_DELTA_KIND`. -/
inductive PriceTierDeltaKind where
  | absolute
  | percent
deriving DecidableEq

/-- The fields that the delta configs share. -/
structure PriceTierDelta where
  deltaKind : PriceTierDeltaKind
  deltaEth : Option String := none
  percent : Option String := none
deriving DecidableEq

/-- `TradingBiddingPriceTierFloorConfig`. -/
inductive PriceTierFloorConfig where
  | fixed (valueEth : String)
  | parentDelta (delta : PriceTierDelta)
deriving DecidableEq

/-- `TradingBiddingPriceTierCeilingConfig`. -/
inductive PriceTierCeilingConfig where
  | fixed (valueEth : String)
  | floorDelta (delta : PriceTierDelta)
  | parentDelta (delta : PriceTierDelta)
deriving DecidableEq

/-- `PersistedBiddingPriceTierRecord`: a row of `trading_bidding_price_tiers`. -/
structure BiddingPriceTier where
  tierId : String
  chainId : Nat
  collectionId : Nat
  name : String
  status : PriceTierStatus
  sortOrder : Int
  parentTierId : Option String
  floorConfig : PriceTierFloorConfig
  ceilingConfig : PriceTierCeilingConfig
  deltaWei : Int
  resolvedFloorWei : Option Int
  resolvedCeilingWei : Option Int
  revision : Nat
deriving DecidableEq

/-- What the tiers take from elsewhere: viem's `parseEther` (the error is its message), the engine's
`localeCompare`, and the chain of a collection. -/
structure TierEnv where
  parseEther : String → Except String Int
  localeCompare : String → String → Int
  chainOf : Nat → Nat

/-- What the use cases throw. -/
inductive PriceTierError where
  | tradingValidation (message : String)
  | sqliteConstraint (message : String)
  | error (message : String)

/-- A resolved pair of prices. -/
structure TierPrices where
  floorWei : Int
  ceilingWei : Int

/-- The sign of a numeral, and the rest. -/
def splitSign (value : String) : Int × String :=
  match value.toList with
  | '-' :: rest => (-1, String.ofList rest)
  | '+' :: rest => (1, String.ofList rest)
  | _ => (1, value)

variable (env : TierEnv)

/-- `parseEthAmount`; the error is the message of a `RangeError`. -/
def parseEthAmount (value field : String) : Except String Int :=
  let (sign, unsigned) := splitSign value
  if unsigned = "" then .error (field ++ " is invalid: empty numeric value")
  else
    match env.parseEther unsigned with
    | .error message => .error (field ++ " is invalid: " ++ message)
    | .ok wei => .ok (sign * wei)

/-- The text of an amount, which has to be there. -/
def requireAmount (value : Option String) (field : String) : Except String String :=
  let trimmed := Js.trim (value.getD "")
  if trimmed = "" then .error (field ++ " is required") else .ok trimmed

def parsePositiveEthAmount (value : Option String) (field : String) : Except String Int := do
  let text ← requireAmount value field
  let parsed ← parseEthAmount env text field
  if parsed ≤ 0 then .error (field ++ " must be > 0") else .ok parsed

def parseSignedEthAmount (value : Option String) (field : String) : Except String Int := do
  let text ← requireAmount value field
  parseEthAmount env text field

def percentScale : Int := 1000000

def percentBase : Int := 100 * percentScale

/-- The parts of a text that `/^\d+(\.\d+)?$/` matches. -/
def decimalParts (s : String) : Option (List Char × List Char) :=
  let whole := s.toList.takeWhile Char.isDigit
  match s.toList.dropWhile Char.isDigit with
  | [] => if whole = [] then none else some (whole, [])
  | '.' :: fraction =>
    if whole = [] ∨ fraction = [] ∨ fraction.all Char.isDigit = false then none
    else some (whole, fraction)
  | _ => none

def parseSignedPercent (value : Option String) (field : String) : Except String Int := do
  let text ← requireAmount value field
  let (sign, unsigned) := splitSign text
  match decimalParts unsigned with
  | none => .error (field ++ " is invalid")
  | some (whole, fraction) =>
    let padded := (fraction ++ List.replicate 6 '0').take 6
    .ok (sign * (Js.decimalValue (String.ofList whole) * percentScale +
      Js.decimalValue (String.ofList padded)))

/-- `applyDelta`; the division of bigints truncates. -/
def applyDelta (baseWei : Int) (delta : PriceTierDelta) (field : String) : Except String Int := do
  let value ← match delta.deltaKind with
    | .absolute => do
      let amount ← parseSignedEthAmount env delta.deltaEth (field ++ ".deltaEth")
      pure (baseWei + amount)
    | .percent => do
      let percent ← parseSignedPercent delta.percent (field ++ ".percent")
      pure (baseWei + (baseWei * percent).tdiv percentBase)
  if value ≤ 0 then .error (field ++ " resolves to a non-positive price") else .ok value

def resolveBiddingPriceTierFloorWei (config : PriceTierFloorConfig)
    (parentFloorWei : Option Int) : Except String Int :=
  match config with
  | .fixed valueEth => parsePositiveEthAmount env (some valueEth) "floorConfig.valueEth"
  | .parentDelta delta =>
    match parentFloorWei with
    | none => .error "floorConfig requires a parent tier"
    | some base => applyDelta env base delta "floorConfig"

def resolveBiddingPriceTierCeilingWei (config : PriceTierCeilingConfig)
    (floorWei : Int) (parentCeilingWei : Option Int) : Except String Int :=
  match config with
  | .fixed valueEth => parsePositiveEthAmount env (some valueEth) "ceilingConfig.valueEth"
  | .floorDelta delta => applyDelta env floorWei delta "ceilingConfig"
  | .parentDelta delta =>
    match parentCeilingWei with
    | none => .error "ceilingConfig requires a parent tier"
    | some base => applyDelta env base delta "ceilingConfig"

def translatePricingError (result : Except String Int) : Except PriceTierError Int :=
  match result with
  | .error message => .error (.tradingValidation message)
  | .ok wei => .ok wei

def resolveFloorWei (tier : BiddingPriceTier) (parent : Option TierPrices) : Except PriceTierError Int :=
  match tier.floorConfig, parent with
  | .parentDelta _, none =>
    .error (.tradingValidation ("price tier " ++ tier.name ++ " floor requires a parent tier"))
  | config, parent =>
    translatePricingError (resolveBiddingPriceTierFloorWei env config (parent.map (·.floorWei)))

def resolveCeilingWei (tier : BiddingPriceTier) (floorWei : Int)
    (parent : Option TierPrices) : Except PriceTierError Int :=
  match tier.ceilingConfig, parent with
  | .parentDelta _, none =>
    .error (.tradingValidation ("price tier " ++ tier.name ++ " ceiling requires a parent tier"))
  | config, parent =>
    translatePricingError
      (resolveBiddingPriceTierCeilingWei env config floorWei (parent.map (·.ceilingWei)))

/-- The part of `resolveTier` after the parent is resolved. -/
def tierPrices (tier : BiddingPriceTier) (parent : Option TierPrices) :
    Except PriceTierError TierPrices := do
  let floorWei ← resolveFloorWei env tier parent
  let ceilingWei ← resolveCeilingWei env tier floorWei parent
  if ceilingWei < floorWei then
    .error (.tradingValidation ("price tier " ++ tier.name ++ " floor must be <= ceiling"))
  else .ok ⟨floorWei, ceilingWei⟩

/-! ## 2. The graph -/

/-- An id that the source tests by its truth: the empty text is none. -/
def truthyId (id : Option String) : Option String := id.filter (fun s => s ≠ "")

/-- `resolveTier`, as a rule for the search. -/
def tierRule : Forest.Rule BiddingPriceTier String TierPrices PriceTierError where
  id := BiddingPriceTier.tierId
  parent := fun tier => truthyId tier.parentTierId
  value := tierPrices env
  cycle := fun tier => .tradingValidation ("price tier cycle detected at " ++ tier.tierId)
  missing := fun tier parentTierId =>
    .tradingValidation
      ("price tier " ++ tier.tierId ++ " references missing parent " ++ parentTierId)

def BiddingPriceTier.active (tier : BiddingPriceTier) : Bool := tier.status ≠ .archived

def BiddingPriceTier.withPrices (prices : TierPrices) (tier : BiddingPriceTier) : BiddingPriceTier :=
  { tier with
    resolvedFloorWei := some prices.floorWei
    resolvedCeilingWei := some prices.ceilingWei }

/-- The prices that were found, put into the records. -/
def attachPrices (resolvedById : List (String × TierPrices)) :
    List BiddingPriceTier → Except PriceTierError (List BiddingPriceTier)
  | [] => .ok []
  | tier :: rest =>
    match resolvedById.lookup tier.tierId with
    | none => .error (.tradingValidation ("price tier " ++ tier.tierId ++ " was not resolved"))
    | some prices =>
      match attachPrices resolvedById rest with
      | .error e => .error e
      | .ok resolved => .ok (tier.withPrices prices :: resolved)

def comparePriceTierRecords (left right : BiddingPriceTier) : Int :=
  if left.sortOrder ≠ right.sortOrder then left.sortOrder - right.sortOrder
  else
    let nameCompare := env.localeCompare left.name right.name
    if nameCompare = 0 then env.localeCompare left.tierId right.tierId else nameCompare

def resolveBiddingPriceTierGraph (tiers : List BiddingPriceTier) :
    Except PriceTierError (List BiddingPriceTier) :=
  let activeTiers := tiers.filter BiddingPriceTier.active
  match Forest.resolve (tierRule env) activeTiers with
  | .error e => .error e
  | .ok resolvedById =>
    match attachPrices resolvedById activeTiers with
    | .error e => .error e
    | .ok resolved =>
      .ok (resolved.insertionSort (fun a b => comparePriceTierRecords env a b ≤ 0))

/-! ## 3. The repository -/

abbrev PriceTierTable := Table BiddingPriceTier.tierId

/-- `ORDER BY sort_order ASC, name ASC, tier_id ASC`. -/
def priceTierOrder (a b : BiddingPriceTier) : Prop :=
  a.sortOrder < b.sortOrder ∨ a.sortOrder = b.sortOrder ∧
    (a.name < b.name ∨ a.name = b.name ∧ a.tierId ≤ b.tierId)

instance : DecidableRel priceTierOrder := fun a b => by
  unfold priceTierOrder
  infer_instance

def listCollectionPriceTiers (tiers : PriceTierTable) (collectionId : Nat)
    (includeArchived : Bool) : List BiddingPriceTier :=
  (tiers.select (fun tier =>
    tier.chainId = env.chainOf collectionId ∧ tier.collectionId = collectionId ∧
      (includeArchived = true ∨ tier.active = true))).insertionSort priceTierOrder

/-- `Exclude<TradingBiddingPriceTierStatus, "archived">`. -/
inductive EditablePriceTierStatus where
  | enabled
  | paused

def EditablePriceTierStatus.status : EditablePriceTierStatus → PriceTierStatus
  | .enabled => .enabled
  | .paused => .paused

/-- `UpsertBiddingPriceTierRecordInput`. -/
structure PriceTierRecordInput where
  tierId : Option String
  collectionId : Nat
  name : String
  status : EditablePriceTierStatus
  sortOrder : Int
  parentTierId : Option String
  floorConfig : PriceTierFloorConfig
  ceilingConfig : PriceTierCeilingConfig
  deltaWei : Int
  prices : TierPrices

/-- The row that `insertPriceTier` writes. -/
def PriceTierRecordInput.row (input : PriceTierRecordInput) (tierId : String) : BiddingPriceTier where
  tierId := tierId
  chainId := env.chainOf input.collectionId
  collectionId := input.collectionId
  name := input.name
  status := input.status.status
  sortOrder := input.sortOrder
  parentTierId := input.parentTierId
  floorConfig := input.floorConfig
  ceilingConfig := input.ceilingConfig
  deltaWei := input.deltaWei
  resolvedFloorWei := some input.prices.floorWei
  resolvedCeilingWei := some input.prices.ceilingWei
  revision := 1

/-- The columns that `updatePriceTier` sets: not the chain and not the collection. -/
def PriceTierRecordInput.update (input : PriceTierRecordInput) (tier : BiddingPriceTier) :
    BiddingPriceTier :=
  { tier with
    name := input.name
    status := input.status.status
    sortOrder := input.sortOrder
    parentTierId := input.parentTierId
    floorConfig := input.floorConfig
    ceilingConfig := input.ceilingConfig
    deltaWei := input.deltaWei
    resolvedFloorWei := some input.prices.floorWei
    resolvedCeilingWei := some input.prices.ceilingWei
    revision := tier.revision + 1 }

@[simp] theorem PriceTierRecordInput.update_tierId (input : PriceTierRecordInput)
    (tier : BiddingPriceTier) : (input.update tier).tierId = tier.tierId := rfl

variable (tiers : PriceTierTable)

/-- `updatePriceTier`: keyed by the tier id alone. -/
def updatePriceTier (input : PriceTierRecordInput) (tierId : String) : PriceTierTable :=
  tiers.updateWhere (fun tier => tier.tierId = tierId) input.update input.update_tierId

/-- `FOREIGN KEY(parent_tier_id)`, after the statement. -/
def parentExists (parentTierId : Option String) : Bool :=
  parentTierId.all (fun id => tiers.has id)

/-- `upsertPriceTier`; `uuid` is what `randomUUID` returns. -/
def upsertPriceTier (tiers : PriceTierTable) (input : PriceTierRecordInput)
    (uuid : String) : Except PriceTierError (BiddingPriceTier × PriceTierTable) :=
  let tierId := input.tierId.getD uuid
  if (truthyId input.tierId).isSome && tiers.has tierId then
    let tiers := updatePriceTier tiers input tierId
    if parentExists tiers input.parentTierId = false then
      .error (.sqliteConstraint "FOREIGN KEY constraint failed")
    else
      match tiers.get? tierId with
      | none => .error (.error ("Failed to reload bidding price tier " ++ tierId))
      | some saved => .ok (saved, tiers)
  else if tiers.has tierId then
    .error (.sqliteConstraint "UNIQUE constraint failed: trading_bidding_price_tiers.tier_id")
  else
    let tiers := tiers.insertOrIgnore (input.row env tierId)
    if parentExists tiers input.parentTierId = false then
      .error (.sqliteConstraint "FOREIGN KEY constraint failed")
    else
      match tiers.get? tierId with
      | none => .error (.error ("Failed to reload bidding price tier " ++ tierId))
      | some saved => .ok (saved, tiers)

def BiddingPriceTier.archive (tier : BiddingPriceTier) : BiddingPriceTier :=
  { tier with status := .archived, revision := tier.revision + 1 }

@[simp] theorem BiddingPriceTier.archive_tierId (tier : BiddingPriceTier) :
    tier.archive.tierId = tier.tierId := rfl

def archiveTierById (tierId : String) : PriceTierTable :=
  tiers.updateWhere (fun tier => tier.tierId = tierId) BiddingPriceTier.archive
    BiddingPriceTier.archive_tierId

def archivePriceTier (tierId : String) : Option BiddingPriceTier × PriceTierTable :=
  match tiers.get? tierId with
  | none => (none, tiers)
  | some existing =>
    if existing.status = .archived then (some existing, tiers)
    else ((archiveTierById tiers tierId).get? tierId, archiveTierById tiers tierId)

/-- The price columns of `resolution`. -/
def BiddingPriceTier.refresh (resolution tier : BiddingPriceTier) : BiddingPriceTier :=
  { tier with
    resolvedFloorWei := resolution.resolvedFloorWei
    resolvedCeilingWei := resolution.resolvedCeilingWei }

@[simp] theorem BiddingPriceTier.refresh_tierId (resolution tier : BiddingPriceTier) :
    (resolution.refresh tier).tierId = tier.tierId := rfl

def updatePriceTierResolution (resolution : BiddingPriceTier) : PriceTierTable :=
  tiers.updateWhere (fun tier => tier.tierId = resolution.tierId) resolution.refresh
    resolution.refresh_tierId

def updatePriceTierResolutions (resolutions : List BiddingPriceTier) : PriceTierTable :=
  resolutions.foldl updatePriceTierResolution tiers

/-! ## 4. The use cases -/

/-- `UpsertCollectionBiddingPriceTierInput`, with the collection its references resolve to. -/
structure UpsertPriceTierInput where
  collectionId : Nat
  tierId : Option String
  name : String
  status : EditablePriceTierStatus
  sortOrder : Int
  parentTierId : Option String
  floorConfig : PriceTierFloorConfig
  ceilingConfig : PriceTierCeilingConfig
  deltaEth : String

def parsePositiveEthToWei (value field : String) : Except PriceTierError Int :=
  let normalized := Js.trim value
  if normalized = "" then .error (.tradingValidation (field ++ " is required"))
  else
    match env.parseEther normalized with
    | .error message => .error (.tradingValidation (field ++ " is invalid: " ++ message))
    | .ok amount =>
      if amount ≤ 0 then .error (.tradingValidation (field ++ " must be > 0")) else .ok amount

/-- The id of a candidate that has none yet. -/
def newTierId : String := "__new_tier__"

/-- `candidateTiers`: the active tiers of the collection beside the one that is saved. -/
def candidateTiers (tiers : PriceTierTable) (input : UpsertPriceTierInput) : List BiddingPriceTier :=
  ((listCollectionPriceTiers env tiers input.collectionId true).filter
    (fun tier => some tier.tierId ≠ input.tierId)).filter BiddingPriceTier.active

def UpsertPriceTierInput.candidate (input : UpsertPriceTierInput) (deltaWei : Int) : BiddingPriceTier where
  tierId := input.tierId.getD newTierId
  chainId := env.chainOf input.collectionId
  collectionId := input.collectionId
  name := Js.trim input.name
  status := input.status.status
  sortOrder := input.sortOrder
  parentTierId := input.parentTierId
  floorConfig := input.floorConfig
  ceilingConfig := input.ceilingConfig
  deltaWei := deltaWei
  resolvedFloorWei := none
  resolvedCeilingWei := none
  revision := 1

/-- The prices of a resolved record. -/
def BiddingPriceTier.prices? (tier : BiddingPriceTier) : Option TierPrices :=
  match tier.resolvedFloorWei, tier.resolvedCeilingWei with
  | some floorWei, some ceilingWei => some ⟨floorWei, ceilingWei⟩
  | _, _ => none

/-- What is saved of an input. -/
def UpsertPriceTierInput.record (input : UpsertPriceTierInput) (deltaWei : Int) (prices : TierPrices) :
    PriceTierRecordInput where
  tierId := input.tierId
  collectionId := input.collectionId
  name := Js.trim input.name
  status := input.status
  sortOrder := input.sortOrder
  parentTierId := input.parentTierId
  floorConfig := input.floorConfig
  ceilingConfig := input.ceilingConfig
  deltaWei := deltaWei
  prices := prices

/-- The part of the upsert before the first write. -/
def prepareUpsert (tiers : PriceTierTable) (input : UpsertPriceTierInput) :
    Except PriceTierError PriceTierRecordInput := do
  if Js.trim input.name = "" then .error (.tradingValidation "name is required")
  else
    let deltaWei ← parsePositiveEthToWei env input.deltaEth "deltaEth"
    let candidate := input.candidate env deltaWei
    let resolvedGraph ← resolveBiddingPriceTierGraph env (candidateTiers env tiers input ++ [candidate])
    match (resolvedGraph.find? (fun tier => tier.tierId = candidate.tierId)).bind
        BiddingPriceTier.prices? with
    | none => .error (.tradingValidation "price tier did not resolve")
    | some prices => .ok (input.record deltaWei prices)

/-- `upsertCollectionBiddingPriceTier`: the tiers that are shown, and the table after the call.  An
error after the first transaction leaves what that transaction wrote. -/
def upsertCollectionBiddingPriceTier (tiers : PriceTierTable)
    (input : UpsertPriceTierInput) (uuid : String) :
    Except PriceTierError (List BiddingPriceTier) × PriceTierTable :=
  match prepareUpsert env tiers input with
  | .error e => (.error e, tiers)
  | .ok record =>
    match upsertPriceTier env tiers record uuid with
    | .error e => (.error e, tiers)
    | .ok (savedTier, saved) =>
      match resolveBiddingPriceTierGraph env (candidateTiers env tiers input ++ [savedTier]) with
      | .error e => (.error e, saved)
      | .ok persistedGraph =>
        let refreshed := updatePriceTierResolutions saved persistedGraph
        if persistedGraph.any (fun tier => tier.tierId = savedTier.tierId) then
          (.ok persistedGraph, refreshed)
        else (.error (.error ("Saved price tier " ++ savedTier.tierId ++ " is missing")), refreshed)

def archiveCollectionBiddingPriceTier (tiers : PriceTierTable) (collectionId : Nat)
    (tierId : String) : Except PriceTierError (List BiddingPriceTier) × PriceTierTable :=
  let activeTiers := listCollectionPriceTiers env tiers collectionId false
  if (tiers.get? tierId).all (fun existing => existing.collectionId ≠ collectionId) then
    (.error (.tradingValidation "price tier was not found"), tiers)
  else if activeTiers.any (fun tier => tier.parentTierId = some tierId) then
    (.error (.tradingValidation "Cannot archive a price tier that still has an active child"), tiers)
  else
    match archivePriceTier tiers tierId with
    | (none, tiers) => (.error (.tradingValidation "price tier was not found"), tiers)
    | (some _, archived) =>
      match resolveBiddingPriceTierGraph env (activeTiers.filter (fun tier => tier.tierId ≠ tierId)) with
      | .error e => (.error e, archived)
      | .ok remainingGraph =>
        (.ok remainingGraph, updatePriceTierResolutions archived remainingGraph)

end Artgod.Trading
