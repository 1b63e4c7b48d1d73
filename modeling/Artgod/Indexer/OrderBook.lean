/-
# The order book and what it forgets

`orders` is a projection of the current market: a row that is over is deleted, and what must be known of it
moves to a marker in `market_order_retirements` that expires.  The rules of `domain/order-retention.ts` and the
statements between the two tables (`infra/domain/orders.ts`, `sqlite-order-retirements.ts`,
`sqlite-market-data-maintenance.ts`).  Times are epoch seconds; zero stands for any that is not positive.
-/
import Artgod.Indexer.Orders

namespace Artgod.Indexer

open Store

/-! ## 1. Retention rules -/

/-- `MARKET_DATA_STORAGE_POLICY`. -/
def futureEventToleranceSeconds : Nat := 5 * 60
def inactiveOrderGraceSeconds : Nat := 60 * 60
def unknownOrderLifetimeSeconds : Nat := 24 * 60 * 60
def orderReorgGraceSeconds : Nat := 60 * 60

inductive OrderRetirementReason where
  | expired
  | terminal
  | sourceCancelled
  | stale
deriving DecidableEq

structure OrderRetirementObservation where
  reason : OrderRetirementReason
  retiredAt : Nat
  validUntil : Option Nat

structure OrderRetirement extends OrderRetirementObservation where
  expiresAt : Nat

def isTerminalRetirement (reason : OrderRetirementReason) : Bool :=
  reason = .terminal || reason = .sourceCancelled

def admitsOrderObservation (validUntil : Option Nat) (observedAt now : Nat) : Bool :=
  validUntil.all (fun until_ => decide (now < until_)) && isSafeInteger observedAt &&
    decide (0 < observedAt) && decide (now < observedAt + unknownOrderLifetimeSeconds) &&
    decide (observedAt ≤ now + futureEventToleranceSeconds)

def isTerminalSourceStatus (status : OrderSourceStatus) : Bool :=
  status = .filled || status = .cancelled

structure OrderRetentionInput where
  validUntil : Option Nat
  sourceStatus : OrderSourceStatus
  fillabilityStatus : OrderStatus
  lastObservedAt : Nat
  lastChangedAt : Nat

/-- The order was filled or cancelled, on chain or at the source. -/
def isTerminalOrder (sourceStatus : OrderSourceStatus) (fillabilityStatus : OrderStatus) : Bool :=
  fillabilityStatus = .filled || fillabilityStatus = .cancelled || sourceStatus = .filled ||
    sourceStatus = .cancelled

def orderRetirementReason (order : OrderRetentionInput) (now : Nat) : Option OrderRetirementReason :=
  if order.validUntil.any (fun until_ => decide (until_ ≤ now)) then some .expired
  else if isTerminalOrder order.sourceStatus order.fillabilityStatus &&
      decide (order.lastChangedAt + orderReorgGraceSeconds ≤ now) then some .terminal
  else if order.sourceStatus = .inactive &&
      decide (order.lastChangedAt + inactiveOrderGraceSeconds ≤ now) then some .stale
  else if order.validUntil = none &&
      decide (order.lastObservedAt + unknownOrderLifetimeSeconds ≤ now) then some .stale
  else none

def knownOrderExpiry (value : Option Nat) : Option Nat :=
  value.filter (fun v => isSafeInteger v && decide (0 < v))

/-- The terminal marker that a new observation meets. -/
def terminalMarker (previous : Option OrderRetirement) : Option OrderRetirement :=
  previous.filter (fun p => isTerminalRetirement p.reason)

def mergeOrderRetirement (previous : Option OrderRetirement)
    (observation : OrderRetirementObservation) (now : Nat) : OrderRetirement :=
  let reason :=
    if (previous.any (fun p => p.reason = .sourceCancelled)) ||
        observation.reason = .sourceCancelled then .sourceCancelled
    else ((terminalMarker previous).map (·.reason)).getD observation.reason
  let retiredAt :=
    match (terminalMarker previous).filter (fun p => reason = p.reason) with
    | some p => p.retiredAt
    | none => max ((previous.map (·.retiredAt)).getD 0) observation.retiredAt
  let knownExpiry :=
    max ((knownOrderExpiry (previous.bind (·.validUntil))).getD 0)
      ((knownOrderExpiry observation.validUntil).getD 0)
  let validUntil := if 0 < knownExpiry then some knownExpiry else none
  let fallback :=
    ((terminalMarker previous).map (·.expiresAt)).getD (now + unknownOrderLifetimeSeconds)
  let expiresAt :=
    if isTerminalRetirement reason then
      match validUntil with
      | none => fallback
      | some v => v + orderReorgGraceSeconds
    else
      match validUntil with
      | none => retiredAt + unknownOrderLifetimeSeconds
      | some v => min (retiredAt + unknownOrderLifetimeSeconds) v
  ⟨⟨reason, retiredAt, validUntil⟩, expiresAt⟩

/-! ## 2. Tables -/

inductive OrderSourceScopeKind where
  | token
  | collection
  | attribute
  | tokenSet
deriving DecidableEq

inductive OrderLocalTokenSetStatus where
  | none
  | resolved
  | unresolved
  | mismatch
deriving DecidableEq

inductive OrderSeaportDataSourceKind where
  | stream
  | rest
deriving DecidableEq

/-- `SeaportOrderData`, with the fields the projection reads; `order` is the rest of it. -/
structure SeaportOrderData where
  protocolAddress : Address
  signature : Option String
  order : String
deriving DecidableEq

/-- The columns of `orders` that only describe the offer, and that an unchanged upsert compares. -/
structure OrderTerms where
  side : OrderSide
  source : String
  taker : Option Address
  sourceScopeKind : OrderSourceScopeKind
  sourceCriteriaRoot : Option String
  sourceEncodedTokenIds : Option String
  sourceSchemaJson : Option String
  localTokenSetStatus : OrderLocalTokenSetStatus
  tokenSetId : Option String
  tokenSetSchemaHash : Option String
  quantity : String
  price : Option String
  currency : Option Address
  validFrom : Option Nat
  seaportData : Option SeaportOrderData
  seaportDataSourceKind : Option OrderSeaportDataSourceKind
  rawRestData : Option String
  rawStreamData : Option String
deriving DecidableEq

/-- A row of `orders`, with the columns of the market projection. -/
structure MarketOrderRow extends OrderRow where
  terms : OrderTerms
  observedAt : Nat
  updatedAt : Nat
  protocolAddress : Option Address
deriving DecidableEq

def MarketOrderRow.key (r : MarketOrderRow) : OrderId := r.id

/-- A row of `market_order_retirements`. -/
structure RetirementRow where
  orderId : OrderId
  collectionId : CollectionId
  retirement : OrderRetirement
  blockNumber : Option Nat

/-- A row of `market_order_observations`. -/
structure OrderObservationRow where
  collectionId : CollectionId
  observedAt : Nat

/-- The tables of the market projection of one chain. -/
structure OrderBook where
  collections : Table CollectionRecord.id
  orders : Table MarketOrderRow.key
  retirements : Table RetirementRow.orderId
  observations : Table OrderObservationRow.collectionId

def OrderBook.fresh (collections : Table CollectionRecord.id) : OrderBook :=
  ⟨collections, .empty, .empty, .empty⟩

variable (book : OrderBook)

/-- The marker of an order, as the rules see it. -/
def OrderBook.retirement? (orderId : OrderId) : Option OrderRetirement :=
  (book.retirements.get? orderId).map (·.retirement)

/-! ## 3. Markers -/

def OrderBook.forget (orderId : OrderId) : OrderBook :=
  { book with retirements := book.retirements.deleteWhere (fun m => m.orderId = orderId) }

/-- `record`: a marker whose deadline has passed is not kept. -/
def OrderBook.record (orderId : OrderId) (collectionId : CollectionId)
    (observation : OrderRetirementObservation) (blockNumber : Option Nat) (now : Nat) : OrderBook :=
  let next := mergeOrderRetirement (book.retirement? orderId) observation now
  if next.expiresAt ≤ now then book.forget orderId
  else
    { book with
      retirements := book.retirements.upsert ⟨orderId, collectionId, next, blockNumber⟩
        (fun stored =>
          { stored with
            retirement := next
            blockNumber := blockNumber <|> stored.blockNumber })
        (fun _ => rfl) }

/-- `invalidateFromBlock`: only chain evidence is attributed to a block. -/
def OrderBook.invalidateFromBlock (fromBlock : Nat) : OrderBook :=
  { book with
    retirements := book.retirements.deleteWhere (fun m =>
      m.retirement.reason = .terminal && m.blockNumber.any (fun n => decide (fromBlock ≤ n))) }

/-! ## 4. Source observations -/

/-- `OrderUpdateByIdPayload` of a source update. -/
structure OrderSourceUpdate where
  orderId : OrderId
  collectionId : Option CollectionId
  observedAt : Option Nat
  validUntil : Option Nat
  sourceStatus : OrderSourceStatus

/-- The row that `rememberOrderExpiry` leaves: a known deadline is never replaced. -/
def MarketOrderRow.rememberExpiry (row : MarketOrderRow) (supplied : Option Nat) : MarketOrderRow :=
  match row.validUntil, knownOrderExpiry supplied with
  | none, some v =>
    { row with validUntil := some v, stateRevision := row.stateRevision + 1, validatedAt := 0 }
  | _, _ => row

theorem MarketOrderRow.key_rememberExpiry (row : MarketOrderRow) (supplied : Option Nat) :
    (row.rememberExpiry supplied).key = row.key := by
  rw [rememberExpiry]
  split <;> rfl

def OrderBook.rememberOrderExpiry (orderId : OrderId) (supplied : Option Nat) :
    OrderBook :=
  { book with
    orders := book.orders.updateWhere (fun o => o.id = orderId) (·.rememberExpiry supplied)
      (fun o => o.key_rememberExpiry supplied) }

/-- The row that a source update leaves. -/
def MarketOrderRow.observe (row : MarketOrderRow) (status : OrderSourceStatus) (observedAt now : Nat) :
    MarketOrderRow :=
  if row.sourceStatus ≠ status ∨ row.observedAt < observedAt then
    { row with
      observedAt := max row.observedAt observedAt
      stateRevision := row.stateRevision + if row.sourceStatus ≠ status then 1 else 0
      updatedAt := if row.sourceStatus ≠ status then now else row.updatedAt
      sourceStatus := status }
  else row

theorem MarketOrderRow.key_observe (row : MarketOrderRow) (status : OrderSourceStatus)
    (observedAt now : Nat) : (row.observe status observedAt now).key = row.key := by
  rw [observe]
  split <;> rfl

/-- The reason of the marker for an order that has no row. -/
def observedRetirementReason (status : OrderSourceStatus) : OrderRetirementReason :=
  if status = .cancelled then .sourceCancelled
  else if isTerminalSourceStatus status then .terminal
  else .stale

/-- The observation time is one the source may report. -/
def acceptsSourceObservation (observedAt now : Nat) : Bool :=
  isSafeInteger observedAt && decide (0 < observedAt) &&
    decide (observedAt ≤ now + futureEventToleranceSeconds)

def OrderBook.applySourceObservation (payload : OrderSourceUpdate) (now : Nat) :
    OrderBook :=
  let observedAt := payload.observedAt.getD now
  if acceptsSourceObservation observedAt now = false then book
  else
    let row := book.orders.get? payload.orderId
    match (row.map (·.collectionId)) <|> payload.collectionId with
    | none => book
    | some collectionId =>
      if book.collections.has collectionId = false then book
      else
        match row with
        | none =>
          if isTerminalSourceStatus payload.sourceStatus || payload.sourceStatus = .inactive then
            book.record payload.orderId collectionId
              ⟨observedRetirementReason payload.sourceStatus, observedAt, payload.validUntil⟩ none now
          else book
        | some row =>
          -- a deadline that the row lacks is kept for its eventual marker
          let learned := book.rememberOrderExpiry payload.orderId payload.validUntil
          if row.sourceStatus = .cancelled || (payload.sourceStatus ≠ .cancelled &&
                isTerminalOrder row.sourceStatus row.fillabilityStatus) then learned
          else if isTerminalSourceStatus payload.sourceStatus = false &&
              decide (observedAt < row.observedAt) then learned
          else
            { learned with
              orders := learned.orders.updateWhere (fun o => o.id = payload.orderId)
                (·.observe payload.sourceStatus observedAt now)
                (fun o => o.key_observe payload.sourceStatus observedAt now) }

/-! ## 5. Upserts -/

structure OrderUpsertPayload where
  orderId : OrderId
  collectionId : CollectionId
  observedAt : Option Nat
  kind : String
  side : OrderSide
  maker : Address
  taker : Option Address
  contract : Address
  tokenId : Option TokenId
  sourceScopeKind : Option OrderSourceScopeKind
  sourceCriteriaRoot : Option String
  sourceEncodedTokenIds : Option String
  sourceSchema : Option String
  localTokenSetStatus : Option OrderLocalTokenSetStatus
  tokenSetId : Option String
  tokenSetSchemaHash : Option String
  quantity : Option String
  price : Option String
  currency : Option Address
  validFrom : Option Nat
  validUntil : Option Nat
  source : String
  sourceStatus : Option OrderSourceStatus
  rawSourceKind : Option OrderSeaportDataSourceKind
  rawPayload : Option String
  seaportData : Option SeaportOrderData

/-- A signature that is there and not empty. -/
def hasSignature (data : SeaportOrderData) : Bool := data.signature.any (fun s => s ≠ "")

/-- `mergeSeaportData`: a REST snapshot without a signature keeps the one the stream had. -/
def mergeSeaportData (existing : Option SeaportOrderData)
    (existingSourceKind : Option OrderSeaportDataSourceKind) (incoming : Option SeaportOrderData)
    (incomingSourceKind : OrderSeaportDataSourceKind) : Option SeaportOrderData :=
  match incoming, existing with
  | none, _ => existing
  | some data, none => some data
  | some data, some stored =>
    if incomingSourceKind = .rest && existingSourceKind = some .stream && !hasSignature data &&
        hasSignature stored then
      some { data with signature := stored.signature }
    else some data

def resolveSeaportDataSourceKind (existing : Option OrderSeaportDataSourceKind)
    (incoming : Option SeaportOrderData) (incomingSourceKind : OrderSeaportDataSourceKind) :
    Option OrderSeaportDataSourceKind :=
  if incoming = none then existing
  else if incomingSourceKind = .stream || existing = some .stream then some .stream
  else some .rest

def defaultLocalTokenSetStatus (kind : OrderSourceScopeKind) : OrderLocalTokenSetStatus :=
  if kind = .token then .none else .unresolved

/-- The row that an upsert inserts, and that a conflicting row is updated from. -/
def OrderUpsertPayload.row (payload : OrderUpsertPayload) (persistRawDebugPayloads : Bool)
    (existing : Option MarketOrderRow) (observedAt now : Nat) : MarketOrderRow :=
  let sourceScopeKind := payload.sourceScopeKind.getD .token
  let rawSourceKind := payload.rawSourceKind.getD .stream
  let existingData := existing.bind (·.terms.seaportData)
  let existingKind := existing.bind (·.terms.seaportDataSourceKind)
  let seaportData := mergeSeaportData existingData existingKind payload.seaportData rawSourceKind
  let rawPayload := if persistRawDebugPayloads then payload.rawPayload else none
  { id := payload.orderId
    collectionId := payload.collectionId
    kind := payload.kind
    maker := payload.maker
    contract := payload.contract
    tokenId := payload.tokenId
    validUntil := payload.validUntil
    fillabilityStatus := .fillable
    sourceStatus := payload.sourceStatus.getD .active
    blockNumber := none
    validatedAt := 0
    stateRevision := 0
    terms :=
      { side := payload.side
        source := payload.source
        taker := payload.taker
        sourceScopeKind := sourceScopeKind
        sourceCriteriaRoot := payload.sourceCriteriaRoot
        sourceEncodedTokenIds := payload.sourceEncodedTokenIds
        sourceSchemaJson := payload.sourceSchema
        localTokenSetStatus :=
          payload.localTokenSetStatus.getD (defaultLocalTokenSetStatus sourceScopeKind)
        tokenSetId := payload.tokenSetId
        tokenSetSchemaHash := payload.tokenSetSchemaHash
        quantity := payload.quantity.getD "1"
        price := payload.price
        currency := payload.currency
        validFrom := payload.validFrom
        seaportData := seaportData
        seaportDataSourceKind :=
          resolveSeaportDataSourceKind existingKind payload.seaportData rawSourceKind
        rawRestData := if rawSourceKind = .rest then rawPayload else none
        rawStreamData := if rawSourceKind = .stream then rawPayload else none }
    observedAt := observedAt
    updatedAt := now
    protocolAddress := seaportData.map (·.protocolAddress) }

/-- The columns that the `ON CONFLICT` clause compares. -/
structure OrderContent where
  kind : String
  maker : Address
  contract : Address
  tokenId : Option TokenId
  validUntil : Option Nat
  sourceStatus : OrderSourceStatus
  terms : OrderTerms
deriving DecidableEq

def MarketOrderRow.content (r : MarketOrderRow) : OrderContent :=
  ⟨r.kind, r.maker, r.contract, r.tokenId, r.validUntil, r.sourceStatus, r.terms⟩

/-- The row that `DO UPDATE SET` writes. -/
def MarketOrderRow.merge (stored incoming : MarketOrderRow) (now : Nat) : MarketOrderRow :=
  { stored with
    collectionId := incoming.collectionId
    kind := incoming.kind
    maker := incoming.maker
    contract := incoming.contract
    tokenId := incoming.tokenId
    validUntil := incoming.validUntil
    sourceStatus := incoming.sourceStatus
    stateRevision := stored.stateRevision + 1
    validatedAt := 0
    terms :=
      { incoming.terms with
        seaportData := incoming.terms.seaportData <|> stored.terms.seaportData
        seaportDataSourceKind :=
          incoming.terms.seaportDataSourceKind <|> stored.terms.seaportDataSourceKind
        rawRestData := incoming.terms.rawRestData <|> stored.terms.rawRestData
        rawStreamData := incoming.terms.rawStreamData <|> stored.terms.rawStreamData }
    observedAt := max stored.observedAt incoming.observedAt
    updatedAt := now
    protocolAddress := incoming.protocolAddress }

/-- The upsert changed the row. -/
def MarketOrderRow.changedBy (stored incoming : MarketOrderRow) (now : Nat) : Bool :=
  decide ((stored.merge incoming now).content ≠ stored.content)

/-- What the upsert leaves of a stored row: the merged row, or the stored one with its observation
time moved once that is worth a write. -/
def MarketOrderRow.upserted (incoming : MarketOrderRow) (now : Nat) (stored : MarketOrderRow) :
    MarketOrderRow :=
  if stored.changedBy incoming now then stored.merge incoming now
  else if stored.observedAt + orderRevalidationSeconds ≤ incoming.observedAt then
    { stored with observedAt := incoming.observedAt }
  else stored

theorem MarketOrderRow.key_upserted (incoming : MarketOrderRow) (now : Nat) (stored : MarketOrderRow) :
    (incoming.upserted now stored).key = stored.key := by
  rw [upserted]
  split
  · rfl
  · split <;> rfl

/-- What `applyOrderUpsert` returns. -/
structure OrderUpsertOutcome where
  changed : Bool
  validationNeeded : Bool
  validationRevision : Nat

def OrderUpsertOutcome.ignored : OrderUpsertOutcome := ⟨false, false, 0⟩

/-- The last validation is old enough to be repeated. -/
def MarketOrderRow.validationDue (row : MarketOrderRow) (now : Nat) : Bool :=
  row.validatedAt + orderRevalidationSeconds ≤ now

/-- The marker that keeps an upsert out. -/
def OrderBook.fencedBy (orderId : OrderId) (observedAt now : Nat)
    (admitted : Bool) : Option OrderRetirement :=
  (book.retirement? orderId).filter (fun retired =>
    decide (now < retired.expiresAt) &&
      (isTerminalRetirement retired.reason || decide (observedAt ≤ retired.retiredAt) || !admitted))

/-- `upsertOrder`, and the write of a newer observation time. -/
def OrderBook.upsertOrder (incoming : MarketOrderRow) (now : Nat) : OrderBook :=
  { book with
    orders := book.orders.upsert incoming (incoming.upserted now) (incoming.key_upserted now) }

def OrderBook.applyOrderUpsert (persistRawDebugPayloads : Bool)
    (payload : OrderUpsertPayload) (now : Nat) : OrderBook × OrderUpsertOutcome :=
  let observedAt := payload.observedAt.getD now
  let admitted := admitsOrderObservation payload.validUntil observedAt now
  if admitted = false && knownOrderExpiry payload.validUntil = none then (book, .ignored)
  else if book.collections.has payload.collectionId = false then (book, .ignored)
  else
    match book.fencedBy payload.orderId observedAt now admitted with
    | some retired =>
      -- a rejected upsert may still bring the deadline of the order
      (book.record payload.orderId payload.collectionId
        ⟨retired.reason, retired.retiredAt, payload.validUntil⟩
        ((book.retirements.get? payload.orderId).bind (·.blockNumber)) now, .ignored)
    | none =>
      let existing := book.orders.get? payload.orderId
      match existing.filter (fun row => isTerminalOrder row.sourceStatus row.fillabilityStatus) with
      | some row =>
        (book.rememberOrderExpiry payload.orderId payload.validUntil, { OrderUpsertOutcome.ignored with
            changed := row.rememberExpiry payload.validUntil ≠ row })
      | none =>
        if admitted = false then (book, .ignored)
        else
          match existing.filter (fun row => decide (observedAt < row.observedAt)) with
          | some row =>
            (book, ⟨false, row.sourceStatus = .active && row.validUntil.all (fun v => decide (now < v)) &&
                row.validationDue now, row.stateRevision⟩)
          | none =>
            let incoming := payload.row persistRawDebugPayloads existing observedAt now
            let changed := existing.all (fun row => row.changedBy incoming now)
            ((book.upsertOrder incoming now).forget payload.orderId,
              ⟨changed, changed || existing.any (·.validationDue now),
                (existing.map (fun row => row.stateRevision + if changed then 1 else 0)).getD 0⟩)

/-! ## 6. Other writers of the projection -/

/-- The row that `updateOrderFillabilityStatus` and the write of the block leave. -/
def MarketOrderRow.chainOutcome (row : MarketOrderRow) (status : OrderStatus)
    (blockNumber : Option Nat) (now : Nat) : MarketOrderRow :=
  if row.fillabilityStatus = status then row
  else
    { row with
      fillabilityStatus := status
      stateRevision := row.stateRevision + 1
      updatedAt := now
      blockNumber := blockNumber <|> row.blockNumber }

theorem MarketOrderRow.key_chainOutcome (row : MarketOrderRow) (status : OrderStatus)
    (blockNumber : Option Nat) (now : Nat) :
    (row.chainOutcome status blockNumber now).key = row.key := by
  rw [chainOutcome]
  split <;> rfl

/-- An event with a block needs the order's row, and must lie above the anchor of its collection. -/
def OrderBook.anchorAllows (orderId : OrderId) (blockNumber : Option Nat) : Bool :=
  match blockNumber, book.orders.get? orderId with
  | none, _ => true
  | some _, none => false
  | some b, some row =>
    canProjectCurrentStateAtBlock ((book.collections.get? row.collectionId).bind (·.bootstrapAnchorBlock)) b

/-- `handleOrderUpdateById` of a fill or cancellation. -/
def OrderBook.applyChainOutcome (orderId : OrderId) (status : OrderStatus)
    (blockNumber : Option Nat) (now : Nat) : OrderBook :=
  if book.anchorAllows orderId blockNumber then
    { book with
      orders := book.orders.updateWhere (fun o => o.id = orderId)
        (·.chainOutcome status blockNumber now)
        (fun o => o.key_chainOutcome status blockNumber now) }
  else book

/-- The row that `applyValidation` leaves. -/
def MarketOrderRow.validated (row : MarketOrderRow) (status : OrderStatus) (now : Nat) :
    MarketOrderRow :=
  { row with
    toOrderRow := row.toOrderRow.withValidation status now
    updatedAt := if row.fillabilityStatus ≠ status then now else row.updatedAt }

theorem MarketOrderRow.key_validated (row : MarketOrderRow) (status : OrderStatus) (now : Nat) :
    (row.validated status now).key = row.key :=
  row.toOrderRow.withValidation_id status now

/-- `applyValidation`, under the revision that was validated. -/
def OrderBook.applyValidation (orderId : OrderId) (revision : Nat)
    (status : OrderStatus) (now : Nat) : OrderBook :=
  { book with
    orders := book.orders.updateWhere
      (fun o => o.id = orderId && o.stateRevision = revision && o.sourceStatus = .active)
      (·.validated status now) (fun o => o.key_validated status now) }

/-- The row of an order that a crawl did not find. -/
def MarketOrderRow.deactivate (startedAt now : Nat) (row : MarketOrderRow) : MarketOrderRow :=
  { row with
    sourceStatus := .inactive
    observedAt := max row.observedAt startedAt
    stateRevision := row.stateRevision + 1
    updatedAt := now }

theorem MarketOrderRow.key_deactivate (startedAt now : Nat) (row : MarketOrderRow) :
    (row.deactivate startedAt now).key = row.key := rfl

/-- One batch of `complete`: the orders of a crawl that the source no longer lists. -/
def OrderBook.deactivateMissing (collectionId : CollectionId) (source : String)
    (startedAt : Nat) (missing : List OrderId) (now : Nat) : OrderBook :=
  if book.collections.has collectionId = false then book
  else
    { book with
      orders := book.orders.updateWhere
        (fun o => o.id ∈ missing && o.collectionId = collectionId && o.terms.source = source &&
          o.sourceStatus = .active && decide (o.observedAt + orderRevalidationSeconds ≤ startedAt))
        (MarketOrderRow.deactivate startedAt now) (MarketOrderRow.key_deactivate startedAt now) }

/-- The end of `complete`: the collection was observed when its crawl started. -/
def OrderBook.observeCollection (collectionId : CollectionId) (startedAt : Nat) :
    OrderBook :=
  if book.collections.has collectionId = false then book
  else
    { book with
      observations := book.observations.upsert ⟨collectionId, startedAt⟩
        (fun stored => { stored with observedAt := max stored.observedAt startedAt })
        (fun _ => rfl) }

/-! ## 7. Maintenance -/

/-- The input of `retire` for a row. -/
def OrderBook.retentionInput (row : MarketOrderRow) : OrderRetentionInput :=
  ⟨row.validUntil, row.sourceStatus, row.fillabilityStatus,
    max (if row.observedAt = 0 then row.updatedAt else row.observedAt)
      (((book.observations.get? row.collectionId).map (·.observedAt)).getD 0),
    row.updatedAt⟩

/-- The marker that `retire` records for a row: for what was terminal, and for what the source no
longer lists. -/
def OrderBook.markRetired (row : MarketOrderRow) (reason : OrderRetirementReason) (now : Nat) : OrderBook :=
  if reason = .terminal || (reason = .stale && row.sourceStatus = .inactive) then
    book.record row.id row.collectionId ⟨if row.sourceStatus = .cancelled then .sourceCancelled else reason,
        (book.retentionInput row).lastObservedAt, (book.retentionInput row).validUntil⟩
      row.blockNumber now
  else book

def OrderBook.deleteOrder (orderId : OrderId) : OrderBook :=
  { book with orders := book.orders.deleteWhere (fun o => o.id = orderId) }

/-- `retire`, and the `DELETE` of a retired row. -/
def OrderBook.retireOrder (now : Nat) (orderId : OrderId) : OrderBook :=
  match book.orders.get? orderId with
  | none => book
  | some row =>
    match orderRetirementReason (book.retentionInput row) now with
    | none => book
    | some reason => (book.markRetired row reason now).deleteOrder orderId

def OrderBook.deleteMarker (now : Nat) (orderId : OrderId) : OrderBook :=
  { book with
    retirements := book.retirements.deleteWhere (fun m =>
      m.orderId = orderId && decide (m.retirement.expiresAt ≤ now)) }

/-- The transaction of `maintainBatch`, for what was selected before it. -/
def OrderBook.maintainBatch (candidates markers : List OrderId) (now : Nat) :
    OrderBook :=
  markers.foldl (fun b id => b.deleteMarker now id)
    (candidates.foldl (fun b id => b.retireOrder now id) book)

/-! ## 8. Rollback -/

/-- The row of an order whose seller has the token back. -/
def MarketOrderRow.resetFillability (now : Nat) (row : MarketOrderRow) : MarketOrderRow :=
  { row with
    fillabilityStatus := .fillable
    stateRevision := row.stateRevision + 1
    updatedAt := now }

theorem MarketOrderRow.key_resetFillability (now : Nat) (row : MarketOrderRow) :
    (row.resetFillability now).key = row.key := rfl

/-- `resetOrderFromTransfer` on the columns of this projection. -/
def OrderBook.resetOrderFromTransfer (now : Nat) (book : OrderBook) (r : TransferRow) : OrderBook :=
  if r.event.fromAddress = zeroAddress then book
  else
    { book with
      orders := book.orders.updateWhere
        (fun o => o.collectionId = r.event.collectionId && o.maker = r.event.fromAddress &&
          o.contract = r.event.contract && o.tokenId = some r.event.tokenId &&
          o.fillabilityStatus = .noBalance)
        (MarketOrderRow.resetFillability now) (MarketOrderRow.key_resetFillability now) }

def OrderBook.deleteOrdersFromBlock (fromBlock : Nat) : OrderBook :=
  { book with
    orders := book.orders.deleteWhere (fun o => isOrphanOrder fromBlock o.toOrderRow) }

/-- What `rollbackFromBlock` does to the projection, for the transfers it reverses. -/
def OrderBook.rollbackFromBlock (fromBlock : Nat) (reversed : List TransferRow) (now : Nat) : OrderBook :=
  ((reversed.foldl (OrderBook.resetOrderFromTransfer now) book).deleteOrdersFromBlock
    fromBlock).invalidateFromBlock fromBlock

end Artgod.Indexer
