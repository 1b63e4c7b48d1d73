/-
# The indexer's data model

The values the indexer fetches from a chain, the rows it keeps, and the database record that holds every table,
for one chain.  Hashes and addresses, which the source lower-cases before it stores or compares them, are the
numbers they denote; token ids, order ids and job ids stay text, because SQLite sorts them as text.
-/
import Artgod.Store.Table
import Artgod.Store.Transaction

namespace Artgod.Indexer

open Store

/-! ## 1. Scalars -/

abbrev Hash := Nat
abbrev Address := Nat
abbrev CollectionId := Nat
abbrev TokenId := String
abbrev OrderId := String

def zeroAddress : Address := 0

def zeroHash : Hash := 0

def maxSafeInteger : Nat := 9007199254740991

/-- `Number.isSafeInteger`, on a value whose type already excludes fractions and negatives. -/
def isSafeInteger (n : Nat) : Bool := n ≤ maxSafeInteger

/-- What a store operation can throw. -/
inductive SyncError where
  | chainSyncConflict (message : String)
  | storedBlockHashConflict (blockNumber : Nat) (storedHash observedHash : Hash)
  | rangeError (message : String)
  | sqliteConstraint (message : String)
  | makerRevalidationConflict (message : String)
  | error (message : String)
deriving DecidableEq

/-! ## 2. Chain values -/

/-- `ChainSyncCheckpoint`: captured before any RPC work. -/
structure ChainSyncCheckpoint where
  revision : Nat
deriving DecidableEq

structure SyncBlockHeader where
  number : Nat
  hash : Hash
  parentHash : Hash
  timestamp : Nat
deriving DecidableEq

structure CanonicalCheckPolicy where
  observedHeadBlock : Nat
  reorgDepth : Nat

inductive CollectionStandard where
  | erc721
  | erc1155
deriving DecidableEq

inductive CollectionStatus where
  | prepared
  | bootstrapping
  | live
  | paused
  | disabled
deriving DecidableEq

/-- `CollectionRecord`, with the columns the chain store reads. -/
structure CollectionRecord where
  id : CollectionId
  address : Address
  standard : CollectionStandard
  status : CollectionStatus
  bootstrapAnchorBlock : Option Nat
deriving DecidableEq

/-- `NftTransferEvent`: one token movement decoded from a log. -/
structure NftTransferEvent where
  collectionId : CollectionId
  contract : Address
  tokenId : TokenId
  fromAddress : Address
  toAddress : Address
  amount : Nat
  kind : CollectionStandard
  blockNumber : Nat
  blockHash : Hash
  txHash : Hash
  logIndex : Nat
deriving DecidableEq

structure TransactionRecord where
  hash : Hash
  fromAddress : Address
  toAddress : Option Address
  input : String
  blockNumber : Nat
  blockHash : Hash
deriving DecidableEq

inductive FillItemSide where
  | offer
  | consideration
deriving DecidableEq

structure FillExecutionItem where
  index : Nat
  side : FillItemSide
  itemType : Int
  contract : Address
  identifier : String
  amount : String
  recipient : Option Address
deriving DecidableEq

structure FillExecution where
  protocolAddress : Address
  items : List FillExecutionItem
deriving DecidableEq

inductive OrderSide where
  | buy
  | sell
deriving DecidableEq

/-- `FillEvent`: one collection's share of an order execution. -/
structure FillEvent where
  collectionId : CollectionId
  contract : Address
  tokenId : TokenId
  orderId : Option OrderId
  kind : Option String
  orderSide : Option OrderSide
  maker : Option Address
  taker : Option Address
  amount : Option String
  execution : FillExecution
  executionItemIndex : Nat
  blockNumber : Nat
  blockHash : Hash
  txHash : Hash
  logIndex : Nat

/-- `CollectionExtensionEvent`; the payload is carried as its JSON text. -/
structure CollectionExtensionEvent where
  collectionId : CollectionId
  contract : Address
  tokenId : Option TokenId
  extensionKey : String
  eventKey : String
  maker : Option Address
  contentHash : Option Hash
  payload : Option String
  blockNumber : Nat
  blockHash : Hash
  txHash : Hash
  logIndex : Nat
deriving DecidableEq

/-- `CollectionExtensionEventMedia`; the render modes are carried as their JSON text. -/
structure CollectionExtensionEventMedia where
  collectionId : CollectionId
  contract : Address
  tokenId : TokenId
  extensionKey : String
  eventKey : String
  mediaRef : String
  image : Option String
  animationUrl : Option String
  htmlContent : Option String
  renderModes : Option String
  blockNumber : Nat
  blockHash : Hash
  txHash : Hash
  logIndex : Nat
deriving DecidableEq

/-- The block attribution that every fact of a sync result carries. -/
structure BlockFact where
  blockNumber : Nat
  blockHash : Hash
deriving DecidableEq

/-- `OnChainData`.  `hints` stands for the groups that are checked against the headers and never
persisted (approvals, balance deltas, order infos, maker triggers, metadata refreshes, cancels),
of which only the block attribution is read. -/
structure OnChainData where
  transactions : List TransactionRecord
  nftTransferEvents : List NftTransferEvent
  fillEvents : List FillEvent
  collectionExtensionEvents : List CollectionExtensionEvent
  collectionExtensionEventMedia : List CollectionExtensionEventMedia
  hints : List BlockFact

/-- A range in which nothing happened. -/
def OnChainData.empty : OnChainData := ⟨[], [], [], [], [], []⟩

/-- `SyncRangeResult`: everything one acquisition hands to the writer. -/
structure SyncRangeResult where
  checkpoint : ChainSyncCheckpoint
  canonicalCheck : CanonicalCheckPolicy
  blocks : List SyncBlockHeader
  data : OnChainData
  collections : List CollectionRecord

/-! ## 3. Fact rows -/

/-- A row of `blocks`. -/
structure BlockRow where
  number : Nat
  hash : Hash
  parentHash : Hash
  timestamp : Nat
  canonicalCheckPending : Bool
  canonicalCheckRetryAt : Nat
deriving DecidableEq

/-- A row of `collection_sync_blocks`: the block was acquired for the collection. -/
structure CoverageRow where
  collectionId : CollectionId
  blockNumber : Nat
deriving DecidableEq

/-- A row of `transactions`. -/
structure TransactionRow where
  record : TransactionRecord
  blockTimestamp : Nat
deriving DecidableEq

/-- A row of `nft_transfer_events`. -/
structure TransferRow where
  event : NftTransferEvent
  blockTimestamp : Nat
deriving DecidableEq

/-- The `UNIQUE` key of `nft_transfer_events`: the batch index of an item is not part of it. -/
structure TransferKey where
  txHash : Hash
  logIndex : Nat
  collectionId : CollectionId
  tokenId : TokenId
deriving DecidableEq

def NftTransferEvent.key (e : NftTransferEvent) : TransferKey :=
  ⟨e.txHash, e.logIndex, e.collectionId, e.tokenId⟩

def TransferRow.key (r : TransferRow) : TransferKey := r.event.key

/-- `fillExecutionIdentity`: the parts of the id text, which is injective in them (the hash and
the log index contain no separator). -/
structure FillExecutionId where
  kind : String
  txHash : Hash
  logIndex : Nat
deriving DecidableEq

/-- A row of `fill_execution_items`. -/
structure FillExecutionItemRow where
  item : FillExecutionItem
  unitOffset : Nat
deriving DecidableEq

inductive FillPriceExclusion where
  | swap
  | mixedPayment
  | noPayment
  | unsupportedItems
  | unsupportedCurrency
deriving DecidableEq

structure FillPayment where
  exclusion : Option FillPriceExclusion
  totalPrice : Option Nat
  currency : Option Address
  nftQuantity : Nat
deriving DecidableEq

/-- A row of `fill_executions` together with its item rows, which are deleted with it. -/
structure FillExecutionRow where
  id : FillExecutionId
  protocolAddress : Address
  blockNumber : Nat
  blockHash : Hash
  blockTimestamp : Nat
  payment : FillPayment
  items : List FillExecutionItemRow
deriving DecidableEq

/-- A row of `fills`: the attribution of one execution item to a collection. -/
structure FillRow where
  collectionId : CollectionId
  executionId : FillExecutionId
  itemIndex : Nat
  kind : String
  orderId : Option OrderId
  orderSide : Option OrderSide
  maker : Option Address
  taker : Option Address
  contract : Address
  tokenId : TokenId
  amount : String
  blockNumber : Nat
  blockHash : Hash
  blockTimestamp : Nat
  txHash : Hash
  logIndex : Nat
deriving DecidableEq

def FillRow.key (r : FillRow) : CollectionId × FillExecutionId × Nat :=
  (r.collectionId, r.executionId, r.itemIndex)

/-- A row of `collection_extension_events`. -/
structure ExtensionEventRow where
  event : CollectionExtensionEvent
  blockTimestamp : Nat
deriving DecidableEq

/-- The column `token_id`, which stores an absent token as the empty text. -/
def ExtensionEventRow.tokenId (r : ExtensionEventRow) : TokenId := r.event.tokenId.getD ""

/-- The `UNIQUE` key of `collection_extension_events`. -/
structure ExtensionEventKey where
  collectionId : CollectionId
  extensionKey : String
  eventKey : String
  txHash : Hash
  logIndex : Nat
  tokenId : TokenId
deriving DecidableEq

def ExtensionEventRow.key (r : ExtensionEventRow) : ExtensionEventKey :=
  ⟨r.event.collectionId, r.event.extensionKey, r.event.eventKey, r.event.txHash,
    r.event.logIndex, r.tokenId⟩

/-- A row of `collection_extension_event_media`. -/
structure EventMediaRow where
  media : CollectionExtensionEventMedia
  blockTimestamp : Nat
deriving DecidableEq

/-- The `UNIQUE` key of `collection_extension_event_media`. -/
structure EventMediaKey where
  event : ExtensionEventKey
  mediaRef : String
deriving DecidableEq

def EventMediaRow.key (r : EventMediaRow) : EventMediaKey :=
  ⟨⟨r.media.collectionId, r.media.extensionKey, r.media.eventKey, r.media.txHash,
    r.media.logIndex, r.media.tokenId⟩, r.media.mediaRef⟩

/-! ## 4. Current-state rows -/

/-- `BalanceContext`: the event a balance was last written from. -/
structure BalanceContext where
  blockNumber : Nat
  blockHash : Hash
  blockTimestamp : Nat
  txHash : Hash
  logIndex : Nat
deriving DecidableEq

/-- The primary key of `nft_balances`. -/
structure BalanceKey where
  collectionId : CollectionId
  tokenId : TokenId
  owner : Address
deriving DecidableEq

/-- A row of `nft_balances`. -/
structure BalanceRow where
  key : BalanceKey
  contract : Address
  amount : Int
  last : BalanceContext
deriving DecidableEq

/-- A row of `erc721_ownership_checkpoints`: verified ownership at the end of a fork block. -/
structure OwnershipCheckpointRow where
  collectionId : CollectionId
  contract : Address
  tokenId : TokenId
  owner : Option Address
  blockNumber : Nat
  blockHash : Hash
  blockTimestamp : Nat
  bootstrapAnchorBlock : Option Nat
deriving DecidableEq

def OwnershipCheckpointRow.key (r : OwnershipCheckpointRow) : CollectionId × TokenId :=
  (r.collectionId, r.tokenId)

/-! ## 5. Orders -/

inductive OrderStatus where
  | fillable
  | filled
  | cancelled
  | expired
  | noBalance
  | noApproval
  | invalid
deriving DecidableEq

inductive OrderSourceStatus where
  | active
  | inactive
  | cancelled
  | filled
  | invalidated
  | expired
  | unknown
deriving DecidableEq

/-- A row of `orders`, with the columns that validation and rollback read or write. -/
structure OrderRow where
  id : OrderId
  collectionId : CollectionId
  kind : String
  maker : Address
  contract : Address
  tokenId : Option TokenId
  validUntil : Option Nat
  fillabilityStatus : OrderStatus
  sourceStatus : OrderSourceStatus
  blockNumber : Option Nat
  validatedAt : Nat
  stateRevision : Nat
deriving DecidableEq

/-- A row of `order_validation_demand`; it is deleted with its order. -/
structure DemandRow where
  orderId : OrderId
  generation : Nat
  revision : Nat
  requiredAt : Nat
  minimumBlock : Option Nat
  anchorIndependent : Bool
  pending : Bool
  proofRevision : Option Nat
  proofAt : Option Nat
  proofBlock : Option Nat
  proofChainRevision : Option Nat
  leaseOwner : Option String
  leaseVersion : Nat
  leaseUntil : Nat
  failures : Nat
  nextAttemptAt : Nat
  lastError : Option String
  updatedAt : Nat
deriving DecidableEq

/-! ## 6. Progress rows -/

structure PendingSyncGapRepair where
  repairId : String
  fromBlock : Nat
  toBlock : Nat
  retryAt : Nat
deriving DecidableEq

structure SyncGapProgress where
  anchorBlock : Nat
  cursorBlock : Option Nat
  pending : Option PendingSyncGapRepair
  lastHeadCheckAt : Option Nat
deriving DecidableEq

/-- A row of `collection_sync_gap_scans`. -/
structure GapScanRow where
  collectionId : CollectionId
  progress : SyncGapProgress
deriving DecidableEq

/-- `RecoveryBase`: what both phases of a recovery carry. -/
structure RecoveryBase where
  recoveryId : String
  revision : Nat
  version : Nat
  checkedBlock : Nat
  storedHash : Hash
  observedHash : Hash
  retryAt : Nat
deriving DecidableEq

/-- `AwaitingReorgAncestor`; `resumeFrom` keeps the unfinished part of an interrupted resync. -/
structure AwaitingReorgAncestor where
  base : RecoveryBase
  resumeFrom : Option Nat
deriving DecidableEq

/-- `ReorgResync`: the range handed out now, and the target of the whole resync. -/
structure ReorgResync where
  base : RecoveryBase
  fromBlock : Nat
  toBlock : Nat
  targetBlock : Nat
deriving DecidableEq

/-- `ReorgRecoveryState`: the row of `chain_reorg_recoveries`. -/
inductive ReorgRecoveryState where
  | awaitingAncestor (state : AwaitingReorgAncestor)
  | resync (state : ReorgResync)
deriving DecidableEq

def ReorgRecoveryState.base : ReorgRecoveryState → RecoveryBase
  | .awaitingAncestor state => state.base
  | .resync state => state.base

/-- `JobEnvelope`, with the fields the outbox writer reads; the payload is its JSON text. -/
structure JobEnvelope where
  jobId : String
  kind : String
  queue : String
  collectionId : Option CollectionId
  payload : String
  onchainBlock : Option BlockFact
deriving DecidableEq

/-- A row of `queue_outbox`. -/
structure OutboxRow where
  job : JobEnvelope
  syncBlockNumber : Option Nat
  syncBlockHash : Option Hash
deriving DecidableEq

def OutboxRow.key (r : OutboxRow) : String × String := (r.job.queue, r.job.jobId)

/-! ## 7. The database -/

/-- The tables of one chain. -/
structure Db where
  /-- `chain_sync_revisions.revision`, 0 while the row is missing. -/
  revision : Nat
  blocks : Table BlockRow.number
  coverage : Table (id : CoverageRow → CoverageRow)
  transactions : Table (fun r : TransactionRow => r.record.hash)
  transfers : Table TransferRow.key
  fillExecutions : Table FillExecutionRow.id
  fills : Table FillRow.key
  extensionEvents : Table ExtensionEventRow.key
  eventMedia : Table EventMediaRow.key
  balances : Table BalanceRow.key
  ownershipCheckpoints : Table OwnershipCheckpointRow.key
  collections : Table CollectionRecord.id
  orders : Table OrderRow.id
  demands : Table DemandRow.orderId
  gapScans : Table GapScanRow.collectionId
  recovery : Option ReorgRecoveryState
  outbox : Table OutboxRow.key
deriving DecidableEq

/-- The database of a chain nothing was synced on, with the given collections. -/
def Db.fresh (collections : Table CollectionRecord.id) : Db where
  revision := 0
  blocks := .empty
  coverage := .empty
  transactions := .empty
  transfers := .empty
  fillExecutions := .empty
  fills := .empty
  extensionEvents := .empty
  eventMedia := .empty
  balances := .empty
  ownershipCheckpoints := .empty
  collections := collections
  orders := .empty
  demands := .empty
  gapScans := .empty
  recovery := none
  outbox := .empty

/-- A store operation. -/
abbrev StoreM := Tx Db SyncError

end Artgod.Indexer
