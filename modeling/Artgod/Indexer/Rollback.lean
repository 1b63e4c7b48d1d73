/-
# Rolling the chain back

`SqliteStorage.rollbackFromBlock`: undo everything stored at or above a block, restore ERC721 ownership from a
verified snapshot of the fork block, and advance the chain revision.  The transfers are read in pages and each
is reversed exactly once, whatever the page boundary (`rollbackTransferPages_eq`).
-/
import Artgod.Indexer.Storage
import Mathlib.Data.List.Sort
import Mathlib.Data.String.Basic
import Mathlib.Order.OrderDual

namespace Artgod.Indexer

open Store

/-! ## 1. Plan and snapshot -/

structure Erc721TokenReference where
  collectionId : CollectionId
  contract : Address
  tokenId : TokenId
deriving DecidableEq

structure ReorgRollbackPlan where
  checkpoint : ChainSyncCheckpoint
  fromBlock : Nat
  tokens : List Erc721TokenReference

/-- The owner a snapshot proves; `none` is proven absence. -/
structure Erc721OwnerRead where
  token : Erc721TokenReference
  owner : Option Address

/-- `Erc721RollbackSnapshot`: the owners of the planned tokens at the fork block. -/
structure Erc721RollbackSnapshot where
  block : SyncBlockHeader
  owners : List Erc721OwnerRead

/-- `SELECT MAX(bootstrap_anchor_block) FROM collections`. -/
def maxAnchor (db : Db) : Option Nat :=
  (db.collections.rows.filterMap (·.bootstrapAnchorBlock)).max?

def assertRollbackPreservesAnchors (fromBlock : Nat) : StoreM Unit := do
  let db ← get
  Tx.throwIf (canRollbackFromBlock (maxAnchor db) fromBlock = false)
    (.chainSyncConflict
      s!"Rollback from block {fromBlock} crosses retained collection bootstrap anchor {(maxAnchor db).getD 0}")

/-- The anchors a rollback may not cross. -/
def AnchorsBelow (db : Db) (fromBlock : Nat) : Prop :=
  ∀ c ∈ db.collections, ∀ a, c.bootstrapAnchorBlock = some a → a < fromBlock

theorem canRollbackFromBlock_maxAnchor {db : Db} {fromBlock : Nat}
    (h : canRollbackFromBlock (maxAnchor db) fromBlock = true) : AnchorsBelow db fromBlock := by
  intro c hc a ha
  have hmem : a ∈ db.collections.rows.filterMap (·.bootstrapAnchorBlock) :=
    List.mem_filterMap.mpr ⟨c, hc, ha⟩
  rw [maxAnchor] at h
  cases hmax : (db.collections.rows.filterMap (·.bootstrapAnchorBlock)).max? with
  | none =>
    rw [List.max?_eq_none_iff] at hmax
    rw [hmax] at hmem
    exact absurd hmem (by simp)
  | some m =>
    rw [hmax] at h
    simp only [canRollbackFromBlock, decide_eq_true_eq] at h
    have hle : a ≤ m := (List.max?_le_iff hmax).mp (Nat.le_refl m) a hmem
    omega

/-- `selectRollbackTokens`: the ERC721 tokens of anchored collections that the window touches.
The `ORDER BY` is left out, because plans are compared as sets. -/
def selectRollbackTokens (db : Db) (fromBlock : Nat) : List Erc721TokenReference :=
  let touched :=
    ((db.transfers.select (fun r => fromBlock ≤ r.event.blockNumber && r.event.kind = .erc721)).map
        (fun r => (r.event.collectionId, r.event.tokenId))
      ++ (db.balances.select (fun r => fromBlock ≤ r.last.blockNumber)).map
        (fun r => (r.key.collectionId, r.key.tokenId))
      ++ (db.ownershipCheckpoints.select (fun r => fromBlock ≤ r.blockNumber)).map
        (fun r => (r.collectionId, r.tokenId))).dedup
  touched.filterMap (fun t =>
    match db.collections.get? t.1 with
    | some c =>
      if c.standard = .erc721 ∧ c.bootstrapAnchorBlock ≠ none then some ⟨t.1, c.address, t.2⟩
      else none
    | none => none)

/-- The loop of `assertSameErc721Tokens`: take each token out of the expected ones. -/
def consumeTokens : List Erc721TokenReference → List Erc721TokenReference → Bool
  | _, [] => true
  | expected, token :: rest =>
    if token ∈ expected then consumeTokens (expected.erase token) rest else false

def assertSameErc721Tokens (expected actual : List Erc721TokenReference) : Except SyncError Unit :=
  if ¬ (expected.map (fun t => (t.collectionId, t.tokenId))).Nodup ∨
      actual.length ≠ expected.length ∨ consumeTokens expected actual = false then
    .error (.chainSyncConflict "Rollback token scope changed")
  else .ok ()

theorem consumeTokens_subperm :
    ∀ {actual expected : List Erc721TokenReference}, consumeTokens expected actual = true →
      ∃ left, expected.Perm (actual ++ left)
  | [], expected, _ => ⟨expected, List.Perm.refl _⟩
  | token :: rest, expected, h => by
    rw [consumeTokens] at h
    split at h
    · next hmem =>
      obtain ⟨left, hleft⟩ := consumeTokens_subperm h
      exact ⟨left, (List.perm_cons_erase hmem).trans (hleft.cons token)⟩
    · exact absurd h (by simp)

/-- **Token lists that pass the check are permutations of each other, without repetition.** -/
theorem assertSameErc721Tokens_perm {expected actual : List Erc721TokenReference}
    (h : assertSameErc721Tokens expected actual = .ok ()) :
    actual.Perm expected ∧ (expected.map (fun t => (t.collectionId, t.tokenId))).Nodup := by
  simp only [assertSameErc721Tokens] at h
  split at h
  · exact absurd h (by simp)
  next hc =>
  push Not at hc
  obtain ⟨hnodup, hlen, hcons⟩ := hc
  obtain ⟨left, hperm⟩ := consumeTokens_subperm (by simpa using hcons)
  have hleft : left = [] := by
    have := hperm.length_eq
    rw [List.length_append] at this
    exact List.length_eq_zero_iff.mp (by omega)
  rw [hleft, List.append_nil] at hperm
  exact ⟨hperm.symm, hnodup⟩

/-! ## 2. Reversing transfers -/

def rollbackTransferPageSize : Nat := 256

/-- `ORDER BY block_number DESC, log_index DESC, collection_id, token_id, tx_hash`. -/
def TransferRow.rollbackPosition (r : TransferRow) :
    Natᵒᵈ ×ₗ Natᵒᵈ ×ₗ Nat ×ₗ String ×ₗ Nat :=
  toLex (OrderDual.toDual r.event.blockNumber, toLex (OrderDual.toDual r.event.logIndex,
    toLex (r.event.collectionId, toLex (r.event.tokenId, r.event.txHash))))

theorem eq_of_rollbackPosition_eq {transfers : Table TransferRow.key} {r s : TransferRow}
    (hr : r ∈ transfers) (hs : s ∈ transfers) (h : r.rollbackPosition = s.rollbackPosition) :
    r = s := by
  refine Table.eq_of_key_eq hr hs ?_
  simp only [TransferRow.rollbackPosition, EmbeddingLike.apply_eq_iff_eq, Prod.mk.injEq] at h
  obtain ⟨-, hlog, hcoll, htoken, htx⟩ := h
  simp only [TransferRow.key, NftTransferEvent.key, TransferKey.mk.injEq]
  exact ⟨htx, hlog, hcoll, htoken⟩

/-- The transfers at or above a block, newest first. -/
def transfersFromBlock (transfers : Table TransferRow.key) (fromBlock : Nat) : List TransferRow :=
  (transfers.select (fun r => fromBlock ≤ r.event.blockNumber)).insertionSort
    (fun r s => r.rollbackPosition ≤ s.rollbackPosition)

/-- `selectTransfersFromBlock`: the next page after a row already reversed. -/
def selectTransfersFromBlock (transfers : Table TransferRow.key) (fromBlock : Nat)
    (after : Option TransferRow) (limit : Nat) : List TransferRow :=
  ((transfersFromBlock transfers fromBlock).filter (fun r =>
    after.all (fun a => decide (a.rollbackPosition < r.rollbackPosition)))).take limit

/-- `rollbackErc1155Transfer`: move the amount back. -/
def rollbackErc1155Transfer (balances : BalanceTable) (r : TransferRow) : BalanceTable :=
  applyErc1155Transfer balances r.event.collectionId r.event.contract r.event.tokenId
    r.event.toAddress r.event.fromAddress r.event.amount
    ⟨r.event.blockNumber, r.event.blockHash, r.blockTimestamp, r.event.txHash, r.event.logIndex⟩

/-- `resetOrderFromTransfer`: the seller has the token back. -/
def resetOrderFromTransfer (orders : Table OrderRow.id) (r : TransferRow) : Table OrderRow.id :=
  if r.event.fromAddress = zeroAddress then orders
  else
    orders.updateWhere
      (fun o => o.collectionId = r.event.collectionId && o.maker = r.event.fromAddress &&
        o.contract = r.event.contract && o.tokenId = some r.event.tokenId &&
        o.fillabilityStatus = .noBalance)
      (fun o => { o with fillabilityStatus := .fillable, stateRevision := o.stateRevision + 1 })
      (fun _ => rfl)

/-- The body of the page loop. -/
def reverseTransfer (db : Db) (r : TransferRow) : Db :=
  { db with
    balances :=
      if r.event.kind = .erc1155 then rollbackErc1155Transfer db.balances r else db.balances
    orders := resetOrderFromTransfer db.orders r }

/-- The page loop of `rollbackFromBlock`; it ends at the first short page. -/
def rollbackTransferPages (fromBlock : Nat) : Nat → Option TransferRow → Db → Db
  | 0, _, db => db
  | fuel + 1, after, db =>
    let events :=
      selectTransfersFromBlock db.transfers fromBlock after rollbackTransferPageSize
    let reversed := events.foldl reverseTransfer db
    if events.length < rollbackTransferPageSize then reversed
    else rollbackTransferPages fromBlock fuel events.getLast? reversed

/-- The balance half of the page loop. -/
def reverseBalances (balances : BalanceTable) (r : TransferRow) : BalanceTable :=
  if r.event.kind = .erc1155 then rollbackErc1155Transfer balances r else balances

theorem foldl_reverseTransfer_eq (rows : List TransferRow) (db : Db) :
    rows.foldl reverseTransfer db =
      { db with
        balances := rows.foldl reverseBalances db.balances
        orders := rows.foldl resetOrderFromTransfer db.orders } := by
  induction rows generalizing db with
  | nil => rfl
  | cons r rest ih =>
    rw [List.foldl_cons, ih]
    rfl

section Paging

variable {transfers : Table TransferRow.key} {fromBlock : Nat}

theorem mem_transfersFromBlock {r : TransferRow} :
    r ∈ transfersFromBlock transfers fromBlock ↔
      r ∈ transfers ∧ fromBlock ≤ r.event.blockNumber := by
  simp [transfersFromBlock, List.mem_insertionSort]

theorem transfersFromBlock_perm :
    (transfersFromBlock transfers fromBlock).Perm
      (transfers.select (fun r => fromBlock ≤ r.event.blockNumber)) :=
  List.perm_insertionSort _ _

theorem transfersFromBlock_strict :
    (transfersFromBlock transfers fromBlock).Pairwise
      (fun r s => r.rollbackPosition < s.rollbackPosition) := by
  have hsorted : (transfersFromBlock transfers fromBlock).Pairwise
      (fun r s => r.rollbackPosition ≤ s.rollbackPosition) :=
    List.pairwise_insertionSort _ _
  have hnodup : (transfersFromBlock transfers fromBlock).Nodup :=
    transfersFromBlock_perm.nodup_iff.mpr (transfers.select_nodup _)
  refine List.Pairwise.imp_of_mem ?_ (hsorted.and hnodup)
  rintro r s hr hs ⟨hle, hne⟩
  refine lt_of_le_of_ne hle (fun heq => hne ?_)
  exact eq_of_rollbackPosition_eq (mem_transfersFromBlock.mp hr).1
    (mem_transfersFromBlock.mp hs).1 heq

theorem filter_after_eq {before rest : List TransferRow} {last : TransferRow}
    (h : (before ++ last :: rest).Pairwise
      (fun r s => r.rollbackPosition < s.rollbackPosition)) :
    (before ++ last :: rest).filter
      (fun r => decide (last.rollbackPosition < r.rollbackPosition)) = rest := by
  obtain ⟨-, htail, hcross⟩ := List.pairwise_append.mp h
  obtain ⟨hlast, -⟩ := List.pairwise_cons.mp htail
  rw [List.filter_append, List.filter_cons]
  have hbefore : before.filter
      (fun r => decide (last.rollbackPosition < r.rollbackPosition)) = [] := by
    rw [List.filter_eq_nil_iff]
    intro r hr
    simpa using le_of_lt (hcross r hr last (by simp))
  have hrest : rest.filter
      (fun r => decide (last.rollbackPosition < r.rollbackPosition)) = rest := by
    rw [List.filter_eq_self]
    intro r hr
    simpa using hlast r hr
  simp [hbefore, hrest]

theorem selectTransfersFromBlock_drop {done rest : List TransferRow} {limit : Nat}
    (h : transfersFromBlock transfers fromBlock = done ++ rest) :
    selectTransfersFromBlock transfers fromBlock done.getLast? limit = rest.take limit := by
  rw [selectTransfersFromBlock, h]
  rcases List.eq_nil_or_concat done with rfl | ⟨before, last, rfl⟩
  · simp
  have hstrict : (transfersFromBlock transfers fromBlock).Pairwise
      (fun r s => r.rollbackPosition < s.rollbackPosition) := transfersFromBlock_strict
  rw [h, List.concat_eq_append, List.append_assoc, List.singleton_append] at hstrict
  rw [List.concat_eq_append, List.getLast?_concat, List.append_assoc, List.singleton_append]
  simp only [Option.all_some]
  rw [filter_after_eq hstrict]

end Paging

/-- The loop reverses the rows that no earlier page held; every page but the last is full, so the
fuel that remains bounds the number of remaining rows. -/
theorem rollbackTransferPages_rest {fromBlock : Nat} :
    ∀ (fuel : Nat) (done rest : List TransferRow) (db : Db),
      transfersFromBlock db.transfers fromBlock = done ++ rest → rest.length < fuel →
      rollbackTransferPages fromBlock fuel done.getLast? db = rest.foldl reverseTransfer db
  | 0, _, _, _, _, hfuel => absurd hfuel (Nat.not_lt_zero _)
  | fuel + 1, done, rest, db, h, hfuel => by
    rw [rollbackTransferPages]
    simp only [selectTransfersFromBlock_drop h, List.length_take]
    by_cases hshort : rest.length < rollbackTransferPageSize
    · rw [if_pos (by omega), List.take_of_length_le (Nat.le_of_lt hshort)]
    have hpos : 0 < rollbackTransferPageSize := by decide
    rw [if_neg (by omega)]
    -- the next page starts after the last row of this one
    have hne : rest.take rollbackTransferPageSize ≠ [] := by
      intro hnil
      have := congrArg List.length hnil
      rw [List.length_take, List.length_nil] at this
      omega
    have hlast : (rest.take rollbackTransferPageSize).getLast? =
        (done ++ rest.take rollbackTransferPageSize).getLast? := by
      rw [List.getLast?_append_of_ne_nil _ hne]
    have hsplit : transfersFromBlock
        ((rest.take rollbackTransferPageSize).foldl reverseTransfer db).transfers fromBlock =
        (done ++ rest.take rollbackTransferPageSize) ++ rest.drop rollbackTransferPageSize := by
      rw [foldl_reverseTransfer_eq, List.append_assoc, List.take_append_drop]
      exact h
    rw [hlast, rollbackTransferPages_rest fuel _ _ _ hsplit (by rw [List.length_drop]; omega),
      ← List.foldl_append, List.take_append_drop]

/-- **Paging reverses every transfer at or above the block once, newest first.** -/
theorem rollbackTransferPages_eq (fromBlock : Nat) (db : Db) :
    rollbackTransferPages fromBlock (db.transfers.rows.length + 1) none db =
      (transfersFromBlock db.transfers fromBlock).foldl reverseTransfer db := by
  refine rollbackTransferPages_rest _ [] _ db rfl ?_
  rw [transfersFromBlock_perm.length_eq]
  exact Nat.lt_succ_of_le (List.length_filter_le _ _)

/-! ## 3. The transaction -/

abbrev CheckpointTable := Table OwnershipCheckpointRow.key

/-- `upsertOwnershipCheckpoint`: the row takes the anchor its collection has now. -/
def upsertOwnershipCheckpoint (collections : Table CollectionRecord.id) (block : SyncBlockHeader)
    (checkpoints : CheckpointTable) (read : Erc721OwnerRead) : CheckpointTable :=
  match collections.get? read.token.collectionId with
  | none => checkpoints
  | some c =>
    checkpoints.upsert
      ⟨read.token.collectionId, read.token.contract, read.token.tokenId, read.owner, block.number,
        block.hash, block.timestamp, c.bootstrapAnchorBlock⟩
      (fun stored =>
        { stored with
          contract := read.token.contract, owner := read.owner, blockNumber := block.number,
          blockHash := block.hash, blockTimestamp := block.timestamp,
          bootstrapAnchorBlock := c.bootstrapAnchorBlock })
      (fun _ => rfl)

/-- The ownership that a snapshot of the fork block proves. -/
def Erc721OwnerRead.ownership (read : Erc721OwnerRead) (block : SyncBlockHeader) :
    Erc721OwnershipState :=
  ⟨read.owner, ⟨block.number, block.hash, block.timestamp, zeroHash, 0⟩⟩

def restoreBalance (block : SyncBlockHeader) (balances : BalanceTable) (read : Erc721OwnerRead) :
    BalanceTable :=
  replaceErc721Ownership balances read.token.collectionId read.token.contract read.token.tokenId
    (read.ownership block)

/-- One iteration of the loop over `snapshot.owners`. -/
def restoreOwner (block : SyncBlockHeader) (read : Erc721OwnerRead) : StoreM Unit := do
  Tx.throwIf (read.owner = some zeroAddress) (.error "ERC721 ownerOf returned an invalid owner")
  let db ← get
  set { db with
    ownershipCheckpoints :=
      upsertOwnershipCheckpoint db.collections block db.ownershipCheckpoints read
    balances := restoreBalance block db.balances read }

/-- The order is attributed to a block of the window; a source cancellation is definitive. -/
def isOrphanOrder (fromBlock : Nat) (o : OrderRow) : Bool :=
  o.blockNumber.any (fun n => decide (fromBlock ≤ n)) && decide (o.sourceStatus ≠ .cancelled)

/-- The `DELETE` statements of `rollbackFromBlock`, with the rows their foreign keys take along. -/
def deleteFromBlock (fromBlock : Nat) (db : Db) : Db :=
  { db with
    transfers := db.transfers.deleteWhere (fun r => fromBlock ≤ r.event.blockNumber)
    fillExecutions := db.fillExecutions.deleteWhere (fun r => fromBlock ≤ r.blockNumber)
    fills := db.fills.deleteWhere (fun r =>
      (db.fillExecutions.get? r.executionId).any (fun x => decide (fromBlock ≤ x.blockNumber)))
    extensionEvents := db.extensionEvents.deleteWhere (fun r => fromBlock ≤ r.event.blockNumber)
    eventMedia := db.eventMedia.deleteWhere (fun r => fromBlock ≤ r.media.blockNumber)
    orders := db.orders.deleteWhere (isOrphanOrder fromBlock)
    demands := db.demands.deleteWhere (fun d =>
      (db.orders.get? d.orderId).any (isOrphanOrder fromBlock))
    transactions := db.transactions.deleteWhere (fun r => fromBlock ≤ r.record.blockNumber)
    coverage := db.coverage.deleteWhere (fun r => fromBlock ≤ r.blockNumber)
    blocks := db.blocks.deleteWhere (fun r => fromBlock ≤ r.number)
    outbox := db.outbox.deleteWhere (fun r =>
      r.syncBlockNumber.any (fun n => decide (fromBlock ≤ n))) }

def advanceChainSyncRevision (db : Db) : Db := { db with revision := db.revision + 1 }

def rollbackFromBlock (plan : ReorgRollbackPlan) (snapshot : Erc721RollbackSnapshot) :
    StoreM Unit :=
  Tx.writeTransaction do
    assertSyncCheckpoint plan.checkpoint
    -- bootstrap can change while ownership RPC is in flight
    assertRollbackPreservesAnchors plan.fromBlock
    Tx.throwIf (snapshot.block.number + 1 ≠ plan.fromBlock)
      (.chainSyncConflict "Rollback ownership snapshot has the wrong block")
    let db ← get
    Tx.throwIf (∃ h ∈ getBlockHash db snapshot.block.number, h ≠ snapshot.block.hash)
      (.chainSyncConflict "Rollback fork no longer matches persisted history")
    Tx.check (assertSameErc721Tokens plan.tokens (selectRollbackTokens db plan.fromBlock))
    Tx.check (assertSameErc721Tokens plan.tokens (snapshot.owners.map (·.token)))
    modify (fun db =>
      rollbackTransferPages plan.fromBlock (db.transfers.rows.length + 1) none db)
    snapshot.owners.forM (restoreOwner snapshot.block)
    modify (deleteFromBlock plan.fromBlock)
    -- retain the verified fork header, so later checks can invalidate this checkpoint
    modify (fun db => { db with blocks := persistBlocks none [snapshot.block] db.blocks })
    modify advanceChainSyncRevision

/-! ## 4. Its effect -/

/-- What a rollback that returned did. -/
structure RollbackEffect (plan : ReorgRollbackPlan) (snapshot : Erc721RollbackSnapshot)
    (db db' : Db) : Prop where
  revision_current : db.revision = plan.checkpoint.revision
  anchors : AnchorsBelow db plan.fromBlock
  fork_number : snapshot.block.number + 1 = plan.fromBlock
  fork_hash : ∀ h, getBlockHash db snapshot.block.number = some h → h = snapshot.block.hash
  scope : (snapshot.owners.map (·.token)).Perm (selectRollbackTokens db plan.fromBlock)
  scope_nodup : (snapshot.owners.map (fun o => (o.token.collectionId, o.token.tokenId))).Nodup
  owners_valid : ∀ o ∈ snapshot.owners, o.owner ≠ some zeroAddress
  revision : db'.revision = db.revision + 1
  blocks : db'.blocks =
    persistBlocks none [snapshot.block] (db.blocks.deleteWhere (fun r => plan.fromBlock ≤ r.number))
  balances : db'.balances =
    snapshot.owners.foldl (restoreBalance snapshot.block)
      ((transfersFromBlock db.transfers plan.fromBlock).foldl reverseBalances db.balances)
  ownershipCheckpoints : db'.ownershipCheckpoints =
    snapshot.owners.foldl (upsertOwnershipCheckpoint db.collections snapshot.block)
      db.ownershipCheckpoints
  facts : db' =
    { deleteFromBlock plan.fromBlock
        { db with
          orders := (transfersFromBlock db.transfers plan.fromBlock).foldl
            resetOrderFromTransfer db.orders } with
      revision := db'.revision, blocks := db'.blocks, balances := db'.balances,
      ownershipCheckpoints := db'.ownershipCheckpoints }

theorem restoreOwners_eq {block : SyncBlockHeader} :
    ∀ {owners : List Erc721OwnerRead} {db db' : Db} {u : Unit},
      Tx.Returns (owners.forM (restoreOwner block)) db u db' →
      (∀ o ∈ owners, o.owner ≠ some zeroAddress) ∧
        db' =
          { db with
            ownershipCheckpoints :=
              owners.foldl (upsertOwnershipCheckpoint db.collections block) db.ownershipCheckpoints
            balances := owners.foldl (restoreBalance block) db.balances }
  | [], db, db', u, h => by
    rw [Tx.returns_forM_nil] at h
    subst h
    exact ⟨by simp, rfl⟩
  | o :: rest, db, db', u, h => by
    obtain ⟨v, db₁, ho, hrest⟩ := Tx.returns_forM_cons.mp h
    simp only [restoreOwner, Tx.returns_bind, Tx.returns_throwIf, Tx.returns_get,
      Tx.returns_set] at ho
    obtain ⟨_, _, ⟨hvalid, rfl⟩, _, _, ⟨rfl, rfl⟩, rfl⟩ := ho
    obtain ⟨hvalids, rfl⟩ := restoreOwners_eq hrest
    refine ⟨?_, rfl⟩
    intro p hp
    rcases List.mem_cons.mp hp with rfl | hp
    · exact hvalid
    · exact hvalids p hp

theorem returns_assertRollbackPreservesAnchors {fromBlock : Nat} {db db' : Db} {u : Unit}
    (h : Tx.Returns (assertRollbackPreservesAnchors fromBlock) db u db') :
    db = db' ∧ AnchorsBelow db fromBlock := by
  simp only [assertRollbackPreservesAnchors, Tx.returns_bind, Tx.returns_get,
    Tx.returns_throwIf] at h
  obtain ⟨_, _, ⟨rfl, rfl⟩, hcan, rfl⟩ := h
  exact ⟨rfl, canRollbackFromBlock_maxAnchor (by simpa using hcan)⟩

theorem rollbackFromBlock_effect {plan : ReorgRollbackPlan} {snapshot : Erc721RollbackSnapshot}
    {db db' : Db} {u : Unit} (h : Tx.Returns (rollbackFromBlock plan snapshot) db u db') :
    RollbackEffect plan snapshot db db' := by
  simp only [rollbackFromBlock, Tx.returns_writeTransaction, Tx.returns_bind, Tx.returns_check,
    returns_assertSyncCheckpoint, Tx.returns_throwIf, Tx.returns_get, Tx.returns_modify] at h
  obtain ⟨_, _, ⟨hrev, rfl⟩, _, db₁, hanchor, _, _, ⟨hnum, rfl⟩, _, _, ⟨rfl, rfl⟩, _, _, ⟨hfork, rfl⟩, _, _,
    ⟨hscope, rfl⟩, _, _, ⟨howners, rfl⟩, _, _, rfl, _, db₂, hrestore, _, _, rfl, _, _, rfl, rfl⟩ := h
  obtain ⟨rfl, hbelow⟩ := returns_assertRollbackPreservesAnchors hanchor
  rw [rollbackTransferPages_eq, foldl_reverseTransfer_eq] at hrestore
  obtain ⟨hvalid, rfl⟩ := restoreOwners_eq hrestore
  obtain ⟨hperm, hnodup⟩ := assertSameErc721Tokens_perm hscope
  obtain ⟨hperm', -⟩ := assertSameErc721Tokens_perm howners
  rw [not_not] at hnum
  exact
    { revision_current := hrev
      anchors := hbelow
      fork_number := hnum
      fork_hash := by
        intro x hx
        by_contra hne
        exact hfork ⟨x, hx, hne⟩
      scope := hperm'.trans hperm.symm
      scope_nodup := by
        have hmap := hperm'.map (fun t : Erc721TokenReference => (t.collectionId, t.tokenId))
        rw [List.map_map] at hmap
        exact hmap.nodup_iff.mpr hnodup
      owners_valid := hvalid
      revision := rfl
      blocks := rfl
      balances := rfl
      ownershipCheckpoints := rfl
      facts := rfl }

end Artgod.Indexer
