/-
# Persisting one sync result

`SqliteStorage.persistSyncResult`: the transaction that validates a result against the current
revision and the stored headers, then writes headers, coverage, facts and balances.

`persistSyncResult_effect` says once what a call that returned did to every table.  Everything
proved later about commits starts from it.
-/
import Artgod.Indexer.Balances

namespace Artgod.Indexer

open Store

/-! ## 1. The transaction -/

/-- `captureChainSyncCheckpoint`. -/
def captureSyncCheckpoint (db : Db) : ChainSyncCheckpoint := ⟨db.revision⟩

/-- `assertChainSyncCheckpoint`. -/
def assertSyncCheckpoint (checkpoint : ChainSyncCheckpoint) : StoreM Unit := do
  let db ← get
  Tx.throwIf ((captureSyncCheckpoint db).revision ≠ checkpoint.revision)
    (.chainSyncConflict "Work predates a committed chain rollback")

def getBlockHash (db : Db) (blockNumber : Nat) : Option Hash :=
  (db.blocks.get? blockNumber).map (·.hash)

/-- The loop that refuses a header which disagrees with the stored one. -/
def assertStoredHash (block : SyncBlockHeader) : StoreM Unit := do
  let db ← get
  match getBlockHash db block.number with
  | some storedHash =>
    Tx.throwIf (storedHash ≠ block.hash)
      (.storedBlockHashConflict block.number storedHash block.hash)
  | none => pure ()

/-- The statement of `persistCollectionSyncBlocks`; a row needs its collection. -/
def persistCoverage (headers : List SyncBlockHeader) (collections : List CollectionRecord) :
    StoreM Unit := do
  let db ← get
  Tx.throwIf (headers ≠ [] ∧ ∃ c ∈ collections, db.collections.has c.id = false)
    (.sqliteConstraint "FOREIGN KEY constraint failed")
  set { db with coverage := persistCollectionSyncBlocks headers collections db.coverage }

/-- `currentStateCollections.get(event.collectionId)?.canProjectCurrentStateAt(..)`: the anchor
is the one the acquisition loaded, and a map built from a list keeps the last entry. -/
def projectsCurrentState (collections : List CollectionRecord) (event : NftTransferEvent) : Bool :=
  (collections.reverse.find? (fun c => c.id = event.collectionId)).any
    (·.canProjectCurrentStateAt event.blockNumber)

def persistSyncResult (result : SyncRangeResult) : StoreM Unit := do
  Tx.check (assertCanonicalCheckPolicy result.canonicalCheck)
  Tx.writeTransaction do
    assertSyncCheckpoint result.checkpoint
    Tx.check (assertSyncResultMatchesBlocks result.blocks result.data)
    result.blocks.forM assertStoredHash
    modify (fun db =>
      { db with blocks := persistBlocks (some result.canonicalCheck) result.blocks db.blocks })
    persistCoverage result.blocks result.collections
    persistTransactions result.blocks result.data.transactions
    let inserted ← persistTransfers result.blocks result.data
    persistFills result.blocks result.data
    persistCollectionExtensionEvents result.blocks result.data
    persistCollectionExtensionEventMedia result.blocks result.data
    applyBalanceUpdatesFromEvents result.blocks
      (inserted.filter (projectsCurrentState result.collections))

/-! ## 2. Its effect -/

/-- A stored header of the same height has the same hash. -/
def NoHashConflict (db : Db) (headers : List SyncBlockHeader) : Prop :=
  ∀ b ∈ headers, ∀ h, getBlockHash db b.number = some h → h = b.hash

/-- What a call of `persistSyncResult` that returned did. -/
structure PersistEffect (result : SyncRangeResult) (db db' : Db) : Prop where
  revision_current : db.revision = result.checkpoint.revision
  policy_valid : assertCanonicalCheckPolicy result.canonicalCheck = .ok ()
  matched : ResultMatches result.blocks result.data
  no_conflict : NoHashConflict db result.blocks
  blocks : db'.blocks = persistBlocks (some result.canonicalCheck) result.blocks db.blocks
  coverage : db'.coverage =
    persistCollectionSyncBlocks result.blocks result.collections db.coverage
  transactions : ∃ inserted, insertFacts result.blocks TransactionRecord.blockNumber
    TransactionRow.mk db.transactions result.data.transactions = .ok (db'.transactions, inserted)
  transfers : ∃ inserted, insertFacts result.blocks NftTransferEvent.blockNumber TransferRow.mk
      db.transfers result.data.nftTransferEvents = .ok (db'.transfers, inserted) ∧
    ProjectsAll db' (inserted.filter (projectsCurrentState result.collections)) db.balances
      db'.balances
  fills : FillsEffect result.data.fillEvents db.fillExecutions db'.fillExecutions db.fills
    db'.fills
  extensionEvents : ∃ inserted, insertFacts result.blocks CollectionExtensionEvent.blockNumber
    ExtensionEventRow.mk db.extensionEvents result.data.collectionExtensionEvents =
      .ok (db'.extensionEvents, inserted)
  eventMedia : upsertAllEventMedia result.blocks db.eventMedia
    result.data.collectionExtensionEventMedia = .ok db'.eventMedia
  rest : db' =
    { db with
      blocks := db'.blocks, coverage := db'.coverage, transactions := db'.transactions,
      transfers := db'.transfers, fillExecutions := db'.fillExecutions, fills := db'.fills,
      extensionEvents := db'.extensionEvents, eventMedia := db'.eventMedia,
      balances := db'.balances }

theorem returns_assertSyncCheckpoint {checkpoint : ChainSyncCheckpoint} {db db' : Db} {u : Unit} :
    Tx.Returns (assertSyncCheckpoint checkpoint) db u db' ↔
      db.revision = checkpoint.revision ∧ db = db' := by
  simp only [assertSyncCheckpoint, Tx.returns_bind, Tx.returns_get, Tx.returns_throwIf, not_not]
  constructor
  · rintro ⟨_, _, ⟨rfl, rfl⟩, h⟩
    exact h
  · intro h
    exact ⟨_, _, ⟨rfl, rfl⟩, h⟩

theorem returns_assertStoredHash {b : SyncBlockHeader} {db db' : Db} {u : Unit}
    (h : Tx.Returns (assertStoredHash b) db u db') :
    db = db' ∧ ∀ x, getBlockHash db b.number = some x → x = b.hash := by
  simp only [assertStoredHash, Tx.returns_bind, Tx.returns_get] at h
  obtain ⟨_, _, ⟨rfl, rfl⟩, h⟩ := h
  split at h
  · next stored hstored =>
    obtain ⟨hsame, rfl⟩ := Tx.returns_throwIf.mp h
    rw [not_not] at hsame
    refine ⟨rfl, ?_⟩
    intro x hx
    rw [hstored, Option.some.injEq] at hx
    exact hx ▸ hsame
  · next hnone =>
    obtain ⟨-, rfl⟩ := Tx.returns_pure.mp h
    exact ⟨rfl, fun x hx => by rw [hnone] at hx; cases hx⟩

theorem returns_assertStoredHashes :
    ∀ {headers : List SyncBlockHeader} {db db' : Db} {u : Unit},
      Tx.Returns (headers.forM assertStoredHash) db u db' → db = db' ∧ NoHashConflict db headers
  | [], db, db', u, h => ⟨Tx.returns_forM_nil.mp h, by simp [NoHashConflict]⟩
  | b :: rest, db, db', u, h => by
    obtain ⟨v, db₁, hb, hrest⟩ := Tx.returns_forM_cons.mp h
    obtain ⟨rfl, hsame⟩ := returns_assertStoredHash hb
    obtain ⟨rfl, hsames⟩ := returns_assertStoredHashes hrest
    refine ⟨rfl, ?_⟩
    intro c hc
    rcases List.mem_cons.mp hc with rfl | hc
    · exact hsame
    · exact hsames c hc

theorem persistSyncResult_effect {result : SyncRangeResult} {db db' : Db} {u : Unit}
    (h : Tx.Returns (persistSyncResult result) db u db') : PersistEffect result db db' := by
  simp only [persistSyncResult, Tx.returns_bind, Tx.returns_check, Tx.returns_writeTransaction,
    returns_assertSyncCheckpoint, Tx.returns_modify, persistCoverage, persistTransactions,
    persistTransfers, persistCollectionExtensionEvents, persistCollectionExtensionEventMedia,
    Tx.returns_get, Tx.returns_throwIf, Tx.returns_set, Tx.returns_pure] at h
  obtain ⟨_, _, ⟨hpolicy, rfl⟩, _, _, ⟨hrev, rfl⟩, _, _, ⟨hmatch, rfl⟩, _, db₁, hhash, _, db₂, hblocks,
    _, db₃, ⟨_, _, ⟨rfl, rfl⟩, _, _, ⟨-, rfl⟩, hcov⟩, _, db₄, ⟨_, _, ⟨rfl, rfl⟩, txOut, _, ⟨htx, rfl⟩, htx'⟩,
    inserted, db₅, ⟨_, _, ⟨rfl, rfl⟩, trOut, _, ⟨htr, rfl⟩, _, db₅', htr', hins, rfl⟩, _, db₆, hfills,
    _, db₇, ⟨_, _, ⟨rfl, rfl⟩, exOut, _, ⟨hex, rfl⟩, hex'⟩, _, db₈, ⟨_, _, ⟨rfl, rfl⟩, media, _, ⟨hmedia, rfl⟩,
    hmedia'⟩, hbal⟩ := h
  obtain ⟨rfl, hsame⟩ := returns_assertStoredHashes hhash
  subst hblocks hcov htx' htr' hins
  obtain ⟨x', f', rfl, hfe⟩ := persistFills_effect hfills
  subst hex' hmedia'
  obtain ⟨b', rfl, hproj⟩ := applyBalanceUpdatesFromEvents_projects hbal
  exact
    { revision_current := hrev
      policy_valid := hpolicy
      matched := assertSyncResultMatchesBlocks_ok hmatch
      no_conflict := hsame
      blocks := rfl
      coverage := rfl
      transactions := ⟨txOut.2, htx⟩
      transfers := ⟨trOut.2, htr, hproj.congr rfl rfl rfl⟩
      fills := hfe
      extensionEvents := ⟨exOut.2, hex⟩
      eventMedia := hmedia
      rest := rfl }

end Artgod.Indexer
