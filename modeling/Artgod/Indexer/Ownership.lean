/-
# ERC721 ownership does not depend on delivery

Realtime ranges, gap repairs, resyncs and replays commit the transfers of a collection in any order, and
rollbacks in between write ownership checkpoints.  The transfer table holds exactly what was delivered and not
rolled back, and the balance rows of a moved token are those its latest transfer and its checkpoint resolve to.
-/
import Artgod.Indexer.Commit

namespace Artgod.Indexer

open Store

/-! ## 1. The latest stored transfer -/

/-- The order `(block, logIndex)` of the chain. -/
def NftTransferEvent.position (e : NftTransferEvent) : Nat ×ₗ Nat :=
  toLex (e.blockNumber, e.logIndex)

/-- The transfer is one of the token. -/
def TransferRow.IsOf (r : TransferRow) (c : CollectionId) (tokenId : TokenId) : Prop :=
  r.event.collectionId = c ∧ r.event.tokenId = tokenId

variable {c : CollectionId} {db db' : Db} {tokenId : TokenId} {anchor : Nat} {e : NftTransferEvent}
  {balances : BalanceTable} {state : Erc721OwnershipState} {transfers : Table TransferRow.key}
  {contract : Address} {result : SyncRangeResult} {delivered : List NftTransferEvent}

variable {latest r : TransferRow} {owner : Address} {k : BalanceKey} {context : BalanceContext}
  {collections : Table CollectionRecord.id} {block : SyncBlockHeader}
  {checkpoints : CheckpointTable} {read : Erc721OwnerRead} {w w' : DeliveryWorld}

theorem selectLatestTransfer_some (h : selectLatestTransfer transfers c tokenId = some r) :
    r ∈ transfers ∧ r.IsOf c tokenId ∧ ∀ s ∈ transfers, s.IsOf c tokenId → s.position ≤ r.position := by
  obtain ⟨hmem, hmax, -⟩ := List.mem_argmax_iff.mp (Option.mem_def.mpr h)
  rw [Table.mem_select] at hmem
  obtain ⟨hr, hof⟩ := hmem
  refine ⟨hr, by simpa [TransferRow.IsOf] using hof, fun s hs hsof => ?_⟩
  exact hmax s (Table.mem_select.mpr ⟨hs, by simp [hsof.1, hsof.2]⟩)

theorem exists_selectLatestTransfer {s : TransferRow} (hs : s ∈ transfers) (hof : s.IsOf c tokenId) :
    ∃ r, selectLatestTransfer transfers c tokenId = some r := by
  rw [← Option.isSome_iff_exists, Option.isSome_iff_ne_none]
  intro hnone
  rw [selectLatestTransfer, List.argmax_eq_none] at hnone
  have hmem : s ∈ transfers.select (fun r => r.event.collectionId = c && r.event.tokenId = tokenId) :=
    Table.mem_select.mpr ⟨hs, by simp [hof.1, hof.2]⟩
  rw [hnone] at hmem
  exact absurd hmem (by simp)

/-- Two stored transfers of one token never share a place on the chain. -/
def DistinctPositions (transfers : Table TransferRow.key) (c : CollectionId) : Prop :=
  ∀ r ∈ transfers, ∀ s ∈ transfers, r.event.collectionId = c → s.event.collectionId = c →
    r.position = s.position → r = s

theorem selectLatestTransfer_eq (hdistinct : DistinctPositions transfers c)
    (hr : r ∈ transfers) (hof : r.IsOf c tokenId)
    (hmax : ∀ s ∈ transfers, s.IsOf c tokenId → s.position ≤ r.position) :
    selectLatestTransfer transfers c tokenId = some r := by
  obtain ⟨r', hr'⟩ := exists_selectLatestTransfer hr hof
  obtain ⟨hmem, hof', hmax'⟩ := selectLatestTransfer_some hr'
  have hpos : r'.position = r.position := le_antisymm (hmax r' hmem hof') (hmax' r hr hof)
  rw [hr', hdistinct r' hmem r hr hof'.1 hof.1 hpos]

/-! ## 2. Balance rows of one token -/

/-- The owner of the token is the one the state names, and no other row of the token exists. -/
def OwnedAs (balances : BalanceTable) (c : CollectionId) (tokenId : TokenId)
    (state : Erc721OwnershipState) : Prop :=
  ∀ owner, (balances.get? ⟨c, tokenId, owner⟩).isSome = true ↔ state.owner = some owner

/-- The ownership that the stored facts of a token resolve to. -/
def resolveOwnership (db : Db) (c : CollectionId) (tokenId : TokenId) :
    Except SyncError Erc721OwnershipState :=
  resolveErc721Ownership ((selectLatestTransfer db.transfers c tokenId).map TransferRow.ownership)
    ((selectOwnershipCheckpoint db c tokenId).map OwnershipCheckpointRow.ownership)

theorem OwnedAs.congr {balances' : BalanceTable}
    (h : OwnedAs balances c tokenId state)
    (hsame : ∀ owner, balances'.get? ⟨c, tokenId, owner⟩ = balances.get? ⟨c, tokenId, owner⟩) :
    OwnedAs balances' c tokenId state := fun owner => by
  rw [hsame owner]
  exact h owner

theorem ownedAs_replaceErc721Ownership :
    OwnedAs (replaceErc721Ownership balances c contract tokenId state) c tokenId state := by
  intro owner
  rw [get?_replaceErc721Ownership, if_pos ⟨rfl, rfl⟩]
  split
  · next h => simp [h]
  · next h => simp [h]

theorem get?_replaceErc721Ownership_of_ne {c' : CollectionId}
    {tokenId' : TokenId}
    (hne : ¬ (c' = c ∧ tokenId' = tokenId)) :
    (replaceErc721Ownership balances c contract tokenId state).get? ⟨c', tokenId', owner⟩ =
      balances.get? ⟨c', tokenId', owner⟩ := by
  rw [get?_replaceErc721Ownership, if_neg hne]

theorem get?_applyBalanceDelta_of_ne {k' : BalanceKey}
    {delta : Int} (hne : k ≠ k') :
    (applyBalanceDelta balances k contract delta context).get? k' = balances.get? k' := by
  simp only [applyBalanceDelta]
  split
  · rw [Table.get?_deleteWhere]
    cases hg : balances.get? k' with
    | none => rfl
    | some r =>
      have hr : r.key ≠ k := fun h => hne (h.symm.trans (Table.get?_eq_some.mp hg).2)
      simp [Option.filter_some, hr]
  · rw [upsertBalance, Table.get?_upsert, if_neg hne]

theorem get?_applyErc1155Transfer_of_ne {src dst : Address} {amount : Nat}
    (hne : c ≠ k.collectionId) :
    (applyErc1155Transfer balances c contract tokenId src dst amount context).get? k = balances.get? k := by
  have hkey : ∀ owner, (⟨c, tokenId, owner⟩ : BalanceKey) ≠ k := by
    rintro owner rfl
    exact hne rfl
  have hdebit : (if src ≠ zeroAddress then
      applyBalanceDelta balances ⟨c, tokenId, src⟩ contract (-amount) context
      else balances).get? k = balances.get? k := by
    split
    · exact get?_applyBalanceDelta_of_ne (hkey src)
    · rfl
  simp only [applyErc1155Transfer]
  split
  · rw [get?_applyBalanceDelta_of_ne (hkey dst), hdebit]
  · exact hdebit

/-- The owners with a balance row of the token. -/
def ownersOf (db : Db) (c : CollectionId) (tokenId : TokenId) : List Address :=
  (db.balances.select (fun r => r.key.collectionId = c && r.key.tokenId = tokenId)).map (·.key.owner)

theorem OwnedAs.ownersOf (h : OwnedAs db.balances c tokenId state) :
    ownersOf db c tokenId = state.owner.toList := by
  have hmem : ∀ owner, owner ∈ Indexer.ownersOf db c tokenId ↔ state.owner = some owner := by
    intro owner
    rw [← h owner, ← Table.has, Table.has_iff]
    simp only [Indexer.ownersOf, List.mem_map, Table.mem_select, Bool.and_eq_true,
      decide_eq_true_eq]
    constructor
    · rintro ⟨r, ⟨hr, hc, ht⟩, rfl⟩
      exact ⟨r, hr, by rw [← hc, ← ht]⟩
    · rintro ⟨r, hr, hkey⟩
      exact ⟨r, ⟨hr, by rw [hkey], by rw [hkey]⟩, by rw [hkey]⟩
  have hnodup : (Indexer.ownersOf db c tokenId).Nodup := by
    refine List.Nodup.map_on ?_ (db.balances.select_nodup _)
    intro r hr s hs howner
    simp only [Table.mem_select, Bool.and_eq_true, decide_eq_true_eq] at hr hs
    refine Table.eq_of_key_eq hr.1 hs.1 ?_
    have hcoll : r.key.collectionId = s.key.collectionId := hr.2.1.trans hs.2.1.symm
    have htoken : r.key.tokenId = s.key.tokenId := hr.2.2.trans hs.2.2.symm
    cases hrk : r.key
    cases hsk : s.key
    simp_all
  cases ho : state.owner with
  | none =>
    refine List.eq_nil_iff_forall_not_mem.mpr (fun owner hown => ?_)
    rw [hmem, ho] at hown
    cases hown
  | some owner =>
    refine List.perm_singleton.mp ((List.perm_ext_iff_of_nodup hnodup (by simp)).mpr ?_)
    intro x
    rw [hmem, ho, Option.some.injEq, List.mem_singleton]
    exact eq_comm

/-! ## 3. What a commit does to one collection -/

/-- The transfers of the collection that a result carries. -/
def SyncRangeResult.transfersOf (result : SyncRangeResult) (c : CollectionId) : List NftTransferEvent :=
  result.data.nftTransferEvents.filter (fun e => e.collectionId = c)

/-- The result was acquired under the anchor, and lists the collection if it carries its logs. -/
structure SyncRangeResult.AcquiredUnder (result : SyncRangeResult) (c : CollectionId)
    (anchor : Nat) : Prop where
  listed : result.transfersOf c ≠ [] → ∃ r ∈ result.collections, r.id = c
  anchored : ∀ r ∈ result.collections, r.id = c → r.bootstrapAnchorBlock = some anchor

/-- ERC721 logs of one chain: a log has one place in it, and a transaction one block. -/
structure OneHistory (events : List NftTransferEvent) : Prop where
  erc721 : ∀ e ∈ events, e.kind = .erc721
  position : ∀ e ∈ events, ∀ e' ∈ events, e.position = e'.position → e = e'
  log : ∀ e ∈ events, ∀ e' ∈ events, e.txHash = e'.txHash → e.logIndex = e'.logIndex → e = e'

theorem OneHistory.subset {events events' : List NftTransferEvent} (h : OneHistory events)
    (hsub : ∀ e ∈ events', e ∈ events) : OneHistory events' where
  erc721 e he := h.erc721 e (hsub e he)
  position e he e' he' := h.position e (hsub e he) e' (hsub e' he')
  log e he e' he' := h.log e (hsub e he) e' (hsub e' he')

theorem SyncRangeResult.AcquiredUnder.projects (h : result.AcquiredUnder c anchor)
    (he : e ∈ result.transfersOf c) (habove : anchor < e.blockNumber) :
    projectsCurrentState result.collections e = true := by
  have hc : e.collectionId = c := by simpa using (List.mem_filter.mp he).2
  obtain ⟨r, hr, hid⟩ := h.listed (List.ne_nil_of_mem he)
  rw [projectsCurrentState]
  cases hfind : result.collections.reverse.find? (fun c => c.id = e.collectionId) with
  | none =>
    rw [List.find?_eq_none] at hfind
    exact absurd (hid.trans hc.symm) (by simpa using hfind r (List.mem_reverse.mpr hr))
  | some r' =>
    have hr' : r' ∈ result.collections := List.mem_reverse.mp (List.mem_of_find?_eq_some hfind)
    have hid' : r'.id = c := by
      have := List.find?_some hfind
      rw [decide_eq_true_eq] at this
      exact this.trans hc
    rw [Option.any_some, CollectionRecord.canProjectCurrentStateAt_iff]
    exact ⟨anchor, h.anchored r' hr' hid', habove⟩

theorem ProjectsAll.ownedAs (hstate : resolveOwnership db c tokenId = .ok state) :
    ∀ {events : List NftTransferEvent} {b b' : BalanceTable}, ProjectsAll db events b b' →
      (∀ e ∈ events, e.collectionId = c → e.kind = .erc721) →
      OwnedAs b c tokenId state ∨ (∃ e ∈ events, e.collectionId = c ∧ e.tokenId = tokenId) →
      OwnedAs b' c tokenId state
  | [], _, _, .nil _, _, h => h.resolve_right (by simp)
  | event :: rest, b, b', @ProjectsAll.cons _ _ _ _ b₁ _ head tail, hkind, h => by
    refine tail.ownedAs hstate (fun e he => hkind e (List.mem_cons_of_mem _ he)) ?_
    by_cases hof : event.collectionId = c ∧ event.tokenId = tokenId
    · -- the head moves the token: it leaves the resolved owner, whatever was there
      cases head with
      | erc721 state' _ hstate' hafter =>
        rw [hof.1, hof.2] at hstate' hafter
        rw [resolveOwnership, hstate', Except.ok.injEq] at hstate
        rw [hafter, hstate]
        exact Or.inl ownedAs_replaceErc721Ownership
      | erc1155 context hkind' _ _ =>
        rw [hkind event (by simp) hof.1] at hkind'
        cases hkind'
    · have hkeep : OwnedAs b c tokenId state → OwnedAs b₁ c tokenId state := by
        intro hb
        refine hb.congr (fun owner => ?_)
        cases head with
        | erc721 state' _ _ hafter =>
          rw [hafter]
          exact get?_replaceErc721Ownership_of_ne (fun h => hof ⟨h.1.symm, h.2.symm⟩)
        | erc1155 context hkind' _ hafter =>
          rw [hafter]
          refine get?_applyErc1155Transfer_of_ne (fun hc => ?_)
          rw [hkind event (by simp) hc] at hkind'
          cases hkind'
      rcases h with h | ⟨e, he, heof⟩
      · exact Or.inl (hkeep h)
      · rcases List.mem_cons.mp he with rfl | he
        · exact absurd heof hof
        · exact Or.inr ⟨e, he, heof⟩

/-! ## 4. Runs -/

/-- The database, and the transfers of the collection that were delivered and not rolled back. -/
structure DeliveryWorld where
  db : Db
  delivered : List NftTransferEvent

/-- The stored transfers of the collection. -/
def storedTransfers (db : Db) (c : CollectionId) : List NftTransferEvent :=
  (db.transfers.select (fun r => r.event.collectionId = c)).map (·.event)

/-- One transaction that returned.  A commit brings any transfers of the collection, new or
delivered before, that agree with what is delivered; a rollback takes back those at or above its
block; other code leaves the tables that ownership is read from. -/
inductive DeliveryStep (c : CollectionId) (anchor : Nat) (w : DeliveryWorld) :
    DeliveryWorld → Prop
  | commit {input : SyncRangeCommit} {db' : Db} :
      Tx.Returns (commitSyncRange input) w.db () db' →
      input.result.AcquiredUnder c anchor →
      OneHistory (w.delivered ++ input.result.transfersOf c) →
      DeliveryStep c anchor w ⟨db', w.delivered ++ input.result.transfersOf c⟩
  | rollback {input : RollbackCommit} {db' : Db} :
      Tx.Returns (commitRollbackAndResync input) w.db () db' →
      DeliveryStep c anchor w ⟨db', w.delivered.filter (fun e => e.blockNumber < input.plan.fromBlock)⟩
  | other {db' : Db} : db'.transfers = w.db.transfers → db'.balances = w.db.balances →
      db'.ownershipCheckpoints = w.db.ownershipCheckpoints →
      db'.collections = w.db.collections → DeliveryStep c anchor w ⟨db', w.delivered⟩

/-- A run of transactions. -/
inductive DeliveryRun (c : CollectionId) (anchor : Nat) (w : DeliveryWorld) : DeliveryWorld → Prop
  | start : DeliveryRun c anchor w w
  | snoc {w₁ w₂ : DeliveryWorld} : DeliveryRun c anchor w w₁ → DeliveryStep c anchor w₁ w₂ →
      DeliveryRun c anchor w w₂

/-- The collection is an ERC721 collection with this anchor. -/
def AnchoredErc721 (db : Db) (c : CollectionId) (anchor : Nat) : Prop :=
  ∃ r, db.collections.get? c = some r ∧ r.standard = .erc721 ∧ r.bootstrapAnchorBlock = some anchor

/-- A database at the anchor: no transfer above it is stored yet.  Balances and ownership
checkpoints are arbitrary. -/
structure Bootstrapped (c : CollectionId) (anchor : Nat) (db : Db) : Prop where
  collection : AnchoredErc721 db c anchor
  below : ∀ e ∈ storedTransfers db c, e.blockNumber ≤ anchor
  history : OneHistory (storedTransfers db c)

/-- What holds of the collection in every reachable world. -/
structure OwnershipInv (c : CollectionId) (anchor : Nat) (w : DeliveryWorld) : Prop where
  collection : AnchoredErc721 w.db c anchor
  stored : ∀ e, e ∈ storedTransfers w.db c ↔ e ∈ w.delivered
  history : OneHistory w.delivered
  settled : ∀ e ∈ w.delivered, anchor < e.blockNumber →
    ∃ state, resolveOwnership w.db c e.tokenId = .ok state ∧ OwnedAs w.db.balances c e.tokenId state

theorem mem_storedTransfers :
    e ∈ storedTransfers db c ↔ ∃ r ∈ db.transfers, r.event = e ∧ e.collectionId = c := by
  simp only [storedTransfers, List.mem_map, Table.mem_select, decide_eq_true_eq]
  constructor
  · rintro ⟨r, ⟨hr, hc⟩, rfl⟩
    exact ⟨r, hr, rfl, hc⟩
  · rintro ⟨r, hr, rfl, hc⟩
    exact ⟨r, ⟨hr, hc⟩, rfl⟩

theorem storedTransfers_congr
    (h : db'.transfers = db.transfers) : storedTransfers db' c = storedTransfers db c := by
  rw [storedTransfers, storedTransfers, h]

theorem resolveOwnership_congr (hlatest : selectLatestTransfer db'.transfers c tokenId =
      selectLatestTransfer db.transfers c tokenId)
    (hcheckpoint : db'.ownershipCheckpoints.get? (c, tokenId) = db.ownershipCheckpoints.get? (c, tokenId))
    (hcollections : db'.collections = db.collections) :
    resolveOwnership db' c tokenId = resolveOwnership db c tokenId := by
  simp only [resolveOwnership, selectOwnershipCheckpoint, hlatest, hcheckpoint, hcollections]

theorem exists_resolveOwnership
    (he : e ∈ storedTransfers db c) : ∃ state, resolveOwnership db c e.tokenId = .ok state := by
  obtain ⟨r, hr, rfl, hc⟩ := mem_storedTransfers.mp he
  obtain ⟨latest, hlatest⟩ := exists_selectLatestTransfer hr ⟨hc, rfl⟩
  rw [resolveOwnership, hlatest]
  cases selectOwnershipCheckpoint db c r.event.tokenId with
  | none => exact ⟨_, rfl⟩
  | some p =>
    simp only [Option.map_some, resolveErc721Ownership]
    split
    · exact ⟨_, rfl⟩
    · exact ⟨_, rfl⟩

theorem OneHistory.distinctPositions
    (h : OneHistory (storedTransfers db c)) : DistinctPositions db.transfers c := by
  intro r hr s hs hrc hsc hpos
  have hevent : r.event = s.event :=
    h.position r.event (mem_storedTransfers.mpr ⟨r, hr, rfl, hrc⟩) s.event
      (mem_storedTransfers.mpr ⟨s, hs, rfl, hsc⟩) hpos
  exact Table.eq_of_key_eq hr hs (by simp only [TransferRow.key, hevent])

/-! ## 5. Commits -/

theorem PersistEffect.storedTransfers (heff : PersistEffect result db db')
    (hhistory : OneHistory (Indexer.storedTransfers db c ++ result.transfersOf c))
    (e : NftTransferEvent) :
    e ∈ Indexer.storedTransfers db' c ↔ e ∈ Indexer.storedTransfers db c ∨ e ∈ result.transfersOf c := by
  obtain ⟨inserted, hins, -⟩ := heff.transfers
  obtain ⟨hkept, hnew⟩ := insertFacts_mem hins
  have hsound : ∀ r ∈ db'.transfers, r.event.collectionId = c →
      r.event ∈ Indexer.storedTransfers db c ∨ r.event ∈ result.transfersOf c := by
    intro r hr hc
    rcases hnew r hr with hr | ⟨a, -, ha, ts, rfl⟩
    · exact Or.inl (mem_storedTransfers.mpr ⟨r, hr, rfl, hc⟩)
    · exact Or.inr (List.mem_filter.mpr ⟨ha, by simpa using hc⟩)
  constructor
  · intro he
    obtain ⟨r, hr, rfl, hc⟩ := mem_storedTransfers.mp he
    exact hsound r hr hc
  rintro (he | he)
  · obtain ⟨r, hr, rfl, hc⟩ := mem_storedTransfers.mp he
    exact mem_storedTransfers.mpr ⟨r, hkept r hr, rfl, hc⟩
  -- some row has the key of `e`; in one history that row is the row of `e`
  obtain ⟨hmem, hc⟩ := List.mem_filter.mp he
  rw [decide_eq_true_eq] at hc
  obtain ⟨r, hr, hkey⟩ := Table.has_iff.mp (insertFacts_has (fun _ _ _ => rfl) hins e hmem 0)
  simp only [TransferRow.key, NftTransferEvent.key, TransferKey.mk.injEq] at hkey
  obtain ⟨htx, hlog, hcoll, -⟩ := hkey
  have hrc : r.event.collectionId = c := hcoll.trans hc
  have heq : r.event = e :=
    hhistory.log r.event (List.mem_append.mpr (hsound r hr hrc)) e
      (List.mem_append.mpr (Or.inr he)) htx hlog
  exact mem_storedTransfers.mpr ⟨r, hr, heq, hc⟩

theorem NftTransferEvent.position_le_iff {e' : NftTransferEvent} :
    e.position ≤ e'.position ↔ e.blockNumber < e'.blockNumber ∨
        e.blockNumber = e'.blockNumber ∧ e.logIndex ≤ e'.logIndex :=
  Prod.Lex.toLex_le_toLex

theorem selectLatestTransfer_congr {transfers' : Table TransferRow.key}
    (hdistinct : DistinctPositions transfers' c)
    (hlatest : selectLatestTransfer transfers c tokenId = some latest)
    (hkept : latest ∈ transfers')
    (hnew : ∀ s ∈ transfers', s.IsOf c tokenId →
      s ∈ transfers ∨ s.event.blockNumber < latest.event.blockNumber) :
    selectLatestTransfer transfers' c tokenId = selectLatestTransfer transfers c tokenId := by
  obtain ⟨-, hof, hmax⟩ := selectLatestTransfer_some hlatest
  rw [hlatest]
  refine selectLatestTransfer_eq hdistinct hkept hof (fun s hs hsof => ?_)
  rcases hnew s hs hsof with hold | hlt
  · exact hmax s hold hsof
  · exact NftTransferEvent.position_le_iff.mpr (Or.inl hlt)

theorem PersistEffect.resolveOwnership_eq (heff : PersistEffect result db db')
    (hhistory : OneHistory (Indexer.storedTransfers db' c))
    (he : e ∈ Indexer.storedTransfers db c) (habove : anchor < e.blockNumber)
    (hstill : ∀ r ∈ db'.transfers, r.IsOf c e.tokenId → anchor < r.event.blockNumber → r ∈ db.transfers) :
    resolveOwnership db' c e.tokenId = resolveOwnership db c e.tokenId := by
  obtain ⟨inserted, hins, -⟩ := heff.transfers
  obtain ⟨hkept, -⟩ := insertFacts_mem hins
  obtain ⟨r, hr, rfl, hc⟩ := mem_storedTransfers.mp he
  obtain ⟨latest, hlatest⟩ := exists_selectLatestTransfer hr ⟨hc, rfl⟩
  obtain ⟨hmem, -, hmax⟩ := selectLatestTransfer_some hlatest
  have hle : r.event.blockNumber ≤ latest.event.blockNumber := by
    rcases NftTransferEvent.position_le_iff.mp (hmax r hr ⟨hc, rfl⟩) with hlt | ⟨heq, -⟩
    · exact Nat.le_of_lt hlt
    · exact Nat.le_of_eq heq
  refine resolveOwnership_congr ?_ (by rw [heff.rest]) (by rw [heff.rest])
  refine selectLatestTransfer_congr hhistory.distinctPositions hlatest (hkept _ hmem) ?_
  intro s hs hsof
  by_cases hsabove : anchor < s.event.blockNumber
  · exact Or.inl (hstill s hs hsof hsabove)
  · exact Or.inr (by omega)

theorem OwnershipInv.other (h : OwnershipInv c anchor ⟨db, delivered⟩)
    (ht : db'.transfers = db.transfers) (hb : db'.balances = db.balances)
    (hp : db'.ownershipCheckpoints = db.ownershipCheckpoints)
    (hc : db'.collections = db.collections) : OwnershipInv c anchor ⟨db', delivered⟩ where
  collection := by simpa only [AnchoredErc721, hc] using h.collection
  stored e := by
    rw [storedTransfers_congr ht]
    exact h.stored e
  history := h.history
  settled e he habove := by
    obtain ⟨state, hstate, howned⟩ := h.settled e he habove
    refine ⟨state, ?_, by rw [hb]; exact howned⟩
    rw [resolveOwnership_congr (by rw [ht]) (by rw [hp]) hc]
    exact hstate

theorem OwnershipInv.persist
    (h : OwnershipInv c anchor ⟨db, delivered⟩) (heff : PersistEffect result db db')
    (hacquired : result.AcquiredUnder c anchor)
    (hhistory : OneHistory (delivered ++ result.transfersOf c)) :
    OwnershipInv c anchor ⟨db', delivered ++ result.transfersOf c⟩ := by
  have hstored : ∀ e, e ∈ storedTransfers db' c ↔ e ∈ delivered ++ result.transfersOf c := by
    intro e
    have hboth : OneHistory (storedTransfers db c ++ result.transfersOf c) := by
      refine hhistory.subset (fun e he => ?_)
      rw [List.mem_append, h.stored] at he
      exact List.mem_append.mpr he
    rw [heff.storedTransfers hboth, h.stored, List.mem_append]
  have hhistory' : OneHistory (storedTransfers db' c) :=
    hhistory.subset (fun e he => (hstored e).mp he)
  have hcollections : db'.collections = db.collections := by rw [heff.rest]
  refine ⟨by simpa only [AnchoredErc721, hcollections] using h.collection, hstored, hhistory, ?_⟩
  intro e he habove
  obtain ⟨inserted, hins, hproj⟩ := heff.transfers
  obtain ⟨-, hnew⟩ := insertFacts_mem hins
  obtain ⟨hsub, -⟩ := insertFacts_rows hins
  obtain ⟨state, hstate⟩ := exists_resolveOwnership ((hstored e).mpr he)
  have hof : ∀ a ∈ inserted, a.collectionId = c → a ∈ result.transfersOf c := fun a ha hc =>
    List.mem_filter.mpr ⟨hsub.subset ha, by simpa using hc⟩
  refine ⟨state, hstate, hproj.ownedAs hstate ?_ ?_⟩
  · intro a ha hc
    exact hhistory.erc721 a (List.mem_append.mpr (Or.inr (hof a (List.mem_filter.mp ha).1 hc)))
  by_cases hmoved : ∃ a ∈ inserted, a.collectionId = c ∧ a.tokenId = e.tokenId ∧ anchor < a.blockNumber
  · obtain ⟨a, ha, hc, htoken, haabove⟩ := hmoved
    exact Or.inr ⟨a, List.mem_filter.mpr ⟨ha, hacquired.projects (hof a ha hc) haabove⟩, hc, htoken⟩
  left
  have hstill : ∀ r ∈ db'.transfers, r.IsOf c e.tokenId → anchor < r.event.blockNumber →
      r ∈ db.transfers := by
    intro r hr hrof hrabove
    rcases hnew r hr with hold | ⟨a, ha, -, ts, rfl⟩
    · exact hold
    · exact absurd ⟨a, ha, hrof.1, hrof.2, hrabove⟩ hmoved
  have he' : e ∈ storedTransfers db c := by
    obtain ⟨r, hr, rfl, hc⟩ := mem_storedTransfers.mp ((hstored e).mpr he)
    exact mem_storedTransfers.mpr ⟨r, hstill r hr ⟨hc, rfl⟩ habove, rfl, hc⟩
  obtain ⟨state', hstate', howned⟩ := h.settled e ((h.stored e).mp he') habove
  have hsame : state' = state := by
    rw [heff.resolveOwnership_eq hhistory' he' habove hstill] at hstate
    rw [hstate] at hstate'
    exact (Except.ok.inj hstate').symm
  rw [← hsame]
  exact howned

/-! ## 6. Rollbacks -/

theorem get?_reverseBalances : ∀ {rows : List TransferRow} {balances : BalanceTable},
      (∀ r ∈ rows, r.event.collectionId = c → r.event.kind = .erc721) →
      (rows.foldl reverseBalances balances).get? ⟨c, tokenId, owner⟩ = balances.get? ⟨c, tokenId, owner⟩
  | [], _, _ => rfl
  | r :: rest, balances, h => by
    rw [List.foldl_cons, get?_reverseBalances (fun s hs => h s (List.mem_cons_of_mem _ hs))]
    rw [reverseBalances]
    split
    · next hkind =>
      refine get?_applyErc1155Transfer_of_ne (fun hc => ?_)
      rw [h r (by simp) hc] at hkind
      cases hkind
    · rfl

/-- The snapshot reads the token. -/
def Erc721OwnerRead.IsOf (read : Erc721OwnerRead) (c : CollectionId) (tokenId : TokenId) : Prop :=
  read.token.collectionId = c ∧ read.token.tokenId = tokenId

theorem get?_upsertOwnershipCheckpoint_of_ne (hne : ¬ read.IsOf c tokenId) :
    (upsertOwnershipCheckpoint collections block checkpoints read).get? (c, tokenId) =
      checkpoints.get? (c, tokenId) := by
  rw [upsertOwnershipCheckpoint]
  split
  · rfl
  · exact Table.get?_upsert.trans (if_neg (fun hkey => hne (Prod.mk.inj hkey)))

theorem get?_upsertOwnershipCheckpoint
    {record : CollectionRecord} (hrecord : collections.get? read.token.collectionId = some record) :
    ∃ p : OwnershipCheckpointRow, (upsertOwnershipCheckpoint collections block checkpoints read).get?
        (read.token.collectionId, read.token.tokenId) = some p ∧
      p.bootstrapAnchorBlock = record.bootstrapAnchorBlock ∧
      p.ownership = read.ownership block := by
  rw [upsertOwnershipCheckpoint, hrecord]
  refine ⟨_, Table.get?_upsert.trans (if_pos rfl), ?_⟩
  cases checkpoints.get? (read.token.collectionId, read.token.tokenId) with
  | none => exact ⟨rfl, rfl⟩
  | some p => exact ⟨rfl, rfl⟩

theorem restore_of_not_read {block : SyncBlockHeader} {c : CollectionId} {tokenId : TokenId}
    {collections : Table CollectionRecord.id} :
    ∀ {owners : List Erc721OwnerRead} {balances : BalanceTable} {checkpoints : CheckpointTable},
      (∀ read ∈ owners, ¬ read.IsOf c tokenId) →
      (∀ owner, (owners.foldl (restoreBalance block) balances).get? ⟨c, tokenId, owner⟩ =
          balances.get? ⟨c, tokenId, owner⟩) ∧
        (owners.foldl (upsertOwnershipCheckpoint collections block) checkpoints).get? (c, tokenId) =
          checkpoints.get? (c, tokenId)
  | [], _, _, _ => ⟨fun _ => rfl, rfl⟩
  | read :: rest, balances, checkpoints, h => by
    have hread : ¬ read.IsOf c tokenId := h read (by simp)
    obtain ⟨hb, hp⟩ := @restore_of_not_read block c tokenId collections rest
      (restoreBalance block balances read)
      (upsertOwnershipCheckpoint collections block checkpoints read)
      (fun s hs => h s (List.mem_cons_of_mem _ hs))
    refine ⟨fun owner => ?_, ?_⟩
    · rw [List.foldl_cons, hb]
      exact get?_replaceErc721Ownership_of_ne (fun heq => hread ⟨heq.1.symm, heq.2.symm⟩)
    · rw [List.foldl_cons, hp, get?_upsertOwnershipCheckpoint_of_ne hread]

theorem restore_of_read {block : SyncBlockHeader} {collections : Table CollectionRecord.id}
    {owners : List Erc721OwnerRead} {balances : BalanceTable} {checkpoints : CheckpointTable}
    {read : Erc721OwnerRead} {record : CollectionRecord}
    (hnodup : (owners.map (fun o => (o.token.collectionId, o.token.tokenId))).Nodup)
    (hread : read ∈ owners) (hrecord : collections.get? read.token.collectionId = some record) :
    OwnedAs (owners.foldl (restoreBalance block) balances) read.token.collectionId
        read.token.tokenId (read.ownership block) ∧
      ∃ p : OwnershipCheckpointRow,
        (owners.foldl (upsertOwnershipCheckpoint collections block) checkpoints).get?
          (read.token.collectionId, read.token.tokenId) = some p ∧
        p.bootstrapAnchorBlock = record.bootstrapAnchorBlock ∧
        p.ownership = read.ownership block := by
  obtain ⟨before, after, rfl⟩ := List.append_of_mem hread
  rw [List.map_append, List.map_cons] at hnodup
  -- the reads after this one are of other tokens
  have hafter : ∀ s ∈ after, ¬ s.IsOf read.token.collectionId read.token.tokenId := by
    intro s hs hof
    refine (List.nodup_cons.mp (List.nodup_append.mp hnodup).2.1).1 ?_
    exact List.mem_map.mpr ⟨s, hs, by rw [hof.1, hof.2]⟩
  rw [List.foldl_append, List.foldl_cons, List.foldl_append, List.foldl_cons]
  obtain ⟨hb, hp⟩ := @restore_of_not_read block _ _ collections after
    (restoreBalance block (before.foldl (restoreBalance block) balances) read)
    (upsertOwnershipCheckpoint collections block
      (before.foldl (upsertOwnershipCheckpoint collections block) checkpoints) read) hafter
  refine ⟨ownedAs_replaceErc721Ownership.congr hb, ?_⟩
  rw [hp]
  exact get?_upsertOwnershipCheckpoint hrecord

theorem mem_selectRollbackTokens {fromBlock : Nat}
    (hanchored : AnchoredErc721 db c anchor)
    (he : e ∈ storedTransfers db c) (hkind : e.kind = .erc721) (hfrom : fromBlock ≤ e.blockNumber) :
    ∃ contract, ⟨c, contract, e.tokenId⟩ ∈ selectRollbackTokens db fromBlock := by
  obtain ⟨record, hrecord, hstandard, hanchor⟩ := hanchored
  obtain ⟨r, hr, rfl, hc⟩ := mem_storedTransfers.mp he
  refine ⟨record.address, List.mem_filterMap.mpr ⟨(c, r.event.tokenId), ?_, ?_⟩⟩
  · rw [List.mem_dedup, List.mem_append, List.mem_append]
    left; left
    rw [List.mem_map]
    exact ⟨r, Table.mem_select.mpr ⟨hr, by simp [hfrom, hkind]⟩, by rw [hc]⟩
  · simp [hrecord, hstandard, hanchor]

theorem resolveOwnership_of_checkpoint {p : OwnershipCheckpointRow}
    (hlatest : selectLatestTransfer db.transfers c tokenId = some latest)
    (hcheckpoint : selectOwnershipCheckpoint db c tokenId = some p)
    (hle : latest.event.blockNumber ≤ p.blockNumber) :
    resolveOwnership db c tokenId = .ok p.ownership := by
  rw [resolveOwnership, hlatest, hcheckpoint]
  exact if_pos hle

theorem OwnershipInv.rollback {plan : ReorgRollbackPlan}
    {snapshot : Erc721RollbackSnapshot}
    (h : OwnershipInv c anchor ⟨db, delivered⟩) (heff : RollbackEffect plan snapshot db db') :
    OwnershipInv c anchor ⟨db', delivered.filter (fun e => e.blockNumber < plan.fromBlock)⟩ := by
  have htransfers : db'.transfers =
      db.transfers.deleteWhere (fun r => plan.fromBlock ≤ r.event.blockNumber) := by
    rw [heff.facts]
    rfl
  have hcollections : db'.collections = db.collections := by
    rw [heff.facts]
    rfl
  have hmem : ∀ r, r ∈ db'.transfers ↔ r ∈ db.transfers ∧ r.event.blockNumber < plan.fromBlock := by
    intro r
    rw [htransfers, Table.mem_deleteWhere]
    simp
  have hstored : ∀ e, e ∈ storedTransfers db' c ↔
      e ∈ delivered.filter (fun e => e.blockNumber < plan.fromBlock) := by
    intro e
    rw [List.mem_filter, ← h.stored, mem_storedTransfers, mem_storedTransfers, decide_eq_true_eq]
    constructor
    · rintro ⟨r, hr, rfl, hc⟩
      exact ⟨⟨r, ((hmem r).mp hr).1, rfl, hc⟩, ((hmem r).mp hr).2⟩
    · rintro ⟨⟨r, hr, rfl, hc⟩, hlt⟩
      exact ⟨r, (hmem r).mpr ⟨hr, hlt⟩, rfl, hc⟩
  have hhistory : OneHistory (delivered.filter (fun e => e.blockNumber < plan.fromBlock)) :=
    h.history.subset (fun e he => (List.mem_filter.mp he).1)
  have hkind : ∀ r ∈ db.transfers, r.event.collectionId = c → r.event.kind = .erc721 :=
    fun r hr hc => h.history.erc721 _ ((h.stored _).mp (mem_storedTransfers.mpr ⟨r, hr, rfl, hc⟩))
  refine ⟨by simpa only [AnchoredErc721, hcollections] using h.collection, hstored, hhistory, ?_⟩
  intro e he habove
  obtain ⟨r, hr, rfl, hc⟩ := mem_storedTransfers.mp ((hstored e).mpr he)
  by_cases hread : ∃ read ∈ snapshot.owners, read.IsOf c r.event.tokenId
  · -- the snapshot is a checkpoint at the fork block, above every transfer that is left
    obtain ⟨read, hreadmem, hreadc, hreadt⟩ := hread
    obtain ⟨record, hrecord, -, -⟩ := h.collection
    subst hreadc
    obtain ⟨howned, p, hp, hanchor, hpown⟩ :=
      @restore_of_read snapshot.block db.collections snapshot.owners
        ((transfersFromBlock db.transfers plan.fromBlock).foldl reverseBalances db.balances)
        db.ownershipCheckpoints read record heff.scope_nodup hreadmem hrecord
    rw [← heff.balances, hreadt] at howned
    rw [← heff.ownershipCheckpoints, hreadt] at hp
    obtain ⟨latest, hlatest⟩ := exists_selectLatestTransfer hr ⟨hc, rfl⟩
    have hlt : latest.event.blockNumber < plan.fromBlock :=
      ((hmem latest).mp (selectLatestTransfer_some hlatest).1).2
    have hpblock : p.blockNumber = snapshot.block.number :=
      congrArg (fun o => o.context.blockNumber) hpown
    have hcheckpoint : selectOwnershipCheckpoint db' read.token.collectionId r.event.tokenId = some p := by
      simp only [selectOwnershipCheckpoint, hp, hcollections, hrecord, if_pos hanchor]
    refine ⟨read.ownership snapshot.block, ?_, howned⟩
    have hfork := heff.fork_number
    rw [resolveOwnership_of_checkpoint hlatest hcheckpoint (by omega), hpown]
  · -- no transfer of the token is in the window, so nothing it is read from changes
    have hnotread : ∀ read ∈ snapshot.owners, ¬ read.IsOf c r.event.tokenId :=
      fun read hmem hof => hread ⟨read, hmem, hof⟩
    obtain ⟨hb, hp⟩ := @restore_of_not_read snapshot.block c r.event.tokenId db.collections snapshot.owners
      ((transfersFromBlock db.transfers plan.fromBlock).foldl reverseBalances db.balances)
      db.ownershipCheckpoints hnotread
    rw [← heff.balances] at hb
    rw [← heff.ownershipCheckpoints] at hp
    obtain ⟨state, hstate, howned⟩ := h.settled r.event (List.mem_filter.mp he).1 habove
    have hwindow : ∀ s ∈ db.transfers, s.IsOf c r.event.tokenId → s.event.blockNumber < plan.fromBlock := by
      intro s hs hsof
      by_contra hge
      obtain ⟨contract, hplan⟩ := mem_selectRollbackTokens h.collection
        (mem_storedTransfers.mpr ⟨s, hs, rfl, hsof.1⟩) (hkind s hs hsof.1) (Nat.le_of_not_lt hge)
      obtain ⟨read, hreadmem, hreadtok⟩ := List.mem_map.mp (heff.scope.mem_iff.mpr hplan)
      exact hread ⟨read, hreadmem, by rw [hreadtok], by rw [hreadtok]; exact hsof.2⟩
    obtain ⟨latest, hlatest⟩ := exists_selectLatestTransfer ((hmem r).mp hr).1 ⟨hc, rfl⟩
    obtain ⟨hlmem, hlof, -⟩ := selectLatestTransfer_some hlatest
    refine ⟨state, ?_, howned.congr (fun owner => ?_)⟩
    · rw [resolveOwnership_congr (selectLatestTransfer_congr ?_ hlatest ?_ ?_) hp hcollections]
      · exact hstate
      · exact (hhistory.subset (fun e he => (hstored e).mp he)).distinctPositions
      · exact (hmem latest).mpr ⟨hlmem, hwindow latest hlmem hlof⟩
      · exact fun s hs _ => Or.inl ((hmem s).mp hs).1
    · rw [hb owner]
      refine get?_reverseBalances (fun s hs hsc => ?_)
      exact hkind s (mem_transfersFromBlock.mp hs).1 hsc

/-! ## 7. Every run -/

theorem Bootstrapped.inv
    (h : Bootstrapped c anchor db) : OwnershipInv c anchor ⟨db, storedTransfers db c⟩ where
  collection := h.collection
  stored _ := Iff.rfl
  history := h.history
  settled e he habove := absurd (h.below e he) (by omega)

theorem DeliveryStep.inv (hstep : DeliveryStep c anchor w w') (h : OwnershipInv c anchor w) :
    OwnershipInv c anchor w' := by
  cases hstep with
  | commit hret hacquired hhistory =>
    obtain ⟨db₁, outbox, scans, recovery, hpersist, rfl⟩ :=
      (commitSyncRange_effect hret).persisted
    exact (h.persist hpersist hacquired hhistory).other rfl rfl rfl rfl
  | rollback hret =>
    obtain ⟨db₁, hroll, hrest⟩ := (commitRollbackAndResync_effect hret).rolled
    rw [hrest]
    exact (h.rollback hroll).other rfl rfl rfl rfl
  | other ht hb hp hc => exact h.other ht hb hp hc

theorem DeliveryRun.inv (hrun : DeliveryRun c anchor w w') (h : OwnershipInv c anchor w) :
    OwnershipInv c anchor w' := by
  induction hrun with
  | start => exact h
  | snoc _ hstep ih => exact hstep.inv ih

/-- The recipient of a transfer, none for a burn. -/
def NftTransferEvent.recipient (e : NftTransferEvent) : Option Address :=
  if e.toAddress = zeroAddress then none else some e.toAddress

/-- The owner that the latest transfer and the checkpoint of a token name. -/
def ownerAfter (latest : NftTransferEvent) : Option OwnershipCheckpointRow → Option Address
  | none => latest.recipient
  | some p => if p.blockNumber < latest.blockNumber then latest.recipient else p.owner

/-- **Ownership is a function of the delivered transfers and the checkpoint.**  However the
transfers of an anchored collection were split into commits, ordered, replayed and interleaved with
rollbacks, a token whose latest delivered transfer is above the anchor has exactly the owners that
this transfer and its checkpoint name: one or none. -/
theorem ownership_independent_of_delivery {c : CollectionId} {anchor : Nat} {db : Db}
    {w : DeliveryWorld} (hstart : Bootstrapped c anchor db)
    (hrun : DeliveryRun c anchor ⟨db, storedTransfers db c⟩ w) {latest : NftTransferEvent}
    (hmem : latest ∈ w.delivered) (habove : anchor < latest.blockNumber)
    (hmax : ∀ e ∈ w.delivered, e.tokenId = latest.tokenId → e.position ≤ latest.position) :
    ownersOf w.db c latest.tokenId =
      (ownerAfter latest (selectOwnershipCheckpoint w.db c latest.tokenId)).toList := by
  have hinv : OwnershipInv c anchor w := hrun.inv hstart.inv
  obtain ⟨state, hstate, howned⟩ := hinv.settled latest hmem habove
  rw [howned.ownersOf]
  obtain ⟨r, hr, rfl, hc⟩ := mem_storedTransfers.mp ((hinv.stored latest).mpr hmem)
  have hdistinct : DistinctPositions w.db.transfers c :=
    (hinv.history.subset (fun e he => (hinv.stored e).mp he)).distinctPositions
  have hlatest : selectLatestTransfer w.db.transfers c r.event.tokenId = some r := by
    refine selectLatestTransfer_eq hdistinct hr ⟨hc, rfl⟩ (fun s hs hsof => ?_)
    exact hmax s.event ((hinv.stored _).mp (mem_storedTransfers.mpr ⟨s, hs, rfl, hsof.1⟩)) hsof.2
  rw [resolveOwnership, hlatest] at hstate
  cases hp : selectOwnershipCheckpoint w.db c r.event.tokenId with
  | none =>
    rw [hp] at hstate
    rw [← Except.ok.inj hstate]
    rfl
  | some p =>
    rw [hp] at hstate
    simp only [Option.map_some, resolveErc721Ownership] at hstate
    split at hstate
    · next h =>
      have hle : r.event.blockNumber ≤ p.blockNumber := h
      rw [← Except.ok.inj hstate, ownerAfter, if_neg (Nat.not_lt.mpr hle)]
      rfl
    · next h =>
      have hlt : p.blockNumber < r.event.blockNumber := Nat.lt_of_not_le h
      rw [← Except.ok.inj hstate, ownerAfter, if_pos hlt]
      rfl

/-- A database with one ERC721 collection, anchored at block 5. -/
def anchoredDb : Db := Db.fresh (Table.empty.insertOrIgnore ⟨1, 9, .erc721, .live, some 5⟩)

/-- A range of one block with one transfer of token "4". -/
def oneTransferCommit (number src dst : Nat) : SyncRangeCommit where
  result :=
    { checkpoint := ⟨0⟩
      canonicalCheck := ⟨20, 2⟩
      collections := [⟨1, 9, .erc721, .live, some 5⟩]
      blocks := [⟨number, 10 * number, 10 * number - 10, 1000 + number⟩]
      data :=
        { OnChainData.empty with
          nftTransferEvents :=
            [⟨1, 9, "4", src, dst, 1, .erc721, number, 10 * number, 500 + number, 0⟩] } }
  followUps := []
  completion := .unmanaged

theorem oneTransferCommit_acquiredUnder (number src dst : Nat) :
    (oneTransferCommit number src dst).result.AcquiredUnder 1 5 := by
  refine ⟨fun _ => ⟨_, List.mem_singleton.mpr rfl, rfl⟩, fun r hr _ => ?_⟩
  rw [List.mem_singleton.mp hr]

theorem ownership_independent_of_delivery_repair :
    ∃ w, DeliveryRun 1 5 ⟨anchoredDb, storedTransfers anchoredDb 1⟩ w ∧
      ownersOf w.db 1 "4" = [3] := by
  obtain ⟨db₁, hdb₁⟩ : ∃ db, db = ((commitSyncRange (oneTransferCommit 8 2 3)).exec anchoredDb).2 :=
    ⟨_, rfl⟩
  obtain ⟨db₂, hdb₂⟩ : ∃ db, db = ((commitSyncRange (oneTransferCommit 7 0 2)).exec db₁).2 :=
    ⟨_, rfl⟩
  have hok₁ : ((commitSyncRange (oneTransferCommit 8 2 3)).exec anchoredDb).1 = .ok () := by
    decide +kernel
  have hok₂ : ((commitSyncRange (oneTransferCommit 7 0 2)).exec db₁).1 = .ok () := by
    rw [hdb₁]
    decide +kernel
  have hret₁ : Tx.Returns (commitSyncRange (oneTransferCommit 8 2 3)) anchoredDb () db₁ :=
    Prod.ext hok₁ hdb₁.symm
  have hret₂ : Tx.Returns (commitSyncRange (oneTransferCommit 7 0 2)) db₁ () db₂ :=
    Prod.ext hok₂ hdb₂.symm
  have hstart : Bootstrapped 1 5 anchoredDb := by
    refine ⟨⟨_, rfl, rfl, rfl⟩, ?_, ?_, ?_, ?_⟩ <;> decide +kernel
  have hhistory : OneHistory (storedTransfers anchoredDb 1 ++
      (oneTransferCommit 8 2 3).result.transfersOf 1 ++
      (oneTransferCommit 7 0 2).result.transfersOf 1) := by
    refine ⟨?_, ?_, ?_⟩ <;> decide +kernel
  have hstep₁ := @DeliveryStep.commit 1 5 ⟨anchoredDb, storedTransfers anchoredDb 1⟩ _ _ hret₁
    (oneTransferCommit_acquiredUnder 8 2 3)
    (hhistory.subset (fun e he => List.mem_append_left _ he))
  have hstep₂ := @DeliveryStep.commit 1 5 ⟨db₁, _⟩ _ _ hret₂
    (oneTransferCommit_acquiredUnder 7 0 2) hhistory
  have hrun := (DeliveryRun.start.snoc hstep₁).snoc hstep₂
  refine ⟨_, hrun, ?_⟩
  have howner := @ownership_independent_of_delivery 1 5 anchoredDb _ hstart hrun
    ⟨1, 9, "4", 2, 3, 1, .erc721, 8, 80, 508, 0⟩ (by dsimp only; decide +kernel)
    (by decide) (by dsimp only; decide +kernel)
  rw [howner, hdb₂, hdb₁]
  decide +kernel

end Artgod.Indexer
