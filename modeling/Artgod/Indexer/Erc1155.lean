/-
# ERC1155 balances over commits and rollbacks

A commit adds the events whose row it really inserted, a rollback subtracts the rows it finds.  Rows are
identified without the batch index, so an item that repeats a token id of its log is lost
(`erc1155_items_counted_iff`); and a commit skips the events of collections without an anchor below them, which
a rollback does not (`rollback_undoes_erc1155_iff`).
-/
import Artgod.Indexer.Ownership
import Mathlib

namespace Artgod.Indexer

open Store

/-! ## 1. Sequences of commits -/

/-- The events that a commit hands to `applyBalanceUpdatesFromEvents`. -/
def projectedBy (db : Db) (result : SyncRangeResult) : List NftTransferEvent :=
  match insertFacts result.blocks NftTransferEvent.blockNumber TransferRow.mk db.transfers
      result.data.nftTransferEvents with
  | .ok out => out.2.filter (projectsCurrentState result.collections)
  | .error _ => []

/-- Commits that returned, one after the other, with the events they projected. -/
inductive CommitRun : Db → List SyncRangeCommit → List NftTransferEvent → Db → Prop
  | nil (db : Db) : CommitRun db [] [] db
  | cons {input : SyncRangeCommit} {rest : List SyncRangeCommit}
      {projected : List NftTransferEvent} {db db₁ db₂ : Db}
      (head : Tx.Returns (commitSyncRange input) db () db₁)
      (tail : CommitRun db₁ rest projected db₂) :
      CommitRun db (input :: rest) (projectedBy db input.result ++ projected) db₂

/-- An event as a commit delivers it, and whether its collection's anchor lets it be projected. -/
structure Delivery where
  event : NftTransferEvent
  projected : Bool

/-- The events of a result. -/
def SyncRangeResult.deliveries (result : SyncRangeResult) : List Delivery :=
  result.data.nftTransferEvents.map (fun e => ⟨e, projectsCurrentState result.collections e⟩)

/-- The events of a sequence of commits, in order. -/
def deliveries (inputs : List SyncRangeCommit) : List Delivery :=
  inputs.flatMap (·.result.deliveries)

/-- The keys of the stored transfers. -/
def storedKeys (db : Db) : List TransferKey := db.transfers.rows.map TransferRow.key

/-- The deliveries whose key is not among `seen` and was not delivered before. -/
def firstSeen : List TransferKey → List Delivery → List Delivery
  | _, [] => []
  | seen, d :: rest =>
    if d.event.key ∈ seen then firstSeen seen rest
    else d :: firstSeen (seen ++ [d.event.key]) rest

theorem firstSeen_append : ∀ (xs ys : List Delivery) (seen : List TransferKey), firstSeen seen (xs ++ ys) =
        firstSeen seen xs ++ firstSeen (seen ++ (firstSeen seen xs).map (·.event.key)) ys
  | [], ys, seen => by simp [firstSeen]
  | d :: rest, ys, seen => by
    rw [List.cons_append, firstSeen, firstSeen]
    split
    · exact firstSeen_append rest ys seen
    · rw [firstSeen_append rest ys, List.cons_append, List.map_cons, List.append_assoc,
        List.singleton_append]

theorem firstSeen_sublist : ∀ (xs : List Delivery) (seen : List TransferKey), (firstSeen seen xs).Sublist xs
  | [], seen => List.Sublist.refl _
  | d :: rest, seen => by
    rw [firstSeen]
    split
    · exact (firstSeen_sublist rest seen).cons d
    · exact (firstSeen_sublist rest _).cons_cons d

theorem key_mem_firstSeen : ∀ {xs : List Delivery} {seen : List TransferKey} {d : Delivery}, d ∈ xs →
      d.event.key ∈ seen ∨ d.event.key ∈ (firstSeen seen xs).map (·.event.key)
  | x :: rest, seen, d, hd => by
    rw [firstSeen]
    split
    · next hseen =>
      rcases List.mem_cons.mp hd with rfl | hd
      · exact Or.inl hseen
      · exact key_mem_firstSeen hd
    · rcases List.mem_cons.mp hd with rfl | hd
      · exact Or.inr (by simp)
      rcases @key_mem_firstSeen rest (seen ++ [x.event.key]) d hd with h | h
      · rcases List.mem_append.mp h with h | h
        · exact Or.inl h
        · rw [List.mem_singleton] at h
          exact Or.inr (by simp [h])
      · exact Or.inr (List.mem_cons_of_mem _ h)

theorem insertFacts_firstSeen {headers : List SyncBlockHeader} {p : NftTransferEvent → Bool} :
    ∀ {events : List NftTransferEvent} {t t' : Table TransferRow.key}
      {inserted : List NftTransferEvent},
      insertFacts headers NftTransferEvent.blockNumber TransferRow.mk t events = .ok (t', inserted) →
      inserted.map (fun e => (⟨e, p e⟩ : Delivery)) =
          firstSeen (t.rows.map TransferRow.key) (events.map (fun e => ⟨e, p e⟩)) ∧
        t'.rows.map (·.event) = t.rows.map (·.event) ++ inserted
  | [], t, t', inserted, h => by
    simp only [insertFacts, Except.ok.injEq, Prod.mk.injEq] at h
    obtain ⟨rfl, rfl⟩ := h
    exact ⟨rfl, by simp⟩
  | e :: rest, t, t', inserted, h => by
    obtain ⟨ts, inserted', hrest, hins⟩ := insertFacts_cons h
    obtain ⟨hseen, hrows⟩ := @insertFacts_firstSeen headers p _ _ _ _ hrest
    have hkey : t.has (TransferRow.key ⟨e, ts⟩) = true ↔ e.key ∈ t.rows.map TransferRow.key := by
      rw [Table.has_iff, List.mem_map]
      rfl
    rw [List.map_cons, firstSeen]
    by_cases htaken : t.has (TransferRow.key ⟨e, ts⟩) = true
    · rw [if_pos htaken] at hins
      rw [Table.insertOrIgnore_of_has htaken] at hseen hrows
      rw [if_pos (hkey.mp htaken), hins]
      exact ⟨hseen, hrows⟩
    · rw [if_neg htaken] at hins
      have hfree : t.has (TransferRow.key ⟨e, ts⟩) = false := by simpa using htaken
      rw [Table.rows_insertOrIgnore_of_not_has hfree, List.map_append] at hseen hrows
      rw [if_neg (fun h => htaken (hkey.mpr h)), hins, List.map_cons, hseen, hrows]
      refine ⟨rfl, by simp⟩

/-- The signed amount that a list of events brings to `k`. -/
def totalDelta (events : List NftTransferEvent) (k : BalanceKey) : Int :=
  (events.map (·.delta k)).sum

variable {db db' : Db} {k : BalanceKey} {inputs : List SyncRangeCommit} {log : RpcLog}

variable {xs ys : List NftTransferEvent} {scope : Address → TokenId → Option CollectionId}
  {c : CollectionId}

@[simp] theorem totalDelta_append : totalDelta (xs ++ ys) k = totalDelta xs k + totalDelta ys k := by
  simp [totalDelta]

theorem totalDelta_flatMap {α : Type} {xs : List α} {f : α → List NftTransferEvent}
    :
    totalDelta (xs.flatMap f) k = (xs.map (fun x => totalDelta (f x) k)).sum := by
  induction xs with
  | nil => rfl
  | cons x rest ih => rw [List.flatMap_cons, totalDelta_append, ih, List.map_cons, List.sum_cons]

theorem totalDelta_perm (h : xs.Perm ys) (k : BalanceKey) : totalDelta xs k = totalDelta ys k :=
  (h.map _).sum_eq

theorem totalDelta_filter {events : List NftTransferEvent} {k : BalanceKey} :
    totalDelta (events.filter (fun e => e.collectionId = k.collectionId)) k = totalDelta events k := by
  induction events with
  | nil => rfl
  | cons e rest ih =>
    by_cases hc : e.collectionId = k.collectionId
    · rw [List.filter_cons_of_pos (by simpa using hc)]
      simp only [totalDelta, List.map_cons, List.sum_cons] at ih ⊢
      rw [ih]
    have hzero : e.delta k = 0 := by
      have hnot : ∀ owner, ¬ HeldAt e.collectionId e.tokenId owner k := by
        rintro owner ⟨-, rfl⟩
        exact hc rfl
      simp [NftTransferEvent.delta, movedTo, hnot]
    rw [List.filter_cons_of_neg (by simpa using hc), ih]
    simp [totalDelta, hzero]

/-- **Projecting events adds their signed amounts**, at a key whose collection has no ERC721
events among them. -/
theorem ProjectsAll.amountOf {events : List NftTransferEvent}
    {b b' : BalanceTable} (h : ProjectsAll db events b b')
    (hkind : ∀ e ∈ events, e.collectionId = k.collectionId → e.kind = .erc1155) :
    Indexer.amountOf b' k = Indexer.amountOf b k + totalDelta events k := by
  induction h with
  | nil b => simp [totalDelta]
  | @cons event rest b₀ b₁ b₂ head tail ih =>
    have hhead : Indexer.amountOf b₁ k = Indexer.amountOf b₀ k + event.delta k := by
      cases head with
      | erc721 state hk _ hafter =>
        have hne : event.collectionId ≠ k.collectionId := by
          intro hc
          rw [hkind event (by simp) hc] at hk
          cases hk
        have hzero : event.delta k = 0 := by
          simpa [totalDelta, hne] using (@totalDelta_filter [event] k).symm
        rw [hzero, hafter, Int.add_zero, Indexer.amountOf, get?_replaceErc721Ownership,
          if_neg (fun h => hne h.1.symm)]
        rfl
      | erc1155 context _ _ hafter =>
        rw [hafter, amountOf_applyErc1155Transfer]
        rfl
    rw [ih (fun e he => hkind e (List.mem_cons_of_mem _ he)), hhead]
    simp only [totalDelta, List.map_cons, List.sum_cons]
    omega

theorem CommitEffect.projected {input : SyncRangeCommit}
    (h : CommitEffect input db db') :
    db'.transfers.rows.map (·.event) = db.transfers.rows.map (·.event) ++
        (firstSeen (storedKeys db) input.result.deliveries).map (·.event) ∧
      projectedBy db input.result =
        ((firstSeen (storedKeys db) input.result.deliveries).filter (·.projected)).map (·.event) ∧
      ProjectsAll db' (projectedBy db input.result) db.balances db'.balances := by
  obtain ⟨db₁, outbox, scans, recovery, hpersist, rfl⟩ := h.persisted
  obtain ⟨inserted, hins, hproj⟩ := hpersist.transfers
  obtain ⟨hseen, hrows⟩ :=
    @insertFacts_firstSeen _ (projectsCurrentState input.result.collections) _ _ _ _ hins
  have hby : projectedBy db input.result =
      inserted.filter (projectsCurrentState input.result.collections) := by
    rw [projectedBy, hins]
  have hevents : (firstSeen (storedKeys db) input.result.deliveries).map (·.event) = inserted := by
    rw [storedKeys, SyncRangeResult.deliveries, ← hseen, List.map_map]
    exact List.map_id _
  refine ⟨by rw [hevents]; exact hrows, ?_, ?_⟩
  · rw [hby, storedKeys, SyncRangeResult.deliveries, ← hseen, List.filter_map, List.map_map]
    exact (List.map_id _).symm
  · rw [hby]
    exact hproj.congr rfl rfl rfl

theorem storedKeys_eq (db : Db) : storedKeys db = (db.transfers.rows.map (·.event)).map (·.key) := by
  rw [storedKeys, List.map_map]
  rfl

/-- **What a sequence of commits stored and projected**: the deliveries that were first seen, and
those of them whose anchor allowed it. -/
theorem CommitRun.spec {projected : List NftTransferEvent}
    (h : CommitRun db inputs projected db') :
    db'.transfers.rows.map (·.event) = db.transfers.rows.map (·.event) ++
        (firstSeen (storedKeys db) (deliveries inputs)).map (·.event) ∧
      projected = ((firstSeen (storedKeys db) (deliveries inputs)).filter (·.projected)).map (·.event) := by
  induction h with
  | nil db => simp [deliveries, firstSeen]
  | @cons input rest projected db db₁ db₂ head tail ih =>
    obtain ⟨hrows, hby, -⟩ := (commitSyncRange_effect head).projected
    obtain ⟨ihrows, ihby⟩ := ih
    have hkeys : storedKeys db₁ = storedKeys db ++
        (firstSeen (storedKeys db) input.result.deliveries).map (·.event.key) := by
      rw [storedKeys_eq, hrows, List.map_append, ← storedKeys_eq, List.map_map]
      rfl
    have hdeliveries : deliveries (input :: rest) = input.result.deliveries ++ deliveries rest := rfl
    rw [hdeliveries, firstSeen_append, ← hkeys]
    constructor
    · rw [ihrows, hrows, List.map_append, List.append_assoc]
    · rw [hby, ihby, List.filter_append, List.map_append]

theorem CommitRun.amountOf {projected : List NftTransferEvent}
    (h : CommitRun db inputs projected db')
    (hkind : ∀ d ∈ deliveries inputs, d.event.collectionId = k.collectionId → d.event.kind = .erc1155) :
    Indexer.amountOf db'.balances k = Indexer.amountOf db.balances k + totalDelta projected k := by
  induction h with
  | nil db => simp [totalDelta]
  | @cons input rest projected db db₁ db₂ head tail ih =>
    obtain ⟨-, hby, hproj⟩ := (commitSyncRange_effect head).projected
    have hkind' : ∀ e ∈ projectedBy db input.result, e.collectionId = k.collectionId →
        e.kind = .erc1155 := by
      intro e he
      rw [hby, List.mem_map] at he
      obtain ⟨d, hd, rfl⟩ := he
      refine hkind d (List.mem_append_left _ ?_)
      exact (firstSeen_sublist _ _).subset (List.mem_filter.mp hd).1
    rw [ih (fun d hd => hkind d (List.mem_append_right _ hd)), hproj.amountOf hkind', totalDelta_append]
    omega

theorem CommitRun.mem_blocks {projected : List NftTransferEvent}
    (h : CommitRun db inputs projected db') :
    ∀ d ∈ deliveries inputs, ∃ input ∈ inputs, ∃ header ∈ input.result.blocks,
      header.number = d.event.blockNumber := by
  induction h with
  | nil db => simp [deliveries]
  | @cons input rest projected db db₁ db₂ head tail ih =>
    intro d hd
    rcases List.mem_append.mp hd with hd | hd
    · obtain ⟨_, _, _, _, hpersist, -⟩ := (commitSyncRange_effect head).persisted
      obtain ⟨e, he, rfl⟩ := List.mem_map.mp hd
      obtain ⟨header, hheader, hnumber, -⟩ := hpersist.matched.transfer he
      exact ⟨input, by simp, header, hheader, hnumber⟩
    · obtain ⟨input', hinput', hheader⟩ := ih d hd
      exact ⟨input', List.mem_cons_of_mem _ hinput', hheader⟩

/-! ## 2. Logs and their items -/

/-- What the ABI decoding of a transfer log reads from it; `undecodable` is a log it throws on. -/
inductive TransferArgs where
  | transfer (src dst : Address) (tokenId : Nat)
  | transferSingle (src dst : Address) (id value : Nat)
  | transferBatch (src dst : Address) (ids values : List Nat)
  | undecodable

structure RpcLog where
  address : Address
  blockNumber : Nat
  blockHash : Hash
  transactionHash : Hash
  logIndex : Nat
  args : TransferArgs

/-- `EnhancedEvent`, its base and its decoded part in one record. -/
structure EnhancedEvent where
  contract : Address
  blockNumber : Nat
  blockHash : Hash
  txHash : Hash
  logIndex : Nat
  batchIndex : Nat
  standard : CollectionStandard
  fromAddress : Address
  toAddress : Address
  tokenId : TokenId
  amount : Nat
deriving DecidableEq

section

variable (log : RpcLog)

def decodeErc721Transfer (src dst : Address) (tokenId : Nat) : List EnhancedEvent :=
  [⟨log.address, log.blockNumber, log.blockHash, log.transactionHash, log.logIndex, 0, .erc721, src,
    dst, toString tokenId, 1⟩]

def decodeErc1155TransferSingle (src dst : Address) (id value : Nat) : List EnhancedEvent :=
  [⟨log.address, log.blockNumber, log.blockHash, log.transactionHash, log.logIndex, 0, .erc1155, src,
    dst, toString id, value⟩]

/-- `decodeErc1155TransferBatch`: one event for each id; a missing value is zero. -/
def decodeErc1155TransferBatch (src dst : Address) (ids values : List Nat) : List EnhancedEvent :=
  (List.range ids.length).map (fun i =>
    { contract := log.address, blockNumber := log.blockNumber, blockHash := log.blockHash
      txHash := log.transactionHash, logIndex := log.logIndex, batchIndex := i
      standard := .erc1155, fromAddress := src, toAddress := dst
      tokenId := (ids[i]?).elim "0" toString
      amount := (values[i]?).getD 0 })

def decodeNftTransferLog : List EnhancedEvent :=
  match log.args with
  | .transfer src dst tokenId => decodeErc721Transfer log src dst tokenId
  | .transferSingle src dst id value => decodeErc1155TransferSingle log src dst id value
  | .transferBatch src dst ids values => decodeErc1155TransferBatch log src dst ids values
  | .undecodable => []

/-- `toTransferEvent`: the batch index does not survive.  `scope` is `resolveCollectionId`. -/
def toTransferEvent (scope : Address → TokenId → Option CollectionId) (event : EnhancedEvent) :
    Option NftTransferEvent :=
  (scope event.contract event.tokenId).map (fun collectionId =>
    { collectionId := collectionId, contract := event.contract, tokenId := event.tokenId
      fromAddress := event.fromAddress, toAddress := event.toAddress, amount := event.amount
      kind := event.standard, blockNumber := event.blockNumber, blockHash := event.blockHash
      txHash := event.txHash, logIndex := event.logIndex })

/-- The transfers of the collection that a log expands to. -/
def RpcLog.transfersOf (scope : Address → TokenId → Option CollectionId)
    (c : CollectionId) : List NftTransferEvent :=
  ((decodeNftTransferLog log).filterMap (toTransferEvent scope)).filter (fun e => e.collectionId = c)

/-- The log is a `TransferSingle` or a `TransferBatch`. -/
def RpcLog.IsErc1155 : Prop :=
  match log.args with
  | .transferSingle .. => True
  | .transferBatch .. => True
  | _ => False

/-- The addresses of an ERC1155 log, sender and recipient. -/
def RpcLog.parties : Address × Address :=
  match log.args with
  | .transfer src dst _ => (src, dst)
  | .transferSingle src dst _ _ => (src, dst)
  | .transferBatch src dst _ _ => (src, dst)
  | .undecodable => (zeroAddress, zeroAddress)

/-- The items of an ERC1155 log: token ids with their values. -/
def RpcLog.items : List (Nat × Nat) :=
  match log.args with
  | .transferSingle _ _ id value => [(id, value)]
  | .transferBatch _ _ ids values =>
    (List.range ids.length).map (fun i => ((ids[i]?).getD 0, (values[i]?).getD 0))
  | _ => []

/-- The items whose token is one of the collection. -/
def RpcLog.itemsOf (scope : Address → TokenId → Option CollectionId)
    (c : CollectionId) : List (Nat × Nat) :=
  log.items.filter (fun item => scope log.address (toString item.1) = some c)

/-- The transfer that an item stands for. -/
def RpcLog.itemTransfer (c : CollectionId) (item : Nat × Nat) : NftTransferEvent where
  collectionId := c
  contract := log.address
  tokenId := toString item.1
  fromAddress := log.parties.1
  toAddress := log.parties.2
  amount := item.2
  kind := .erc1155
  blockNumber := log.blockNumber
  blockHash := log.blockHash
  txHash := log.transactionHash
  logIndex := log.logIndex

theorem filterMap_toTransferEvent {scope : Address → TokenId → Option CollectionId}
    {c : CollectionId} {log : RpcLog} {event : Nat → EnhancedEvent} {item : Nat → Nat × Nat}
    (hevent : ∀ i, toTransferEvent scope (event i) =
      (scope log.address (toString (item i).1)).map (fun c => log.itemTransfer c (item i))) :
    ∀ indices : List Nat, (((indices.map event).filterMap (toTransferEvent scope)).filter
          (fun e => e.collectionId = c)) =
        ((indices.map item).filter
          (fun item => scope log.address (toString item.1) = some c)).map (log.itemTransfer c)
  | [] => rfl
  | i :: rest => by
    have ih := @filterMap_toTransferEvent scope c log event item hevent rest
    rw [List.map_cons, List.map_cons, List.filterMap_cons, hevent, List.filter_cons]
    cases hscope : scope log.address (toString (item i).1) with
    | none => simpa using ih
    | some c' =>
      by_cases hc : c' = c
      · subst hc
        simpa [RpcLog.itemTransfer] using ih
      · simpa [RpcLog.itemTransfer, hc] using ih

/-- **An ERC1155 log expands to one transfer for each of its items.** -/
theorem RpcLog.transfersOf_eq (h : log.IsErc1155)
    (scope : Address → TokenId → Option CollectionId) (c : CollectionId) :
    log.transfersOf scope c = (log.itemsOf scope c).map (log.itemTransfer c) := by
  cases hargs : log.args with
  | transfer src dst tokenId => simp [IsErc1155, hargs] at h
  | undecodable => simp [IsErc1155, hargs] at h
  | transferSingle src dst id value =>
    have := @filterMap_toTransferEvent scope c log
      (fun _ => ⟨log.address, log.blockNumber, log.blockHash, log.transactionHash, log.logIndex, 0,
        .erc1155, src, dst, toString id, value⟩) (fun _ => (id, value))
      (fun _ => by simp [toTransferEvent, itemTransfer, parties, hargs]) [0]
    simpa only [transfersOf, decodeNftTransferLog, hargs, decodeErc1155TransferSingle, itemsOf,
      items, List.map_cons, List.map_nil] using this
  | transferBatch src dst ids values =>
    simp only [transfersOf, decodeNftTransferLog, hargs, decodeErc1155TransferBatch, itemsOf, items]
    refine filterMap_toTransferEvent (fun i => ?_) _
    have hzero : toString 0 = "0" := by decide
    cases ids[i]? with
    | none => simp only [toTransferEvent, itemTransfer, parties, hargs, Option.elim_none,
        Option.getD_none, hzero]
    | some id => simp only [toTransferEvent, itemTransfer, parties, hargs, Option.elim_some,
        Option.getD_some]

/-- The signed value that the items of a log bring to an owner's balance of a token. -/
def RpcLog.moved (scope : Address → TokenId → Option CollectionId)
    (c : CollectionId) (tokenId : TokenId) (owner : Address) : Int :=
  (((log.itemsOf scope c).filter (fun item => toString item.1 = tokenId)).map (fun item =>
    (if log.parties.2 = owner then (item.2 : Int) else 0) -
      (if log.parties.1 = owner then (item.2 : Int) else 0))).sum

end

theorem totalDelta_transfersOf (h : log.IsErc1155) {tokenId : TokenId}
    {owner : Address} (howner : owner ≠ zeroAddress) :
    totalDelta (log.transfersOf scope c) ⟨c, tokenId, owner⟩ = log.moved scope c tokenId owner := by
  rw [log.transfersOf_eq h, RpcLog.moved]
  induction log.itemsOf scope c with
  | nil => rfl
  | cons item rest ih =>
    have hdelta : (log.itemTransfer c item).delta ⟨c, tokenId, owner⟩ =
        if toString item.1 = tokenId then
          (if log.parties.2 = owner then (item.2 : Int) else 0) -
            (if log.parties.1 = owner then (item.2 : Int) else 0)
        else 0 := by
      have hheld : ∀ a, HeldAt c (toString item.1) a ⟨c, tokenId, owner⟩ ↔
          toString item.1 = tokenId ∧ a = owner := by
        intro a
        simp only [HeldAt, BalanceKey.mk.injEq, true_and]
        constructor
        · exact fun h => h.2
        · rintro ⟨ht, rfl⟩
          exact ⟨howner, ht, rfl⟩
      simp only [NftTransferEvent.delta, movedTo, RpcLog.itemTransfer, hheld]
      by_cases ht : toString item.1 = tokenId
      · simp only [ht, true_and, if_true]
      · simp only [ht, false_and, if_false, Int.sub_zero]
    rw [List.map_cons, totalDelta, List.map_cons, List.sum_cons, ← totalDelta, ih, hdelta]
    by_cases ht : toString item.1 = tokenId
    · rw [if_pos ht, List.filter_cons_of_pos (by simpa using ht), List.map_cons, List.sum_cons]
    · rw [if_neg ht, List.filter_cons_of_neg (by simpa using ht), Int.zero_add]

/-! ## 3. Counting items -/

/-- A set of ERC1155 logs of one chain, above an anchor. -/
structure Erc1155Logs (anchor : Nat) (logs : List RpcLog) : Prop where
  nodup : logs.Nodup
  distinct : ∀ log ∈ logs, ∀ log' ∈ logs, log.transactionHash = log'.transactionHash →
    log.logIndex = log'.logIndex → log = log'
  erc1155 : ∀ log ∈ logs, log.IsErc1155
  above : ∀ log ∈ logs, anchor < log.blockNumber

/-- The commits bring the logs: their transfers of the collection are items of the logs, and every
log comes whole in at least one commit.  Order and repetition are free. -/
structure Carries (scope : Address → TokenId → Option CollectionId) (c : CollectionId)
    (inputs : List SyncRangeCommit) (logs : List RpcLog) : Prop where
  sound : ∀ input ∈ inputs, ∀ e ∈ input.result.transfersOf c, ∃ log ∈ logs, e ∈ log.transfersOf scope c
  complete : ∀ log ∈ logs, ∃ input ∈ inputs, ∀ e ∈ log.transfersOf scope c, e ∈ input.result.transfersOf c

/-- No stored transfer of the collection comes from one of the logs. -/
def NotStored (db : Db) (c : CollectionId) (logs : List RpcLog) : Prop :=
  ∀ r ∈ db.transfers, r.event.collectionId = c → ∀ log ∈ logs,
    ¬ (r.event.txHash = log.transactionHash ∧ r.event.logIndex = log.logIndex)

/-- Every item of every log is counted once: the amounts move by the values of all items, and the
transfers projected are the items. -/
def ItemsCounted (scope : Address → TokenId → Option CollectionId) (c : CollectionId)
    (logs : List RpcLog) (projected : List NftTransferEvent) (db db' : Db) : Prop :=
  (∀ tokenId owner, owner ≠ zeroAddress →
    amountOf db'.balances ⟨c, tokenId, owner⟩ = amountOf db.balances ⟨c, tokenId, owner⟩ +
      (logs.map (fun log => log.moved scope c tokenId owner)).sum) ∧
    (projected.filter (fun e => e.collectionId = c)).Perm
      (logs.flatMap (fun log => log.transfersOf scope c))

theorem firstSeen_keys_nodup : ∀ (xs : List Delivery) (seen : List TransferKey),
      ((firstSeen seen xs).map (·.event.key)).Nodup ∧ ∀ k ∈ (firstSeen seen xs).map (·.event.key), k ∉ seen
  | [], seen => by simp [firstSeen]
  | d :: rest, seen => by
    rw [firstSeen]
    split
    · exact firstSeen_keys_nodup rest seen
    next hnew =>
    obtain ⟨hnodup, hfresh⟩ := firstSeen_keys_nodup rest (seen ++ [d.event.key])
    rw [List.map_cons, List.nodup_cons]
    refine ⟨⟨fun hmem => hfresh _ hmem (by simp), hnodup⟩, ?_⟩
    intro k hk
    rcases List.mem_cons.mp hk with rfl | hk
    · exact hnew
    · exact fun hseen => hfresh k hk (List.mem_append_left _ hseen)

theorem RpcLog.transfersOf_keys (h : log.IsErc1155)
    (scope : Address → TokenId → Option CollectionId) (c : CollectionId) :
    (log.transfersOf scope c).map (·.key) = ((log.itemsOf scope c).map Prod.fst).map
        (fun id => (⟨log.transactionHash, log.logIndex, c, toString id⟩ : TransferKey)) := by
  rw [log.transfersOf_eq h, List.map_map, List.map_map]
  rfl

theorem transfersOf_keys_nodup_iff {anchor : Nat} {logs : List RpcLog} (hlogs : Erc1155Logs anchor logs) :
    ((logs.flatMap (fun log => log.transfersOf scope c)).map (·.key)).Nodup ↔
      ∀ log ∈ logs, ((log.itemsOf scope c).map Prod.fst).Nodup := by
  have hmap : (logs.flatMap (fun log => log.transfersOf scope c)).map (·.key) =
      logs.flatMap (fun log => (log.transfersOf scope c).map (·.key)) :=
    List.map_flatMap
  rw [hmap, List.nodup_flatMap]
  have hone : ∀ log ∈ logs, ((log.transfersOf scope c).map (·.key)).Nodup ↔
      ((log.itemsOf scope c).map Prod.fst).Nodup := by
    intro log hlog
    rw [RpcLog.transfersOf_keys (hlogs.erc1155 log hlog)]
    refine List.nodup_map_iff (fun id id' heq => ?_)
    exact Nat.repr_injective (TransferKey.mk.inj heq).2.2.2
  constructor
  · exact fun h log hlog => (hone log hlog).mp (h.1 log hlog)
  intro h
  refine ⟨fun log hlog => (hone log hlog).mpr (h log hlog), ?_⟩
  refine List.Pairwise.imp_of_mem ?_ hlogs.nodup
  intro log log' hlog hlog' hne k hk hk'
  dsimp only at hk hk'
  rw [RpcLog.transfersOf_keys (hlogs.erc1155 log hlog), List.mem_map] at hk
  rw [RpcLog.transfersOf_keys (hlogs.erc1155 log' hlog'), List.mem_map] at hk'
  obtain ⟨id, -, rfl⟩ := hk
  obtain ⟨id', -, hkey⟩ := hk'
  obtain ⟨htx, hlogIndex, -⟩ := TransferKey.mk.inj hkey
  exact hne (hlogs.distinct log hlog log' hlog' htx.symm hlogIndex.symm)

section Counting

variable {scope : Address → TokenId → Option CollectionId} {c : CollectionId} {anchor : Nat}
  {logs : List RpcLog} {inputs : List SyncRangeCommit} {projected : List NftTransferEvent}
  {db db' : Db}

theorem Carries.of_delivery (hcarries : Carries scope c inputs logs) {d : Delivery}
    (hd : d ∈ deliveries inputs) (hc : d.event.collectionId = c) :
    ∃ input ∈ inputs, d.event ∈ input.result.transfersOf c ∧
      d.projected = projectsCurrentState input.result.collections d.event ∧
      ∃ log ∈ logs, d.event ∈ log.transfersOf scope c := by
  obtain ⟨input, hinput, hd⟩ := List.mem_flatMap.mp hd
  obtain ⟨e, he, rfl⟩ := List.mem_map.mp hd
  have hmem : e ∈ input.result.transfersOf c := List.mem_filter.mpr ⟨he, by simpa using hc⟩
  exact ⟨input, hinput, hmem, rfl, hcarries.sound input hinput e hmem⟩

theorem Erc1155Logs.mem_transfersOf (hlogs : Erc1155Logs anchor logs) {log : RpcLog}
    (hlog : log ∈ logs) {e : NftTransferEvent} (he : e ∈ log.transfersOf scope c) :
    e.kind = .erc1155 ∧ anchor < e.blockNumber ∧ e.txHash = log.transactionHash ∧
      e.logIndex = log.logIndex ∧ e.collectionId = c := by
  rw [log.transfersOf_eq (hlogs.erc1155 log hlog), List.mem_map] at he
  obtain ⟨item, -, rfl⟩ := he
  exact ⟨rfl, hlogs.above log hlog, rfl, rfl, rfl⟩

/-- The transfers of the collection that the commits projected are items of the logs, each at most
once, and one for the key of every item. -/
theorem projected_items (hrun : CommitRun db inputs projected db')
    (hacquired : ∀ input ∈ inputs, input.result.AcquiredUnder c anchor)
    (hlogs : Erc1155Logs anchor logs) (hcarries : Carries scope c inputs logs)
    (hfresh : NotStored db c logs) :
    ((projected.filter (fun e => e.collectionId = c)).map (·.key)).Nodup ∧
      (∀ e ∈ projected.filter (fun e => e.collectionId = c),
        e ∈ logs.flatMap (fun log => log.transfersOf scope c)) ∧
      ∀ e ∈ logs.flatMap (fun log => log.transfersOf scope c),
        ∃ e' ∈ projected.filter (fun e => e.collectionId = c), e'.key = e.key := by
  obtain ⟨-, hprojected⟩ := hrun.spec
  have hsub : ∀ d ∈ firstSeen (storedKeys db) (deliveries inputs), d ∈ deliveries inputs :=
    fun d hd => (firstSeen_sublist _ _).subset hd
  refine ⟨?_, ?_, ?_⟩
  · have hkeys := (firstSeen_keys_nodup (deliveries inputs) (storedKeys db)).1
    rw [hprojected]
    refine hkeys.sublist ?_
    have hsublist := (List.filter_sublist (p := fun e : NftTransferEvent => e.collectionId = c)
      (l := ((firstSeen (storedKeys db) (deliveries inputs)).filter (·.projected)).map
        (·.event))).map (·.key)
    rw [List.map_map] at hsublist
    exact hsublist.trans (List.filter_sublist.map _)
  · intro e he
    obtain ⟨he, hc⟩ := List.mem_filter.mp he
    rw [hprojected, List.mem_map] at he
    obtain ⟨d, hd, rfl⟩ := he
    obtain ⟨-, -, -, -, log, hlog, hitem⟩ :=
      hcarries.of_delivery (hsub d (List.mem_filter.mp hd).1) (by simpa using hc)
    exact List.mem_flatMap.mpr ⟨log, hlog, hitem⟩
  · intro e he
    obtain ⟨log, hlog, hitem⟩ := List.mem_flatMap.mp he
    obtain ⟨-, -, htx, hlogIndex, hc⟩ := hlogs.mem_transfersOf hlog hitem
    obtain ⟨input, hinput, hall⟩ := hcarries.complete log hlog
    have hdelivered : (⟨e, projectsCurrentState input.result.collections e⟩ : Delivery) ∈
        deliveries inputs :=
      List.mem_flatMap.mpr ⟨input, hinput, List.mem_map.mpr ⟨e, (List.mem_filter.mp (hall e hitem)).1, rfl⟩⟩
    rcases @key_mem_firstSeen _ (storedKeys db) _ hdelivered with hstored | hseen
    · -- the log of a stored transfer is not one of these logs
      obtain ⟨r, hr, hkey⟩ := List.mem_map.mp hstored
      obtain ⟨hrtx, hrlog, hrc, -⟩ := TransferKey.mk.inj hkey
      exact absurd ⟨hrtx.trans htx, hrlog.trans hlogIndex⟩ (hfresh r hr (hrc.trans hc) log hlog)
    · obtain ⟨d, hd, hkey⟩ := List.mem_map.mp hseen
      have hdc : d.event.collectionId = c := (TransferKey.mk.inj hkey).2.2.1.trans hc
      obtain ⟨input', hinput', hmem', hproj, log', hlog', hitem'⟩ :=
        hcarries.of_delivery (hsub d hd) hdc
      obtain ⟨-, habove, -⟩ := hlogs.mem_transfersOf hlog' hitem'
      refine ⟨d.event, List.mem_filter.mpr ⟨?_, by simpa using hdc⟩, hkey⟩
      rw [hprojected]
      refine List.mem_map.mpr ⟨d, List.mem_filter.mpr ⟨hd, ?_⟩, rfl⟩
      rw [hproj]
      exact (hacquired input' hinput').projects hmem' habove

/-- **The items of ERC1155 logs are all counted exactly when no log repeats a token id.**  The logs
may be committed in any order, in any grouping and any number of times. -/
theorem erc1155_items_counted_iff (hrun : CommitRun db inputs projected db')
    (hacquired : ∀ input ∈ inputs, input.result.AcquiredUnder c anchor)
    (hlogs : Erc1155Logs anchor logs) (hcarries : Carries scope c inputs logs)
    (hfresh : NotStored db c logs) :
    ItemsCounted scope c logs projected db db' ↔
      ∀ log ∈ logs, ((log.itemsOf scope c).map Prod.fst).Nodup := by
  obtain ⟨hkeys, hsound, hcomplete⟩ := projected_items hrun hacquired hlogs hcarries hfresh
  rw [← transfersOf_keys_nodup_iff hlogs]
  constructor
  · rintro ⟨-, hperm⟩
    exact (hperm.map _).nodup_iff.mp hkeys
  intro hnodup
  have hperm : (projected.filter (fun e => e.collectionId = c)).Perm
      (logs.flatMap (fun log => log.transfersOf scope c)) := by
    refine (List.perm_ext_iff_of_nodup (hkeys.of_map _) (hnodup.of_map _)).mpr (fun e => ?_)
    refine ⟨hsound e, fun he => ?_⟩
    obtain ⟨e', he', hkey⟩ := hcomplete e he
    rwa [← List.inj_on_of_nodup_map hnodup (hsound e' he') he hkey]
  refine ⟨fun tokenId owner howner => ?_, hperm⟩
  have hkind : ∀ d ∈ deliveries inputs, d.event.collectionId = c → d.event.kind = .erc1155 := by
    intro d hd hc
    obtain ⟨-, -, -, -, log, hlog, hitem⟩ := hcarries.of_delivery hd hc
    exact (hlogs.mem_transfersOf hlog hitem).1
  have hmoved : ∀ log ∈ logs, totalDelta (log.transfersOf scope c) ⟨c, tokenId, owner⟩ =
      log.moved scope c tokenId owner :=
    fun log hlog => totalDelta_transfersOf (hlogs.erc1155 log hlog) howner
  calc amountOf db'.balances ⟨c, tokenId, owner⟩
      = amountOf db.balances ⟨c, tokenId, owner⟩ + totalDelta projected ⟨c, tokenId, owner⟩ :=
        hrun.amountOf hkind
    _ = amountOf db.balances ⟨c, tokenId, owner⟩ +
          totalDelta (logs.flatMap (fun log => log.transfersOf scope c)) ⟨c, tokenId, owner⟩ := by
        rw [← totalDelta_perm hperm]
        exact congrArg _ (@totalDelta_filter projected ⟨c, tokenId, owner⟩).symm
    _ = amountOf db.balances ⟨c, tokenId, owner⟩ +
          (logs.map (fun log => log.moved scope c tokenId owner)).sum := by
        rw [totalDelta_flatMap, List.map_congr_left hmoved]

end Counting

/-- The contract of collection 1. -/
def scopeOne (contract : Address) (_ : TokenId) : Option CollectionId :=
  if contract = 9 then some 1 else none

/-- A database with one ERC1155 collection, anchored at block 5. -/
def erc1155Db : Db := Db.fresh (Table.empty.insertOrIgnore ⟨1, 9, .erc1155, .live, some 5⟩)

/-- A batch minted to owner 7 in block 8. -/
def batchLog (ids values : List Nat) : RpcLog := ⟨9, 8, 80, 508, 0, .transferBatch 0 7 ids values⟩

/-- The commit of the block that holds the log. -/
def batchCommit (log : RpcLog) : SyncRangeCommit where
  result :=
    { checkpoint := ⟨0⟩
      canonicalCheck := ⟨20, 2⟩
      collections := [⟨1, 9, .erc1155, .live, some 5⟩]
      blocks := [⟨8, 80, 70, 1008⟩]
      data := { OnChainData.empty with nftTransferEvents := log.transfersOf scopeOne 1 } }
  followUps := []
  completion := .unmanaged

theorem batchCommit_acquiredUnder (log : RpcLog) : (batchCommit log).result.AcquiredUnder 1 5 := by
  refine ⟨fun _ => ⟨_, List.mem_singleton.mpr rfl, rfl⟩, fun r hr _ => ?_⟩
  rw [List.mem_singleton.mp hr]

theorem erc1155Logs_batchLog (ids values : List Nat) : Erc1155Logs 5 [batchLog ids values] := by
  refine ⟨List.nodup_singleton _, ?_, ?_, ?_⟩
  · intro log hlog log' hlog' _ _
    rw [List.mem_singleton.mp hlog, List.mem_singleton.mp hlog']
  · intro log hlog
    rw [List.mem_singleton.mp hlog]
    exact trivial
  · intro log hlog
    rw [List.mem_singleton.mp hlog]
    exact (by decide : 5 < 8)

theorem carries_batchCommit (log : RpcLog) (n : Nat) :
    Carries scopeOne 1 (List.replicate (n + 1) (batchCommit log)) [log] := by
  constructor
  · intro input hinput e he
    rw [List.eq_of_mem_replicate hinput] at he
    exact ⟨log, List.mem_singleton.mpr rfl, (List.mem_filter.mp he).1⟩
  intro log' hlog'
  rw [List.mem_singleton.mp hlog']
  refine ⟨batchCommit log, List.mem_replicate.mpr ⟨by omega, rfl⟩, fun e he => ?_⟩
  exact List.mem_filter.mpr ⟨he, (List.mem_filter.mp he).2⟩

theorem notStored_erc1155Db (logs : List RpcLog) : NotStored erc1155Db 1 logs :=
  fun _ hr => absurd hr (by simp [erc1155Db, Db.fresh])

theorem erc1155_items_counted_iff_replay :
    ∃ projected db', CommitRun erc1155Db (List.replicate 2 (batchCommit (batchLog [4, 6] [2, 3])))
        projected db' ∧
      ItemsCounted scopeOne 1 [batchLog [4, 6] [2, 3]] projected erc1155Db db' := by
  obtain ⟨input, hinput⟩ : ∃ input, input = batchCommit (batchLog [4, 6] [2, 3]) := ⟨_, rfl⟩
  obtain ⟨db₁, hdb₁⟩ : ∃ db, db = ((commitSyncRange input).exec erc1155Db).2 := ⟨_, rfl⟩
  obtain ⟨db₂, hdb₂⟩ : ∃ db, db = ((commitSyncRange input).exec db₁).2 := ⟨_, rfl⟩
  have hok₁ : ((commitSyncRange input).exec erc1155Db).1 = .ok () := by
    rw [hinput]
    decide +kernel
  have hok₂ : ((commitSyncRange input).exec db₁).1 = .ok () := by
    rw [hdb₁, hinput]
    decide +kernel
  have hrun := CommitRun.cons (Prod.ext hok₁ hdb₁.symm)
    (CommitRun.cons (Prod.ext hok₂ hdb₂.symm) (CommitRun.nil db₂))
  rw [hinput] at hrun
  refine ⟨_, db₂, hrun, (erc1155_items_counted_iff hrun ?_ (erc1155Logs_batchLog _ _)
    (carries_batchCommit _ 1) (notStored_erc1155Db _)).mpr ?_⟩
  · intro input' hinput'
    have hsame : input' = batchCommit (batchLog [4, 6] [2, 3]) := by simpa using hinput'
    rw [hsame]
    exact batchCommit_acquiredUnder _
  · decide +kernel

theorem repeated_id_not_counted :
    ∃ projected db', CommitRun erc1155Db [batchCommit (batchLog [4, 4] [2, 3])] projected db' ∧
      (batchCommit (batchLog [4, 4] [2, 3])).result.AcquiredUnder 1 5 ∧
      Erc1155Logs 5 [batchLog [4, 4] [2, 3]] ∧
      Carries scopeOne 1 [batchCommit (batchLog [4, 4] [2, 3])] [batchLog [4, 4] [2, 3]] ∧
      NotStored erc1155Db 1 [batchLog [4, 4] [2, 3]] ∧
      (batchLog [4, 4] [2, 3]).moved scopeOne 1 "4" 7 = 5 ∧
      amountOf erc1155Db.balances ⟨1, "4", 7⟩ = 0 ∧ amountOf db'.balances ⟨1, "4", 7⟩ = 2 := by
  obtain ⟨db₁, hdb₁⟩ : ∃ db,
      db = ((commitSyncRange (batchCommit (batchLog [4, 4] [2, 3]))).exec erc1155Db).2 := ⟨_, rfl⟩
  have hok : ((commitSyncRange (batchCommit (batchLog [4, 4] [2, 3]))).exec erc1155Db).1 = .ok () := by
    decide +kernel
  refine ⟨_, db₁, .cons (Prod.ext hok hdb₁.symm) (.nil db₁), batchCommit_acquiredUnder _,
    erc1155Logs_batchLog _ _, carries_batchCommit _ 0, notStored_erc1155Db _, by decide +kernel,
    by decide +kernel, ?_⟩
  rw [hdb₁]
  decide +kernel

/-! ## 4. Rollbacks -/

/-- The ERC1155 transfers that a rollback from `fromBlock` reverses. -/
def reversedErc1155 (db : Db) (fromBlock : Nat) : List NftTransferEvent :=
  ((transfersFromBlock db.transfers fromBlock).filter (fun r => r.event.kind = .erc1155)).map (·.event)

/-- The key is of an ERC1155 collection: its record says so when the chain is rolled back, and the
commits brought no ERC721 event of it. -/
def IsErc1155Key (collections : Table CollectionRecord.id) (inputs : List SyncRangeCommit)
    (k : BalanceKey) : Prop :=
  (∀ r, collections.get? k.collectionId = some r → r.standard = .erc1155) ∧
    ∀ d ∈ deliveries inputs, d.event.collectionId = k.collectionId → d.event.kind = .erc1155

/-- The rollback leaves the ERC1155 amounts from before the commits, and reverses exactly the
transfers the commits projected. -/
def UndoesErc1155 (collections : Table CollectionRecord.id) (inputs : List SyncRangeCommit)
    (projected : List NftTransferEvent) (fromBlock : Nat) (before after rolled : Db) : Prop :=
  (∀ k, IsErc1155Key collections inputs k → amountOf rolled.balances k = amountOf before.balances k) ∧
    (reversedErc1155 after fromBlock).Perm (projected.filter (fun e => e.kind = .erc1155))

theorem amountOf_reverseBalances : ∀ {rows : List TransferRow} {balances : BalanceTable},
      amountOf (rows.foldl reverseBalances balances) k = amountOf balances k -
          totalDelta ((rows.filter (fun r => r.event.kind = .erc1155)).map (·.event)) k
  | [], balances => by simp [totalDelta]
  | r :: rest, balances => by
    rw [List.foldl_cons, amountOf_reverseBalances, reverseBalances]
    by_cases hkind : r.event.kind = .erc1155
    · have hback : amountOf (rollbackErc1155Transfer balances r) k =
          amountOf balances k - r.event.delta k := by
        rw [rollbackErc1155Transfer, amountOf_applyErc1155Transfer, movedTo_swap, NftTransferEvent.delta]
        omega
      rw [if_pos hkind, hback, List.filter_cons_of_pos (by simpa using hkind), List.map_cons,
        totalDelta, totalDelta, List.map_cons, List.sum_cons]
      omega
    · rw [if_neg hkind, List.filter_cons_of_neg (by simpa using hkind)]

theorem RollbackEffect.amountOf {plan : ReorgRollbackPlan} {snapshot : Erc721RollbackSnapshot}
    (heff : RollbackEffect plan snapshot db db')
    (hk : ∀ r, db.collections.get? k.collectionId = some r → r.standard = .erc1155) :
    Indexer.amountOf db'.balances k =
      Indexer.amountOf db.balances k - totalDelta (reversedErc1155 db plan.fromBlock) k := by
  have hnotread : ∀ read ∈ snapshot.owners, ¬ read.IsOf k.collectionId k.tokenId := by
    rintro read hread ⟨hcoll, -⟩
    have hscope : read.token ∈ selectRollbackTokens db plan.fromBlock :=
      heff.scope.mem_iff.mp (List.mem_map.mpr ⟨read, hread, rfl⟩)
    obtain ⟨t, -, ht⟩ := List.mem_filterMap.mp hscope
    split at ht
    · next record hrecord =>
      split at ht
      · next hstandard =>
        have htoken : t.1 = read.token.collectionId := by rw [← Option.some.inj ht]
        rw [htoken, hcoll] at hrecord
        rw [hk record hrecord] at hstandard
        exact absurd hstandard.1 (by decide)
      · cases ht
    · cases ht
  obtain ⟨hb, -⟩ := @restore_of_not_read snapshot.block k.collectionId k.tokenId db.collections
    snapshot.owners
    ((transfersFromBlock db.transfers plan.fromBlock).foldl reverseBalances db.balances)
    db.ownershipCheckpoints hnotread
  rw [← heff.balances] at hb
  have hsame : Indexer.amountOf db'.balances k = Indexer.amountOf
      ((transfersFromBlock db.transfers plan.fromBlock).foldl reverseBalances db.balances) k := by
    rw [Indexer.amountOf, Indexer.amountOf, hb k.owner]
  rw [hsame, amountOf_reverseBalances]
  rfl

/-- An ERC1155 transfer at or above the block. -/
def NftTransferEvent.inWindow (fromBlock : Nat) (e : NftTransferEvent) : Bool :=
  fromBlock ≤ e.blockNumber && e.kind = .erc1155

theorem reversedErc1155_perm (db : Db) (fromBlock : Nat) : (reversedErc1155 db fromBlock).Perm
      ((db.transfers.rows.map (·.event)).filter (NftTransferEvent.inWindow fromBlock)) := by
  have hrows : ((transfersFromBlock db.transfers fromBlock).filter (fun r => r.event.kind = .erc1155)).Perm
      (db.transfers.rows.filter (fun r => r.event.inWindow fromBlock)) := by
    refine (transfersFromBlock_perm.filter _).trans (List.Perm.of_eq ?_)
    rw [Table.select, List.filter_filter]
    refine List.filter_congr (fun r _ => ?_)
    rw [NftTransferEvent.inWindow, Bool.and_comm]
  rw [List.filter_map]
  exact hrows.map _

/-- After commits at or above the block, a rollback reverses the transfers that were there before
and the first seen ones. -/
theorem CommitRun.reversedErc1155_perm
    {projected : List NftTransferEvent} (h : CommitRun db inputs projected db')
    {fromBlock : Nat}
    (hblocks : ∀ input ∈ inputs, ∀ header ∈ input.result.blocks, fromBlock ≤ header.number) :
    (reversedErc1155 db' fromBlock).Perm
      ((db.transfers.rows.map (·.event)).filter (NftTransferEvent.inWindow fromBlock) ++
        ((firstSeen (storedKeys db) (deliveries inputs)).filter
          (fun d => d.event.kind = .erc1155)).map (·.event)) := by
  refine (Indexer.reversedErc1155_perm db' fromBlock).trans (List.Perm.of_eq ?_)
  rw [h.spec.1, List.filter_append, List.filter_map (l := firstSeen _ _)]
  refine congrArg _ (congrArg _ (List.filter_congr (fun d hd => ?_)))
  obtain ⟨input, hinput, header, hheader, hnumber⟩ :=
    h.mem_blocks d ((firstSeen_sublist _ _).subset hd)
  have hle : fromBlock ≤ d.event.blockNumber := hnumber ▸ hblocks input hinput header hheader
  simp [NftTransferEvent.inWindow, hle]

/-- **A rollback undoes ERC1155 projection exactly when** no ERC1155 transfer of the window was
stored before the commits, and every ERC1155 transfer that the commits saw first was projected. -/
theorem rollback_undoes_erc1155_iff {inputs : List SyncRangeCommit}
    {projected : List NftTransferEvent} {db db₁ db₂ : Db} {later : Table CollectionRecord.id}
    {plan : ReorgRollbackPlan} {snapshot : Erc721RollbackSnapshot}
    (hrun : CommitRun db inputs projected db₁)
    (hblocks : ∀ input ∈ inputs, ∀ header ∈ input.result.blocks, plan.fromBlock ≤ header.number)
    (hroll : Tx.Returns (rollbackFromBlock plan snapshot) { db₁ with collections := later } () db₂) :
    UndoesErc1155 later inputs projected plan.fromBlock db db₁ db₂ ↔
      (∀ r ∈ db.transfers, r.event.kind = .erc1155 → r.event.blockNumber < plan.fromBlock) ∧
        ∀ d ∈ firstSeen (storedKeys db) (deliveries inputs), d.event.kind = .erc1155 →
          d.projected = true := by
  have hperm := hrun.reversedErc1155_perm hblocks
  have hprojected : projected.filter (fun e => e.kind = .erc1155) =
      (((firstSeen (storedKeys db) (deliveries inputs)).filter
        (fun d => d.event.kind = .erc1155)).filter (·.projected)).map (·.event) := by
    rw [hrun.spec.2, List.filter_map, List.filter_filter, List.filter_filter]
    refine congrArg _ (List.filter_congr (fun d _ => ?_))
    exact Bool.and_comm _ _
  constructor
  · rintro ⟨-, hexact⟩
    have hlength := (hperm.symm.trans hexact).length_eq
    rw [hprojected, List.length_append, List.length_map, List.length_map] at hlength
    have hle := List.length_filter_le (·.projected)
      ((firstSeen (storedKeys db) (deliveries inputs)).filter (fun d => d.event.kind = .erc1155))
    refine ⟨fun r hr hkind => ?_, fun d hd hkind => ?_⟩
    · by_contra hge
      have hmem : r.event ∈
          (db.transfers.rows.map (·.event)).filter (NftTransferEvent.inWindow plan.fromBlock) :=
        List.mem_filter.mpr ⟨List.mem_map.mpr ⟨r, hr, rfl⟩, by
          simp [NftTransferEvent.inWindow, hkind, Nat.le_of_not_lt hge]⟩
      have := List.length_pos_of_mem hmem
      omega
    · have hall := List.length_filter_eq_length_iff.mp
        (show (((firstSeen (storedKeys db) (deliveries inputs)).filter
          (fun d => d.event.kind = .erc1155)).filter (·.projected)).length = _ by omega)
      exact hall d (List.mem_filter.mpr ⟨hd, by simpa using hkind⟩)
  · rintro ⟨hbefore, hseen⟩
    have hexact : (reversedErc1155 db₁ plan.fromBlock).Perm
        (projected.filter (fun e => e.kind = .erc1155)) := by
      have hnone : (db.transfers.rows.map (·.event)).filter
          (NftTransferEvent.inWindow plan.fromBlock) = [] := by
        rw [List.filter_eq_nil_iff]
        intro e he
        obtain ⟨r, hr, rfl⟩ := List.mem_map.mp he
        simp only [NftTransferEvent.inWindow, Bool.and_eq_true, decide_eq_true_eq, not_and]
        exact fun hge hkind => absurd (hbefore r hr hkind) (Nat.not_lt.mpr hge)
      have hall : ((firstSeen (storedKeys db) (deliveries inputs)).filter
            (fun d => d.event.kind = .erc1155)).filter (·.projected) =
          (firstSeen (storedKeys db) (deliveries inputs)).filter (fun d => d.event.kind = .erc1155) := by
        rw [List.filter_eq_self]
        intro d hd
        obtain ⟨hd, hkind⟩ := List.mem_filter.mp hd
        exact hseen d hd (by simpa using hkind)
      rw [hprojected, hall]
      rw [hnone, List.nil_append] at hperm
      exact hperm
    refine ⟨fun k hk => ?_, hexact⟩
    have hkinds : projected.filter (fun e => e.collectionId = k.collectionId) =
        (projected.filter (fun e => e.kind = .erc1155)).filter
          (fun e => e.collectionId = k.collectionId) := by
      rw [List.filter_filter]
      refine List.filter_congr (fun e he => ?_)
      rw [hrun.spec.2, List.mem_map] at he
      obtain ⟨d, hd, rfl⟩ := he
      have hmem := (firstSeen_sublist _ _).subset (List.mem_filter.mp hd).1
      by_cases hc : d.event.collectionId = k.collectionId
      · simp [hc, hk.2 d hmem hc]
      · simp [hc]
    have htotal : totalDelta projected k = totalDelta (reversedErc1155 db₁ plan.fromBlock) k := by
      rw [totalDelta_perm hexact, ← totalDelta_filter, hkinds, totalDelta_filter]
    have hback : amountOf db₂.balances k =
        amountOf db₁.balances k - totalDelta (reversedErc1155 db₁ plan.fromBlock) k :=
      (rollbackFromBlock_effect hroll).amountOf hk.1
    rw [hback, hrun.amountOf hk.2, htotal]
    omega

/-- Roll back from block 8, where no ERC721 token is touched. -/
def planFromEight : ReorgRollbackPlan := ⟨⟨0⟩, 8, []⟩

def snapshotAtSeven : Erc721RollbackSnapshot := ⟨⟨7, 70, 60, 1007⟩, []⟩

theorem rollback_undoes_erc1155_iff_anchored : ∃ projected db₁ db₂,
      CommitRun erc1155Db [batchCommit (batchLog [4] [2])] projected db₁ ∧
      Tx.Returns (rollbackFromBlock planFromEight snapshotAtSeven)
        { db₁ with collections := erc1155Db.collections } () db₂ ∧
      UndoesErc1155 erc1155Db.collections [batchCommit (batchLog [4] [2])] projected 8 erc1155Db db₁
        db₂ := by
  obtain ⟨db₁, hdb₁⟩ : ∃ db,
      db = ((commitSyncRange (batchCommit (batchLog [4] [2]))).exec erc1155Db).2 := ⟨_, rfl⟩
  obtain ⟨db₂, hdb₂⟩ : ∃ db, db = ((rollbackFromBlock planFromEight snapshotAtSeven).exec
      { db₁ with collections := erc1155Db.collections }).2 := ⟨_, rfl⟩
  have hok₁ : ((commitSyncRange (batchCommit (batchLog [4] [2]))).exec erc1155Db).1 = .ok () := by
    decide +kernel
  have hok₂ : ((rollbackFromBlock planFromEight snapshotAtSeven).exec
      { db₁ with collections := erc1155Db.collections }).1 = .ok () := by
    rw [hdb₁]
    decide +kernel
  have hrun := CommitRun.cons (Prod.ext hok₁ hdb₁.symm) (CommitRun.nil db₁)
  have hroll : Tx.Returns (rollbackFromBlock planFromEight snapshotAtSeven)
      { db₁ with collections := erc1155Db.collections } () db₂ := Prod.ext hok₂ hdb₂.symm
  refine ⟨_, db₁, db₂, hrun, hroll, (rollback_undoes_erc1155_iff hrun ?_ hroll).mpr ⟨?_, ?_⟩⟩
  · decide +kernel
  · decide +kernel
  · decide +kernel

/-- The same collection before its anchor is set. -/
def unanchoredDb : Db := Db.fresh (Table.empty.insertOrIgnore ⟨1, 9, .erc1155, .bootstrapping, none⟩)

def unanchoredCommit : SyncRangeCommit :=
  { batchCommit (batchLog [4] [2]) with
    result :=
      { (batchCommit (batchLog [4] [2])).result with
        collections := [⟨1, 9, .erc1155, .bootstrapping, none⟩] } }

/-- **A rollback takes from owner 7 what no commit gave**: the transfer is stored without being
projected, and reversing it leaves a negative amount. -/
theorem unprojected_transfer_reversed : ∃ projected db₁ db₂,
      CommitRun unanchoredDb [unanchoredCommit] projected db₁ ∧
      (∀ header ∈ unanchoredCommit.result.blocks, planFromEight.fromBlock ≤ header.number) ∧
      Tx.Returns (rollbackFromBlock planFromEight snapshotAtSeven) db₁ () db₂ ∧
      amountOf unanchoredDb.balances ⟨1, "4", 7⟩ = 0 ∧
      amountOf db₂.balances ⟨1, "4", 7⟩ = -2 := by
  obtain ⟨db₁, hdb₁⟩ : ∃ db, db = ((commitSyncRange unanchoredCommit).exec unanchoredDb).2 :=
    ⟨_, rfl⟩
  obtain ⟨db₂, hdb₂⟩ : ∃ db, db = ((rollbackFromBlock planFromEight snapshotAtSeven).exec db₁).2 := ⟨_, rfl⟩
  have hok₁ : ((commitSyncRange unanchoredCommit).exec unanchoredDb).1 = .ok () := by
    decide +kernel
  have hok₂ : ((rollbackFromBlock planFromEight snapshotAtSeven).exec db₁).1 = .ok () := by
    rw [hdb₁]
    decide +kernel
  refine ⟨_, db₁, db₂, .cons (Prod.ext hok₁ hdb₁.symm) (.nil db₁), by decide +kernel,
    Prod.ext hok₂ hdb₂.symm, by decide +kernel, ?_⟩
  rw [hdb₂, hdb₁]
  decide +kernel

end Artgod.Indexer
