/-
# Projecting transfers into current balances

`applyBalanceUpdatesFromEvents` (`sqlite.ts`, `domain/ownership.ts`).  An ERC721 event replaces the balance
rows of its token by the owner that the latest stored transfer or the checkpoint names; an ERC1155 event adds
its amount to one row and takes it from another, so it counts each time it is applied.
-/
import Artgod.Indexer.Persist
import Mathlib.Data.List.MinMax
import Mathlib.Data.Prod.Lex

namespace Artgod.Indexer

open Store

abbrev BalanceTable := Table BalanceRow.key

/-! ## 1. Rows of `nft_balances` -/

def upsertBalance (balances : BalanceTable) (row : BalanceRow) : BalanceTable :=
  balances.upsert row (fun stored => { stored with amount := row.amount, last := row.last })
    (fun _ => rfl)

/-- The amount of an owner, a missing row being zero. -/
def amountOf (balances : BalanceTable) (k : BalanceKey) : Int :=
  (balances.get? k).elim 0 (·.amount)

/-- `applyBalanceDelta`: a balance of zero has no row. -/
def applyBalanceDelta (balances : BalanceTable) (k : BalanceKey) (contract : Address)
    (delta : Int) (context : BalanceContext) : BalanceTable :=
  let nextAmount := amountOf balances k + delta
  if nextAmount = 0 then balances.deleteWhere (fun r => r.key = k)
  else upsertBalance balances ⟨k, contract, nextAmount, context⟩

variable {k : BalanceKey} {balances : BalanceTable} {contract : Address} {c : CollectionId}
  {tokenId : TokenId} {context : BalanceContext} {db db' : Db}

/-- **A delta adds to the amount at its key and leaves every other amount alone.** -/
theorem amountOf_applyBalanceDelta {k' : BalanceKey}
    {delta : Int} :
    amountOf (applyBalanceDelta balances k contract delta context) k' =
      amountOf balances k' + if k = k' then delta else 0 := by
  simp only [applyBalanceDelta]
  split
  · next hzero =>
    by_cases hk : k = k'
    · subst hk
      have hnone : (balances.deleteWhere (fun r => r.key = k)).get? k = none := by
        rw [Table.get?_eq_none]
        intro r hr
        simpa using (Table.mem_deleteWhere.mp hr).2
      rw [if_pos rfl, hzero, amountOf, hnone]
      rfl
    · rw [if_neg hk, Int.add_zero, amountOf, amountOf, Table.get?_deleteWhere]
      cases hg : balances.get? k' with
      | none => rfl
      | some r =>
        have hr : r.key ≠ k := fun h => hk (h.symm.trans (Table.get?_eq_some.mp hg).2)
        simp [Option.filter_some, hr]
  · rw [amountOf, upsertBalance, Table.get?_upsert]
    by_cases hk : k = k'
    · subst hk
      rw [if_pos rfl, if_pos rfl]
      cases hg : balances.get? k with
      | none => simp [amountOf, hg]
      | some r => simp [amountOf, hg]
    · rw [if_neg hk, if_neg hk, Int.add_zero]
      rfl

/-! ## 2. ERC1155 -/

/-- `applyErc1155Transfer`: take the amount from `src` and add it to `dst`; the zero address is a
mint or a burn and holds no balance. -/
def applyErc1155Transfer (balances : BalanceTable) (collectionId : CollectionId)
    (contract : Address) (tokenId : TokenId) (src dst : Address) (amount : Nat)
    (context : BalanceContext) : BalanceTable :=
  let debited :=
    if src ≠ zeroAddress then
      applyBalanceDelta balances ⟨collectionId, tokenId, src⟩ contract (-amount) context
    else balances
  if dst ≠ zeroAddress then
    applyBalanceDelta debited ⟨collectionId, tokenId, dst⟩ contract amount context
  else debited

/-- The key belongs to the token's balance of an address that can hold one. -/
def HeldAt (collectionId : CollectionId) (tokenId : TokenId) (owner : Address) (k : BalanceKey) : Prop :=
  owner ≠ zeroAddress ∧ (⟨collectionId, tokenId, owner⟩ : BalanceKey) = k

instance (c : CollectionId) (tokenId : TokenId) (owner : Address) (k : BalanceKey) :
    Decidable (HeldAt c tokenId owner k) :=
  inferInstanceAs (Decidable (_ ∧ _))

/-- The signed amount that moving `amount` of a token from `src` to `dst` brings to `k`. -/
def movedTo (collectionId : CollectionId) (tokenId : TokenId) (src dst : Address) (amount : Nat)
    (k : BalanceKey) : Int :=
  (if HeldAt collectionId tokenId dst k then (amount : Int) else 0) -
    (if HeldAt collectionId tokenId src k then (amount : Int) else 0)

theorem amountOf_deltaUnlessZero {owner : Address} {delta : Int} :
    amountOf (if owner ≠ zeroAddress then
        applyBalanceDelta balances ⟨c, tokenId, owner⟩ contract delta context
      else balances) k =
      amountOf balances k + if HeldAt c tokenId owner k then delta else 0 := by
  by_cases ho : owner = zeroAddress
  · simp [HeldAt, ho]
  · rw [if_pos ho, amountOf_applyBalanceDelta]
    simp [HeldAt, ho]

variable {dst src : Address} {amount : Nat} {headers : List SyncBlockHeader}
  {event : NftTransferEvent} {b b' : BalanceTable}

theorem amountOf_applyErc1155Transfer :
    amountOf (applyErc1155Transfer balances c contract tokenId src dst amount context) k =
      amountOf balances k + movedTo c tokenId src dst amount k := by
  simp only [applyErc1155Transfer, movedTo]
  rw [amountOf_deltaUnlessZero, amountOf_deltaUnlessZero]
  split <;> split <;> omega

theorem movedTo_swap : movedTo c tokenId dst src amount k = -movedTo c tokenId src dst amount k := by
  simp only [movedTo]
  omega

/-- The signed amount an ERC1155 event brings to `k`. -/
def NftTransferEvent.delta (e : NftTransferEvent) (k : BalanceKey) : Int :=
  movedTo e.collectionId e.tokenId e.fromAddress e.toAddress e.amount k

/-! ## 3. ERC721 -/

structure Erc721OwnershipState where
  owner : Option Address
  context : BalanceContext

/-- The order `(block_number, log_index)` that decides which transfer is the latest. -/
def TransferRow.position (r : TransferRow) : Nat ×ₗ Nat :=
  toLex (r.event.blockNumber, r.event.logIndex)

def selectLatestTransfer (transfers : Table TransferRow.key) (collectionId : CollectionId)
    (tokenId : TokenId) : Option TransferRow :=
  (transfers.select (fun r => r.event.collectionId = collectionId && r.event.tokenId = tokenId)).argmax
    TransferRow.position

/-- The ownership a stored transfer proves: a transfer to the zero address is a burn. -/
def TransferRow.ownership (r : TransferRow) : Erc721OwnershipState where
  owner := if r.event.toAddress = zeroAddress then none else some r.event.toAddress
  context := ⟨r.event.blockNumber, r.event.blockHash, r.blockTimestamp, r.event.txHash, r.event.logIndex⟩

/-- `selectOwnershipCheckpoint`: a checkpoint counts while its collection still has the anchor it
was written under. -/
def selectOwnershipCheckpoint (db : Db) (collectionId : CollectionId) (tokenId : TokenId) :
    Option OwnershipCheckpointRow :=
  match db.ownershipCheckpoints.get? (collectionId, tokenId), db.collections.get? collectionId with
  | some p, some c => if p.bootstrapAnchorBlock = c.bootstrapAnchorBlock then some p else none
  | _, _ => none

/-- The ownership a checkpoint proves. -/
def OwnershipCheckpointRow.ownership (p : OwnershipCheckpointRow) : Erc721OwnershipState where
  owner := p.owner
  context := ⟨p.blockNumber, p.blockHash, p.blockTimestamp, zeroHash, 0⟩

/-- `resolveErc721Ownership`: a checkpoint describes the whole of its block, so facts of that block
or earlier cannot supersede it. -/
def resolveErc721Ownership (latestTransfer checkpoint : Option Erc721OwnershipState) :
    Except SyncError Erc721OwnershipState :=
  match latestTransfer, checkpoint with
  | none, some c => .ok c
  | some l, some c => if l.context.blockNumber ≤ c.context.blockNumber then .ok c else .ok l
  | some l, none => .ok l
  | none, none => .error (.error "Missing persisted ERC721 ownership")

def replaceErc721Ownership (balances : BalanceTable) (collectionId : CollectionId)
    (contract : Address) (tokenId : TokenId) (state : Erc721OwnershipState) : BalanceTable :=
  let cleared :=
    balances.deleteWhere (fun r => r.key.collectionId = collectionId && r.key.tokenId = tokenId)
  match state.owner with
  | none => cleared
  | some owner => upsertBalance cleared ⟨⟨collectionId, tokenId, owner⟩, contract, 1, state.context⟩

theorem get?_replaceErc721Ownership {state : Erc721OwnershipState} :
    (replaceErc721Ownership balances c contract tokenId state).get? k =
      if k.collectionId = c ∧ k.tokenId = tokenId then
        if state.owner = some k.owner then some ⟨k, contract, 1, state.context⟩ else none
      else balances.get? k := by
  have hcleared : (balances.deleteWhere
        (fun r => r.key.collectionId = c && r.key.tokenId = tokenId)).get? k =
      if k.collectionId = c ∧ k.tokenId = tokenId then none else balances.get? k := by
    rw [Table.get?_deleteWhere]
    cases hg : balances.get? k with
    | none => simp
    | some r =>
      have hr : r.key = k := (Table.get?_eq_some.mp hg).2
      simp only [Option.filter_some, hr]
      by_cases hk : k.collectionId = c ∧ k.tokenId = tokenId
      · simp [hk.1, hk.2]
      · rw [if_neg hk]
        rw [not_and_or] at hk
        rcases hk with hk | hk <;> simp [hk]
  simp only [replaceErc721Ownership]
  cases ho : state.owner with
  | none =>
    simp only [hcleared]
    split <;> simp
  | some owner =>
    simp only [upsertBalance, Table.get?_upsert, hcleared]
    by_cases hk : k.collectionId = c ∧ k.tokenId = tokenId
    · rw [if_pos hk, if_pos hk]
      by_cases hown : owner = k.owner
      · have hkey : (⟨c, tokenId, owner⟩ : BalanceKey) = k := by
          cases k
          simp_all
        rw [if_pos hkey, if_pos (by rw [hown])]
        simp [hkey]
      · rw [if_neg, if_neg]
        · simpa using hown
        · intro h
          exact hown (by rw [← h])
    · rw [if_neg, if_neg hk, if_neg hk]
      intro h
      exact hk (by rw [← h]; exact ⟨rfl, rfl⟩)

/-! ## 4. The projection -/

/-- One iteration of `applyBalanceUpdatesFromEvents`. -/
def applyBalanceUpdate (headers : List SyncBlockHeader) (event : NftTransferEvent) : StoreM Unit := do
  let db ← get
  match event.kind with
  | .erc721 =>
    -- gap repairs can arrive behind newer ranges: project the latest persisted transfer
    let latest := selectLatestTransfer db.transfers event.collectionId event.tokenId
    let checkpoint := selectOwnershipCheckpoint db event.collectionId event.tokenId
    let state ← Tx.check (resolveErc721Ownership (latest.map TransferRow.ownership)
      (checkpoint.map OwnershipCheckpointRow.ownership))
    set { db with
      balances :=
        replaceErc721Ownership db.balances event.collectionId event.contract event.tokenId state }
  | .erc1155 =>
    let blockTimestamp ← Tx.check (resolveBlockTimestamp headers event.blockNumber)
    set { db with
      balances :=
        applyErc1155Transfer db.balances event.collectionId event.contract event.tokenId
          event.fromAddress event.toAddress event.amount
          ⟨event.blockNumber, event.blockHash, blockTimestamp, event.txHash, event.logIndex⟩ }

def applyBalanceUpdatesFromEvents (headers : List SyncBlockHeader)
    (events : List NftTransferEvent) : StoreM Unit :=
  events.forM (applyBalanceUpdate headers)

/-- What projecting one event does to the balances; the facts it reads are those of `db`. -/
inductive Projects (db : Db) (event : NftTransferEvent) (before after : BalanceTable) : Prop where
  | erc721 (state : Erc721OwnershipState) (hkind : event.kind = .erc721)
      (hstate : resolveErc721Ownership
        ((selectLatestTransfer db.transfers event.collectionId event.tokenId).map TransferRow.ownership)
        ((selectOwnershipCheckpoint db event.collectionId event.tokenId).map
          OwnershipCheckpointRow.ownership) = .ok state)
      (hafter : after = replaceErc721Ownership before event.collectionId event.contract event.tokenId state)
  | erc1155 (context : BalanceContext) (hkind : event.kind = .erc1155)
      (hcontext : context.blockNumber = event.blockNumber)
      (hafter : after = applyErc1155Transfer before event.collectionId event.contract
        event.tokenId event.fromAddress event.toAddress event.amount context)

/-- Projecting a list of events, in order. -/
inductive ProjectsAll (db : Db) : List NftTransferEvent → BalanceTable → BalanceTable → Prop where
  | nil (balances : BalanceTable) : ProjectsAll db [] balances balances
  | cons {event : NftTransferEvent} {rest : List NftTransferEvent} {b₀ b₁ b₂ : BalanceTable}
      (head : Projects db event b₀ b₁) (tail : ProjectsAll db rest b₁ b₂) :
      ProjectsAll db (event :: rest) b₀ b₂

theorem applyBalanceUpdate_projects
    {u : Unit} (h : Tx.Returns (applyBalanceUpdate headers event) db u db') :
    ∃ b', db' = { db with balances := b' } ∧ Projects db event db.balances b' := by
  simp only [applyBalanceUpdate, Tx.returns_bind, Tx.returns_get] at h
  obtain ⟨_, _, ⟨rfl, rfl⟩, h⟩ := h
  cases hkind : event.kind with
  | erc721 =>
    simp only [hkind, Tx.returns_bind, Tx.returns_check, Tx.returns_set] at h
    obtain ⟨state, _, ⟨hstate, rfl⟩, rfl⟩ := h
    exact ⟨_, rfl, .erc721 state hkind hstate rfl⟩
  | erc1155 =>
    simp only [hkind, Tx.returns_bind, Tx.returns_check, Tx.returns_set] at h
    obtain ⟨ts, _, ⟨-, rfl⟩, rfl⟩ := h
    exact ⟨_, rfl, .erc1155 _ hkind rfl rfl⟩

theorem Projects.congr (h : Projects db event b b') (ht : db'.transfers = db.transfers)
    (hp : db'.ownershipCheckpoints = db.ownershipCheckpoints)
    (hc : db'.collections = db.collections) : Projects db' event b b' := by
  cases h with
  | erc721 state hkind hstate hafter =>
    refine .erc721 state hkind ?_ hafter
    rw [ht, show selectOwnershipCheckpoint db' event.collectionId event.tokenId =
      selectOwnershipCheckpoint db event.collectionId event.tokenId by
        simp only [selectOwnershipCheckpoint, hp, hc]]
    exact hstate
  | erc1155 context hkind hcontext hafter => exact .erc1155 context hkind hcontext hafter

theorem ProjectsAll.congr {events : List NftTransferEvent}
    (h : ProjectsAll db events b b') (ht : db'.transfers = db.transfers)
    (hp : db'.ownershipCheckpoints = db.ownershipCheckpoints)
    (hc : db'.collections = db.collections) : ProjectsAll db' events b b' := by
  induction h with
  | nil b => exact .nil b
  | cons head _ ih => exact .cons (head.congr ht hp hc) ih

theorem applyBalanceUpdatesFromEvents_projects :
    ∀ {events : List NftTransferEvent} {db db' : Db} {u : Unit},
      Tx.Returns (applyBalanceUpdatesFromEvents headers events) db u db' →
      ∃ b', db' = { db with balances := b' } ∧ ProjectsAll db events db.balances b'
  | [], db, db', u, h => by
    rw [applyBalanceUpdatesFromEvents, Tx.returns_forM_nil] at h
    subst h
    exact ⟨_, rfl, .nil _⟩
  | event :: rest, db, db', u, h => by
    obtain ⟨v, db₁, hhead, htail⟩ := Tx.returns_forM_cons.mp h
    obtain ⟨b₁, rfl, hp₁⟩ := applyBalanceUpdate_projects hhead
    obtain ⟨b₂, rfl, hp₂⟩ := applyBalanceUpdatesFromEvents_projects htail
    exact ⟨b₂, rfl, .cons hp₁ (hp₂.congr rfl rfl rfl)⟩

end Artgod.Indexer
