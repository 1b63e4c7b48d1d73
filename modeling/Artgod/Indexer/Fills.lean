/-
# Fill executions and their attributions

The immutable facts of an order execution (`shared/market-data/fills.ts`) and the part of the writer that
stores them.  An execution is stored once, with all its items; an attribution ties one item to a tracked
collection and carries the block of its execution, so that a rollback removes both.
-/
import Artgod.Indexer.SyncResult
import Mathlib.Data.List.Dedup
import Mathlib.Algebra.Group.Nat.Defs

namespace Artgod.Indexer

open Store

/-! ## 1. Amounts -/

/-- The number a run of decimal digits denotes. -/
def digitsValue (digits : List Char) : Nat :=
  digits.foldl (fun n c => n * 10 + (c.toNat - '0'.toNat)) 0

/-- `unsignedAmount`: one to 78 decimal digits below `2 ^ 256`. -/
def unsignedAmount (value : String) : Except SyncError Nat :=
  let digits := value.toList
  if digits ≠ [] ∧ digits.length ≤ 78 ∧ digits.all Char.isDigit = true ∧ digitsValue digits < 2 ^ 256 then
    .ok (digitsValue digits)
  else .error (.error "Invalid fill amount")

def positiveQuantity (value : String) : Except SyncError Nat := do
  let quantity ← unsignedAmount value
  if quantity = 0 then .error (.error "Invalid fill quantity") else .ok quantity

/-- `n + f(item)` over the items, in order. -/
def sumAmounts (f : String → Except SyncError Nat) (items : List FillExecutionItem) :
    Except SyncError Nat :=
  items.foldlM (fun n item => do return n + (← f item.amount)) 0

/-! ## 2. The monetary shape of an execution -/

/-- `FILL_ITEM_TYPE`: native 0, erc20 1, erc721 2, erc1155 3, criteria721 4, criteria1155 5. -/
def isFillNftItem (item : FillExecutionItem) : Bool := 2 ≤ item.itemType ∧ item.itemType ≤ 5

/-- The identity text of `haveSameConcreteNfts`, as its parts. -/
def concreteNftIdentity (item : FillExecutionItem) : Except SyncError (Int × Address × Nat × Nat) := do
  let identifier ← unsignedAmount item.identifier
  let amount ← unsignedAmount item.amount
  return (item.itemType, item.contract, identifier, amount)

/-- The second loop of `haveSameConcreteNfts`: take each offered item out of the multiset. -/
def matchOffered (unmatched : List (Int × Address × Nat × Nat)) :
    List FillExecutionItem → Except SyncError Bool
  | [] => .ok true
  | item :: rest => do
    let key ← concreteNftIdentity item
    if key ∈ unmatched then matchOffered (unmatched.erase key) rest else .ok false

def haveSameConcreteNfts (offered considered : List FillExecutionItem) : Except SyncError Bool :=
  if offered.length ≠ considered.length ∨ (offered ++ considered).any (fun i => 3 < i.itemType)
  then .ok false
  else do
    let unmatched ← considered.mapM concreteNftIdentity
    matchOffered unmatched offered

/-- `resolveFillNftSide`: the leg that carries the sold units. -/
def resolveFillNftSide (items : List FillExecutionItem) : Except SyncError (Option FillItemSide) := do
  let offered := items.filter (fun i => isFillNftItem i && i.side = .offer)
  let considered := items.filter (fun i => isFillNftItem i && i.side = .consideration)
  if offered = [] ∧ considered = [] then return none
  else if considered = [] then return some .offer
  else if offered = [] then return some .consideration
  else if (← haveSameConcreteNfts offered considered) = false then return none
  else
    let paymentSides : List FillItemSide :=
      ((items.filter (fun i => i.itemType = 0 || i.itemType = 1)).map (·.side)).dedup
    if paymentSides.length ≠ 1 then return none
    else if FillItemSide.offer ∈ paymentSides then return some .consideration
    else return some .offer

/-- The item counts towards the sold quantity. -/
def isSoldNft (nftSide : Option FillItemSide) (item : FillExecutionItem) : Bool :=
  isFillNftItem item && (nftSide = none || some item.side = nftSide)

def summarizeFillPayment (items : List FillExecutionItem) : Except SyncError FillPayment := do
  let nftSide ← resolveFillNftSide items
  let nfts := items.filter (isSoldNft nftSide)
  let nftQuantity ← sumAmounts positiveQuantity nfts
  let excluded := fun (exclusion : FillPriceExclusion) =>
    (⟨some exclusion, none, none, nftQuantity⟩ : FillPayment)
  if items.any (fun i => i.itemType < 0 || 3 < i.itemType) then
    return excluded .unsupportedItems
  match nftSide with
  | none => return excluded (if nfts = [] then .unsupportedItems else .swap)
  | some side =>
    let money := items.filter (fun i => !isFillNftItem i)
    match money with
    | [] => return excluded .noPayment
    | first :: _ =>
      if (money.map (·.contract)).dedup.length ≠ 1 then return excluded .mixedPayment
      let payments := money.filter (fun i => i.side ≠ side)
      if payments = [] then return excluded .noPayment
      let total ← sumAmounts unsignedAmount payments
      let returned := money.filter (fun i => i.side = side)
      if returned ≠ [] then
        if side = .offer then return excluded .mixedPayment
        if total < (← sumAmounts unsignedAmount returned) then return excluded .mixedPayment
      return ⟨none, some total, some first.contract, nftQuantity⟩

/-- The `map` of `prepareFillExecution`: check each item and prefix the sold units. -/
def prepareItems (nftSide : Option FillItemSide) :
    Nat → Nat → List FillExecutionItem → Except SyncError (List FillExecutionItemRow)
  | _, _, [] => .ok []
  | index, offset, item :: rest => do
    if item.index ≠ index then
      .error (.error "Invalid fill execution item identity")
    let _ ← unsignedAmount item.identifier
    let _ ← unsignedAmount item.amount
    let units ← if isSoldNft nftSide item then positiveQuantity item.amount else .ok 0
    let rows ← prepareItems nftSide (index + 1) (offset + units) rest
    return ⟨item, offset⟩ :: rows

def prepareFillExecution (execution : FillExecution) :
    Except SyncError (FillPayment × List FillExecutionItemRow) := do
  let nftSide ← resolveFillNftSide execution.items
  let items ← prepareItems nftSide 0 0 execution.items
  let payment ← summarizeFillPayment execution.items
  return (payment, items)

def fillAttributionItem (execution : FillExecution) (index : Nat) (contract : Address)
    (tokenId : TokenId) (amount : Option String) : Except SyncError FillExecutionItem := do
  let nftSide ← resolveFillNftSide execution.items
  match execution.items[index]? with
  | none => .error (.error "Fill attribution contradicts execution item")
  | some item =>
    if isFillNftItem item = false ∨ 3 < item.itemType ∨
        (nftSide ≠ none ∧ some item.side ≠ nftSide) ∨ item.index ≠ index ∨
        item.contract ≠ contract ∨ item.identifier ≠ tokenId ∨ some item.amount ≠ amount then
      .error (.error "Fill attribution contradicts execution item")
    else .ok item

/-! ## 3. Storing them -/

/-- `resolveBlockTimestamp` over the map built from the result's headers. -/
def resolveBlockTimestamp (blocks : List SyncBlockHeader) (blockNumber : Nat) : Except SyncError Nat :=
  match headerAt blocks blockNumber with
  | some block => .ok block.timestamp
  | none => .error (.error s!"Missing block timestamp for block {blockNumber}")

structure FillExecutionWrite where
  executionId : FillExecutionId
  blockNumber : Nat
  blockHash : Hash
  blockTimestamp : Nat
  execution : FillExecution
deriving DecidableEq

variable (fill : FillEvent)

def FillEvent.executionId : FillExecutionId :=
  ⟨fill.kind.getD "unknown", fill.txHash, fill.logIndex⟩

def FillEvent.executionWrite (blockTimestamp : Nat) : FillExecutionWrite where
  executionId := fill.executionId
  blockNumber := fill.blockNumber
  blockHash := fill.blockHash
  blockTimestamp := blockTimestamp
  execution := fill.execution

/-- The header and item rows that `persistFillExecution` compares or inserts. -/
def FillExecutionWrite.row (input : FillExecutionWrite) (payment : FillPayment)
    (items : List FillExecutionItemRow) : FillExecutionRow where
  id := input.executionId
  protocolAddress := input.execution.protocolAddress
  blockNumber := input.blockNumber
  blockHash := input.blockHash
  blockTimestamp := input.blockTimestamp
  payment := payment
  items := items

def persistFillExecution (input : FillExecutionWrite) : StoreM Unit := do
  let prepared ← Tx.check (prepareFillExecution input.execution)
  let row := input.row prepared.1 prepared.2
  let db ← get
  match db.fillExecutions.get? input.executionId with
  | some existing =>
    Tx.throwIf (existing ≠ row) (.error "Conflicting immutable fill execution")
  | none => set { db with fillExecutions := db.fillExecutions.insertOrIgnore row }

/-- The attribution row of a fill event whose execution item is `item`. -/
def FillEvent.attribution (blockTimestamp : Nat) (item : FillExecutionItem) : FillRow where
  collectionId := fill.collectionId
  executionId := fill.executionId
  itemIndex := fill.executionItemIndex
  kind := fill.kind.getD "unknown"
  orderId := fill.orderId
  orderSide := fill.orderSide
  maker := fill.maker
  taker := fill.taker
  contract := fill.contract
  tokenId := fill.tokenId
  amount := item.amount
  blockNumber := fill.blockNumber
  blockHash := fill.blockHash
  blockTimestamp := blockTimestamp
  txHash := fill.txHash
  logIndex := fill.logIndex

/-- The attribution half of one iteration of `persistFills`. -/
def persistFillAttribution (blockTimestamp : Nat) : StoreM Unit := do
  let item ← Tx.check (fillAttributionItem fill.execution fill.executionItemIndex fill.contract
    fill.tokenId fill.amount)
  let attribution := fill.attribution blockTimestamp item
  let db ← get
  match db.fills.get? attribution.key with
  | some existing =>
    -- an idempotent replay must agree with every stored attribution fact
    Tx.throwIf (existing ≠ attribution) (.error "Conflicting immutable fill attribution")
  | none => set { db with fills := db.fills.insertOrIgnore attribution }

/-- The loop of `persistFills`; `executions` are the executions this call has already seen. -/
def persistFillsLoop (blocks : List SyncBlockHeader) (executions : List FillExecutionWrite) :
    List FillEvent → StoreM Unit
  | [] => pure ()
  | fill :: rest => do
    let blockTimestamp ← Tx.check (resolveBlockTimestamp blocks fill.blockNumber)
    let execution := fill.executionWrite blockTimestamp
    match executions.find? (fun w => w.executionId = execution.executionId) with
    | some previous => do
      Tx.throwIf (previous ≠ execution) (.error "Conflicting immutable fill execution")
      persistFillAttribution fill blockTimestamp
      persistFillsLoop blocks executions rest
    | none => do
      persistFillExecution execution
      persistFillAttribution fill blockTimestamp
      persistFillsLoop blocks (execution :: executions) rest

def persistFills (blocks : List SyncBlockHeader) (data : OnChainData) : StoreM Unit :=
  persistFillsLoop blocks [] data.fillEvents

/-! ## 4. What the loop leaves behind -/

abbrev FillExecutionTable := Table FillExecutionRow.id
abbrev FillTable := Table FillRow.key

/-- A stored execution with the id and the block of an attribution or a write. -/
def HasExecution (executions : FillExecutionTable) (id : FillExecutionId) (number : Nat)
    (hash : Hash) : Prop :=
  ∃ ex ∈ executions, ex.id = id ∧ ex.blockNumber = number ∧ ex.blockHash = hash

/-- What storing fill events does: it adds executions and attributions that carry the block of
one of the events, and every added attribution carries the block of its execution. -/
structure FillsEffect (events : List FillEvent) (x x' : FillExecutionTable) (f f' : FillTable) :
    Prop where
  executions_kept : ∀ ex ∈ x, ex ∈ x'
  executions_new : ∀ ex ∈ x', ex ∈ x ∨
    ∃ e ∈ events, e.blockNumber = ex.blockNumber ∧ e.blockHash = ex.blockHash
  fills_kept : ∀ r ∈ f, r ∈ f'
  fills_new : ∀ r ∈ f', r ∈ f ∨ (HasExecution x' r.executionId r.blockNumber r.blockHash ∧
      ∃ e ∈ events, e.blockNumber = r.blockNumber ∧ e.blockHash = r.blockHash)

namespace FillsEffect

variable {events : List FillEvent} {x x' x'' : FillExecutionTable} {f f' f'' : FillTable}

theorem refl : FillsEffect events x x f f :=
  ⟨fun _ h => h, fun _ h => Or.inl h, fun _ h => h, fun _ h => Or.inl h⟩

theorem hasExecution (h : FillsEffect events x x' f f') {id : FillExecutionId} {n : Nat}
    {hash : Hash} (hx : HasExecution x id n hash) : HasExecution x' id n hash := by
  obtain ⟨ex, hmem, heq⟩ := hx
  exact ⟨ex, h.executions_kept ex hmem, heq⟩

theorem trans (h₁ : FillsEffect events x x' f f') (h₂ : FillsEffect events x' x'' f' f'') :
    FillsEffect events x x'' f f'' where
  executions_kept ex hex := h₂.executions_kept ex (h₁.executions_kept ex hex)
  executions_new ex hex := by
    rcases h₂.executions_new ex hex with hex | hnew
    · exact h₁.executions_new ex hex
    · exact Or.inr hnew
  fills_kept r hr := h₂.fills_kept r (h₁.fills_kept r hr)
  fills_new r hr := by
    rcases h₂.fills_new r hr with hr | hnew
    · rcases h₁.fills_new r hr with hr | ⟨hx, he⟩
      · exact Or.inl hr
      · exact Or.inr ⟨h₂.hasExecution hx, he⟩
    · exact Or.inr hnew

end FillsEffect

variable {events : List FillEvent} {db db' : Db} {u : Unit}

theorem persistFillExecution_effect {w : FillExecutionWrite}
    (h : Tx.Returns (persistFillExecution w) db u db')
    (hev : ∃ e ∈ events, e.blockNumber = w.blockNumber ∧ e.blockHash = w.blockHash) :
    ∃ x', db' = { db with fillExecutions := x' } ∧
      FillsEffect events db.fillExecutions x' db.fills db.fills ∧
      HasExecution x' w.executionId w.blockNumber w.blockHash := by
  simp only [persistFillExecution, Tx.returns_bind, Tx.returns_check, Tx.returns_get] at h
  obtain ⟨prepared, db₁, ⟨-, rfl⟩, db₂, db₃, ⟨rfl, rfl⟩, h⟩ := h
  split at h
  · next existing hget =>
    obtain ⟨hsame, rfl⟩ := Tx.returns_throwIf.mp h
    rw [not_not] at hsame
    refine ⟨_, rfl, FillsEffect.refl, existing, (Table.get?_eq_some.mp hget).1, ?_⟩
    rw [hsame]
    exact ⟨rfl, rfl, rfl⟩
  · next hget =>
    rw [Tx.returns_set] at h
    subst h
    set row := w.row prepared.1 prepared.2 with hrow
    have hfresh : db.fillExecutions.has row.id = false :=
      Table.not_has_iff.mpr (Table.get?_eq_none.mp hget)
    have hmem : row ∈ db.fillExecutions.insertOrIgnore row :=
      Table.mem_insertOrIgnore.mpr (Or.inr ⟨rfl, hfresh⟩)
    refine ⟨_, rfl, ⟨fun ex hex => Table.mem_insertOrIgnore_of_mem hex, ?_, fun r hr => hr,
      fun r hr => Or.inl hr⟩, row, hmem, rfl, rfl, rfl⟩
    intro ex hex
    rcases Table.mem_insertOrIgnore.mp hex with hex | ⟨rfl, -⟩
    · exact Or.inl hex
    · exact Or.inr hev

theorem persistFillAttribution_effect {fill : FillEvent} {t : Nat}
    (h : Tx.Returns (persistFillAttribution fill t) db u db')
    (hev : fill ∈ events)
    (hx : HasExecution db.fillExecutions fill.executionId fill.blockNumber fill.blockHash) :
    ∃ f', db' = { db with fills := f' } ∧
      FillsEffect events db.fillExecutions db.fillExecutions db.fills f' := by
  simp only [persistFillAttribution, Tx.returns_bind, Tx.returns_check, Tx.returns_get] at h
  obtain ⟨item, db₁, ⟨-, rfl⟩, db₂, db₃, ⟨rfl, rfl⟩, h⟩ := h
  split at h
  · obtain ⟨-, rfl⟩ := Tx.returns_throwIf.mp h
    exact ⟨_, rfl, FillsEffect.refl⟩
  rw [Tx.returns_set] at h
  subst h
  refine ⟨_, rfl, fun ex hex => hex, fun ex hex => Or.inl hex,
    fun r hr => Table.mem_insertOrIgnore_of_mem hr, ?_⟩
  intro r hr
  rcases Table.mem_insertOrIgnore.mp hr with hr | ⟨rfl, -⟩
  · exact Or.inl hr
  · exact Or.inr ⟨hx, fill, hev, rfl, rfl⟩

theorem persistFillsLoop_effect {blocks : List SyncBlockHeader} :
    ∀ {fills : List FillEvent} {executions : List FillExecutionWrite} {db db' : Db} {u : Unit},
      Tx.Returns (persistFillsLoop blocks executions fills) db u db' →
      (∀ e ∈ fills, e ∈ events) →
      (∀ w ∈ executions, HasExecution db.fillExecutions w.executionId w.blockNumber w.blockHash) →
      ∃ x' f', db' = { db with fillExecutions := x', fills := f' } ∧
        FillsEffect events db.fillExecutions x' db.fills f'
  | [], executions, db, db', u, h, _, _ => by
    rw [persistFillsLoop, Tx.returns_pure] at h
    obtain ⟨-, rfl⟩ := h
    exact ⟨_, _, rfl, FillsEffect.refl⟩
  | fill :: rest, executions, db, db', u, h, hsub, hseen => by
    simp only [persistFillsLoop, Tx.returns_bind, Tx.returns_check] at h
    obtain ⟨t, db₁, ⟨-, rfl⟩, h⟩ := h
    have hfill : fill ∈ events := hsub fill (by simp)
    have hrest : ∀ e ∈ rest, e ∈ events := fun e he => hsub e (by simp [he])
    split at h
    · next previous hfind =>
      simp only [Tx.returns_bind, Tx.returns_throwIf] at h
      obtain ⟨_, db₁, ⟨hsame, rfl⟩, _, db₂, hattr, hloop⟩ := h
      rw [not_not] at hsame
      have hx := hseen previous (List.mem_of_find?_eq_some hfind)
      rw [hsame] at hx
      obtain ⟨f₁, rfl, h₁⟩ := persistFillAttribution_effect hattr hfill hx
      obtain ⟨x₂, f₂, rfl, h₂⟩ := persistFillsLoop_effect hloop hrest
        (fun w hw => h₁.hasExecution (hseen w hw))
      exact ⟨x₂, f₂, rfl, h₁.trans h₂⟩
    · simp only [Tx.returns_bind] at h
      obtain ⟨_, db₁, hexec, _, db₂, hattr, hloop⟩ := h
      obtain ⟨x₁, rfl, h₁, hx⟩ := persistFillExecution_effect hexec ⟨fill, hfill, rfl, rfl⟩
      obtain ⟨f₂, rfl, h₂⟩ := persistFillAttribution_effect hattr hfill hx
      have hseen₂ : ∀ w ∈ fill.executionWrite t :: executions,
          HasExecution x₁ w.executionId w.blockNumber w.blockHash := by
        intro w hw
        rcases List.mem_cons.mp hw with rfl | hw
        · exact h₂.hasExecution hx
        · exact h₂.hasExecution (h₁.hasExecution (hseen w hw))
      obtain ⟨x₃, f₃, rfl, h₃⟩ := persistFillsLoop_effect hloop hrest hseen₂
      exact ⟨x₃, f₃, rfl, (h₁.trans h₂).trans h₃⟩

/-- **Storing the fills of a result adds only rows that carry the block of one of its events.** -/
theorem persistFills_effect {blocks : List SyncBlockHeader} {data : OnChainData}
    (h : Tx.Returns (persistFills blocks data) db u db') :
    ∃ x' f', db' = { db with fillExecutions := x', fills := f' } ∧
      FillsEffect data.fillEvents db.fillExecutions x' db.fills f' :=
  persistFillsLoop_effect h (fun _ he => he) (by simp)

end Artgod.Indexer
