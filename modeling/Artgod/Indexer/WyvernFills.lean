/-
# Wyvern sales from their receipts

`decodeWyvernFills` (`indexer/src/application/fills/wyvern.ts`) looks, for each match log of a receipt, for a
call of the same parties whose NFTs all moved since the match log before it.  Calls and transfer items are told
apart by their places, so that none backs two logs.
-/
import Artgod.Indexer.WyvernCalls

namespace Artgod.Indexer

/-! ## 1. Receipts -/

/-- The arguments of an `OrdersMatched` log. -/
structure OrdersMatched where
  buyHash : OrderId
  sellHash : OrderId
  maker : Address
  taker : Address
  price : Nat
  metadata : Hash

/-- A receipt log, with what the exchange event decodes it as. -/
structure ReceiptLog extends RpcLog where
  ordersMatched : Option OrdersMatched

/-- `EnhancedTransaction`, with its calldata and its receipt. -/
structure ReceiptTransaction where
  transaction : TransactionSummary
  txHash : Hash
  blockNumber : Nat
  blockHash : Hash
  receiptLogs : List ReceiptLog

abbrev DecodedFillEvent := SeaportFillCandidate

def decodeMatch (log : ReceiptLog) : Option OrdersMatched :=
  if Wyvern.isExchange log.address = true then log.ordersMatched else none

/-- `transfers`: the transfer items of the receipt. -/
def receiptTransfers (tx : ReceiptTransaction) : List EnhancedEvent :=
  tx.receiptLogs.flatMap fun log => decodeNftTransferLog log.toRpcLog

/-! ## 2. Backing transfers -/

/-- The item moves the NFT of the call, strictly between two logs. -/
structure Backs (nft : WyvernNftCall) (after before : Int) (event : EnhancedEvent) : Prop where
  after : after < event.logIndex
  before : (event.logIndex : Int) < before
  contract : event.contract = nft.contract
  standard : event.standard =
    if nft.itemType = FillItemType.erc721 then CollectionStandard.erc721 else CollectionStandard.erc1155
  tokenId : event.tokenId = nft.identifier
  amount : event.amount = nft.amount
  fromAddress : event.fromAddress = nft.fromAddress
  toAddress : event.toAddress = nft.toAddress

/-- The test of `transfers.find`. -/
def backsUnused (nft : WyvernNftCall) (after before : Int) (used : List Nat) (event : EnhancedEvent × Nat) : Bool :=
  event.2 ∉ used ∧ after < event.1.logIndex ∧ (event.1.logIndex : Int) < before ∧
    event.1.contract = nft.contract ∧
    event.1.standard =
      (if nft.itemType = FillItemType.erc721 then CollectionStandard.erc721 else CollectionStandard.erc1155) ∧
    event.1.tokenId = nft.identifier ∧ event.1.amount = nft.amount ∧
    event.1.fromAddress = nft.fromAddress ∧ event.1.toAddress = nft.toAddress

variable {after before : Int} {transfers : List EnhancedEvent}

theorem backsUnused_iff {nft : WyvernNftCall} {used : List Nat} {event : EnhancedEvent × Nat} :
    backsUnused nft after before used event = true ↔ event.2 ∉ used ∧ Backs nft after before event.1 := by
  rw [backsUnused, decide_eq_true_iff]
  constructor
  · rintro ⟨hfree, h1, h2, h3, h4, h5, h6, h7, h8⟩
    exact ⟨hfree, h1, h2, h3, h4, h5, h6, h7, h8⟩
  · rintro ⟨hfree, h⟩
    exact ⟨hfree, h.after, h.before, h.contract, h.standard, h.tokenId, h.amount, h.fromAddress, h.toAddress⟩

/-- The loop of `matchesTransfers` over the NFTs of a call; items are told apart by their places. -/
def takeTransfers (transfers : List (EnhancedEvent × Nat)) (after before : Int) :
    List WyvernNftCall → List Nat → Bool
  | [], _ => true
  | nft :: rest, used =>
    match transfers.find? (backsUnused nft after before used) with
    | none => false
    | some transfer => takeTransfers transfers after before rest (used ++ [transfer.2])

variable (call : WyvernMatchCall)

def matchesTransfers (transfers : List EnhancedEvent) (after before : Int) : Bool :=
  takeTransfers transfers.zipIdx after before call.nfts []

/-- The places of the items that back the NFTs, one for each. -/
def BackedBy (transfers : List EnhancedEvent) (after before : Int) (nfts : List WyvernNftCall)
    (backing : List Nat) : Prop :=
  List.Forall₂ (fun nft i => ∃ event, transfers[i]? = some event ∧ Backs nft after before event) nfts backing

theorem takeTransfers_backed :
    ∀ {nfts : List WyvernNftCall} {used : List Nat},
      takeTransfers transfers.zipIdx after before nfts used = true →
        ∃ backing, BackedBy transfers after before nfts backing ∧ backing.Nodup ∧ ∀ i ∈ backing, i ∉ used := by
  intro nfts
  induction nfts with
  | nil => exact fun _ => ⟨[], .nil, List.nodup_nil, List.forall_mem_nil _⟩
  | cons nft rest ih =>
    intro used h
    unfold takeTransfers at h
    cases hfind : transfers.zipIdx.find? (backsUnused nft after before used) with
    | none =>
      rw [hfind] at h
      cases h
    | some transfer =>
      rw [hfind] at h
      obtain ⟨backing, hbacked, hnodup, hfree⟩ := ih h
      obtain ⟨hunused, hbacks⟩ := backsUnused_iff.mp (List.find?_some hfind)
      have hplace := List.mem_zipIdx_iff_getElem?.mp (List.mem_of_find?_eq_some hfind)
      refine ⟨transfer.2 :: backing, .cons ⟨transfer.1, hplace, hbacks⟩ hbacked, ?_, ?_⟩
      · refine List.nodup_cons.mpr ⟨fun hmem => hfree _ hmem ?_, hnodup⟩
        exact List.mem_append_right _ (List.mem_singleton.mpr rfl)
      · refine List.forall_mem_cons.mpr ⟨hunused, fun i hi hused => hfree i hi ?_⟩
        exact List.mem_append_left _ hused

/-! ## 3. Executions -/

/-- `execution`: all NFTs of the call in order, and the payment. -/
def wyvernExecution (price : Nat) : FillExecution :=
  let isAsk : Bool := call.orderSide = .sell
  { protocolAddress := call.protocolAddress
    items :=
      call.nfts.zipIdx.map (fun nft =>
        { index := nft.2
          side := if isAsk then .offer else .consideration
          itemType := nft.1.itemType
          contract := nft.1.contract
          identifier := nft.1.identifier
          amount := toString nft.1.amount
          recipient := some nft.1.toAddress }) ++
      [{ index := call.nfts.length
         side := if isAsk then .consideration else .offer
         itemType := if call.currency = zeroAddress then FillItemType.native else FillItemType.erc20
         contract := call.currency
         identifier := "0"
         amount := toString price
         recipient := some call.seller }] }

/-- The fills of an execution: one for each NFT of a tracked contract. -/
def wyvernFills (tx : ReceiptTransaction) (collections : Address → Bool) (log : ReceiptLog)
    (matched : OrdersMatched) (call : WyvernMatchCall) : List DecodedFillEvent :=
  call.nfts.zipIdx.filterMap fun nft =>
    if collections nft.1.contract = false then none
    else some
      { kind := some "wyvern"
        orderId := some (if call.orderSide = .sell then matched.sellHash else matched.buyHash)
        orderSide := some call.orderSide
        maker := some call.maker
        taker := some call.taker
        contract := nft.1.contract
        tokenId := nft.1.identifier
        amount := nft.1.amount
        price := some matched.price
        currency := some call.currency
        execution := wyvernExecution call matched.price
        executionItemIndex := nft.2
        blockNumber := tx.blockNumber
        blockHash := tx.blockHash
        txHash := tx.txHash
        logIndex := log.logIndex }

/-- The variables of the loop of `decodeWyvernFills`. -/
structure WyvernState where
  usedCalls : List Nat
  fills : List DecodedFillEvent
  previousMatch : Int

/-- `shape`: the facts in which equivalent repeated calls agree. -/
def WyvernMatchCall.shape : Address × OrderSide × List WyvernNftCall :=
  (call.currency, call.orderSide, call.nfts)

/-- `identified`: the unused calls of the parties of the log. -/
def identifiedCalls (calls : List WyvernMatchCall) (usedCalls : List Nat) (log : ReceiptLog)
    (matched : OrdersMatched) : List (WyvernMatchCall × Nat) :=
  calls.zipIdx.filter fun call =>
    call.2 ∉ usedCalls ∧ call.1.protocolAddress = log.address ∧ call.1.maker = matched.maker ∧
      call.1.taker = matched.taker ∧ call.1.metadata = matched.metadata

/-- One match log of the receipt. -/
def takeMatch (tx : ReceiptTransaction) (collections : Address → Bool) (calls : List WyvernMatchCall)
    (s : WyvernState) (log : ReceiptLog) (matched : OrdersMatched) : WyvernState :=
  let identified := identifiedCalls calls s.usedCalls log matched
  let candidates := identified.filter fun call =>
    matchesTransfers call.1 (receiptTransfers tx) s.previousMatch log.logIndex
  let s := { s with previousMatch := log.logIndex }
  match candidates with
  | [] => s
  | call :: rest =>
    if (identified.any fun call => call.1.nfts = []) = true then s
    -- different payment or NFT shapes are ambiguous even when maker and taker coincide
    else if (rest.any fun other => other.1.shape ≠ call.1.shape) = true then s
    else
      { s with
        usedCalls := s.usedCalls ++ [call.2]
        fills := s.fills ++ wyvernFills tx collections log matched call.1 }

/-- One log of the receipt. -/
def takeLog (tx : ReceiptTransaction) (collections : Address → Bool) (calls : List WyvernMatchCall)
    (s : WyvernState) (log : ReceiptLog) : WyvernState :=
  match decodeMatch log with
  | none => s
  | some matched => takeMatch tx collections calls s log matched

/-- The receipt logs in log order. -/
def orderedLogs (tx : ReceiptTransaction) : List ReceiptLog :=
  tx.receiptLogs.insertionSort fun a b => a.logIndex ≤ b.logIndex

def decodeWyvernFills (abi : WyvernAbi) (tx : ReceiptTransaction) (collections : Address → Bool) :
    List DecodedFillEvent :=
  let calls := decodeWyvernMatchCalls abi tx.transaction
  if calls = [] then []
  else ((orderedLogs tx).foldl (takeLog tx collections calls) ⟨[], [], -1⟩).fills

/-! ## 4. What is emitted, and on what grounds -/

/-- The match logs among the logs. -/
def matchLogs (logs : List ReceiptLog) : List (ReceiptLog × OrdersMatched) :=
  logs.filterMap fun log => (decodeMatch log).map fun matched => (log, matched)

theorem matchLogs_append {logs more : List ReceiptLog} :
    matchLogs (logs ++ more) = matchLogs logs ++ matchLogs more := List.filterMap_append

theorem matchLogs_concat_of_none {logs : List ReceiptLog} {log : ReceiptLog} (h : decodeMatch log = none) :
    matchLogs (logs ++ [log]) = matchLogs logs := by
  have hnone : matchLogs [log] = [] := by
    rw [matchLogs, List.filterMap_cons, h]
    rfl
  rw [matchLogs_append, hnone, List.append_nil]

theorem matchLogs_concat_of_some {logs : List ReceiptLog} {log : ReceiptLog} {matched : OrdersMatched}
    (h : decodeMatch log = some matched) : matchLogs (logs ++ [log]) = matchLogs logs ++ [(log, matched)] := by
  have hone : matchLogs [log] = [(log, matched)] := by
    rw [matchLogs, List.filterMap_cons, h]
    rfl
  rw [matchLogs_append, hone]

/-- The index of the last of some match logs; before the first there is none. -/
def lastMatch (logs : List (ReceiptLog × OrdersMatched)) : Int :=
  match logs.getLast? with
  | none => -1
  | some log => log.1.logIndex

theorem lastMatch_concat {logs : List (ReceiptLog × OrdersMatched)} {log : ReceiptLog × OrdersMatched} :
    lastMatch (logs ++ [log]) = log.1.logIndex := by
  rw [lastMatch, List.getLast?_concat]

/-- An emitted execution: its match log, the match log before it, its call and its transfer items. -/
structure WyvernEmission where
  log : ReceiptLog
  matched : OrdersMatched
  previous : Int
  call : WyvernMatchCall
  callIndex : Nat
  backing : List Nat

/-- The log of an emission is one of the match logs, and `previous` is the one before it. -/
def WyvernEmission.AtMatch (e : WyvernEmission) (logs : List (ReceiptLog × OrdersMatched)) : Prop :=
  ∃ before after, logs = before ++ (e.log, e.matched) :: after ∧ e.previous = lastMatch before

/-- The grounds of an emission: its call is one of the calls, has NFTs, and each of these is backed by its own
transfer item strictly between the two match logs. -/
structure WyvernEmission.Grounded (calls : List WyvernMatchCall) (transfers : List EnhancedEvent)
    (e : WyvernEmission) : Prop where
  call : calls[e.callIndex]? = some e.call
  parties : e.call.protocolAddress = e.log.address ∧ e.call.maker = e.matched.maker ∧
    e.call.taker = e.matched.taker ∧ e.call.metadata = e.matched.metadata
  nonempty : e.call.nfts ≠ []
  backed : BackedBy transfers e.previous e.log.logIndex e.call.nfts e.backing
  distinct : e.backing.Nodup

/-- The fills of an emission. -/
def WyvernEmission.fills (tx : ReceiptTransaction) (collections : Address → Bool) (e : WyvernEmission) :
    List DecodedFillEvent :=
  wyvernFills tx collections e.log e.matched e.call

/-- What holds after some of the ordered logs. -/
structure WyvernInv (tx : ReceiptTransaction) (collections : Address → Bool) (calls : List WyvernMatchCall)
    (done : List ReceiptLog) (emissions : List WyvernEmission) (s : WyvernState) : Prop where
  fills : s.fills = emissions.flatMap (WyvernEmission.fills tx collections)
  used : s.usedCalls = emissions.map (·.callIndex)
  previous : s.previousMatch = lastMatch (matchLogs done)
  atMatch : ∀ e ∈ emissions, e.AtMatch (matchLogs done)
  grounded : ∀ e ∈ emissions, e.Grounded calls (receiptTransfers tx)
  reached : ∀ e ∈ emissions, (e.log.logIndex : Int) ≤ s.previousMatch
  calls_once : (emissions.map (·.callIndex)).Nodup
  items_once : (emissions.flatMap (·.backing)).Nodup

theorem BackedBy.of_mem {nfts : List WyvernNftCall}
    {backing : List Nat} (h : BackedBy transfers after before nfts backing) {i : Nat} (hi : i ∈ backing) :
    ∃ event, transfers[i]? = some event ∧ after < event.logIndex ∧ (event.logIndex : Int) < before := by
  induction h with
  | nil => cases hi
  | cons hhead _ ih =>
    rcases List.mem_cons.mp hi with rfl | hrest
    · obtain ⟨event, hevent, hbacks⟩ := hhead
      exact ⟨event, hevent, hbacks.after, hbacks.before⟩
    · exact ih hrest

section Loop

variable {tx : ReceiptTransaction} {collections : Address → Bool} {calls : List WyvernMatchCall}
  {done : List ReceiptLog} {emissions : List WyvernEmission} {s : WyvernState} {log : ReceiptLog}
  {matched : OrdersMatched}

theorem WyvernEmission.AtMatch.append {e : WyvernEmission} {logs more : List (ReceiptLog × OrdersMatched)}
    (h : e.AtMatch logs) : e.AtMatch (logs ++ more) := by
  obtain ⟨before, after, rfl, hprevious⟩ := h
  exact ⟨before, after ++ more, by rw [List.append_assoc, List.cons_append], hprevious⟩

theorem WyvernInv.pass (h : WyvernInv tx collections calls done emissions s)
    (hdecoded : decodeMatch log = some matched) (hordered : s.previousMatch ≤ log.logIndex) :
    WyvernInv tx collections calls (done ++ [log]) emissions { s with previousMatch := log.logIndex } := by
  have hlogs := @matchLogs_concat_of_some done log matched hdecoded
  exact
    { fills := h.fills
      used := h.used
      previous := by rw [hlogs, lastMatch_concat]
      atMatch := fun e he => by rw [hlogs]; exact (h.atMatch e he).append
      grounded := h.grounded
      reached := fun e he => Int.le_trans (h.reached e he) hordered
      calls_once := h.calls_once
      items_once := h.items_once }

variable {candidate : WyvernMatchCall × Nat}

theorem candidate_spec
    (h : candidate ∈ (identifiedCalls calls s.usedCalls log matched).filter fun call =>
      matchesTransfers call.1 (receiptTransfers tx) s.previousMatch log.logIndex) :
    calls[candidate.2]? = some candidate.1 ∧ candidate.2 ∉ s.usedCalls ∧
      (candidate.1.protocolAddress = log.address ∧ candidate.1.maker = matched.maker ∧
        candidate.1.taker = matched.taker ∧ candidate.1.metadata = matched.metadata) ∧
      ∃ backing, BackedBy (receiptTransfers tx) s.previousMatch log.logIndex candidate.1.nfts backing ∧
        backing.Nodup := by
  obtain ⟨hidentified, hmatches⟩ := List.mem_filter.mp h
  obtain ⟨hmem, hparties⟩ := List.mem_filter.mp hidentified
  obtain ⟨hunused, hparties⟩ := of_decide_eq_true hparties
  obtain ⟨backing, hbacked, hnodup, -⟩ := takeTransfers_backed hmatches
  exact ⟨List.mem_zipIdx_iff_getElem?.mp hmem, hunused, hparties, backing, hbacked, hnodup⟩

theorem WyvernInv.emit (h : WyvernInv tx collections calls done emissions s)
    (hdecoded : decodeMatch log = some matched) (hordered : s.previousMatch ≤ log.logIndex)
    {backing : List Nat}
    (hplace : calls[candidate.2]? = some candidate.1) (hunused : candidate.2 ∉ s.usedCalls)
    (hparties : candidate.1.protocolAddress = log.address ∧ candidate.1.maker = matched.maker ∧
      candidate.1.taker = matched.taker ∧ candidate.1.metadata = matched.metadata)
    (hbacked : BackedBy (receiptTransfers tx) s.previousMatch log.logIndex candidate.1.nfts backing)
    (hnodup : backing.Nodup) (hnfts : candidate.1.nfts ≠ []) :
    WyvernInv tx collections calls (done ++ [log])
      (emissions ++ [⟨log, matched, s.previousMatch, candidate.1, candidate.2, backing⟩])
      { usedCalls := s.usedCalls ++ [candidate.2]
        fills := s.fills ++ wyvernFills tx collections log matched candidate.1
        previousMatch := log.logIndex } := by
  have hpass := h.pass hdecoded hordered
  have hlogs := @matchLogs_concat_of_some done log matched hdecoded
  refine
    { fills := ?_
      used := by rw [List.map_append, h.used]; rfl
      previous := hpass.previous
      atMatch := List.forall_mem_append.mpr ⟨hpass.atMatch, List.forall_mem_singleton.mpr ?_⟩
      grounded := List.forall_mem_append.mpr ⟨h.grounded, List.forall_mem_singleton.mpr
        ⟨hplace, hparties, hnfts, hbacked, hnodup⟩⟩
      reached := List.forall_mem_append.mpr ⟨hpass.reached, List.forall_mem_singleton.mpr (Int.le_refl _)⟩
      calls_once := ?_
      items_once := ?_ }
  · rw [List.flatMap_append, List.flatMap_singleton, h.fills]
    rfl
  · exact ⟨matchLogs done, [], hlogs, h.previous⟩
  · rw [List.map_append, List.nodup_append]
    refine ⟨h.calls_once, List.nodup_singleton _, fun a ha b hb hab => hunused ?_⟩
    rw [h.used]
    have hindex : a = candidate.2 := hab.trans (List.mem_singleton.mp hb)
    rw [← hindex]
    exact ha
  · -- the windows of the emissions so far end at or before the previous match log
    rw [List.flatMap_append, List.flatMap_singleton, List.nodup_append]
    refine ⟨h.items_once, hnodup, fun a ha b hb hab => ?_⟩
    obtain ⟨e, he, hae⟩ := List.mem_flatMap.mp ha
    obtain ⟨old, hold, -, hbefore⟩ := (h.grounded e he).backed.of_mem hae
    obtain ⟨new, hnew, hafter, -⟩ := hbacked.of_mem hb
    rw [hab, hnew] at hold
    obtain rfl := Option.some.inj hold
    have hreached := h.reached e he
    omega

theorem WyvernInv.step (h : WyvernInv tx collections calls done emissions s)
    (hle : s.previousMatch ≤ log.logIndex) :
    ∃ emissions', WyvernInv tx collections calls (done ++ [log]) emissions'
      (takeLog tx collections calls s log) := by
  unfold takeLog
  cases hdecoded : decodeMatch log with
  | none =>
    have hlogs := @matchLogs_concat_of_none done log hdecoded
    exact ⟨emissions, { h with
      previous := by rw [hlogs]; exact h.previous
      atMatch := fun e he => by rw [hlogs]; exact h.atMatch e he }⟩
  | some matched =>
    have hpassed := h.pass hdecoded hle
    dsimp only [takeMatch]
    split
    · exact ⟨emissions, hpassed⟩
    rename_i candidate rest hcandidates
    split
    · exact ⟨emissions, hpassed⟩
    rename_i hopaque
    split
    · exact ⟨emissions, hpassed⟩
    have hmem : candidate ∈ (identifiedCalls calls s.usedCalls log matched).filter fun call =>
        matchesTransfers call.1 (receiptTransfers tx) s.previousMatch log.logIndex :=
      hcandidates ▸ List.mem_cons_self
    obtain ⟨hplace, hunused, hparties, backing, hbacked, hnodup⟩ := candidate_spec hmem
    have hnfts : candidate.1.nfts ≠ [] := fun hnil => hopaque
      (List.any_eq_true.mpr ⟨candidate, (List.mem_filter.mp hmem).1, decide_eq_true hnil⟩)
    exact ⟨_, h.emit hdecoded hle hplace hunused hparties hbacked hnodup hnfts⟩

theorem WyvernInv.run : ∀ {rest done : List ReceiptLog} {emissions : List WyvernEmission} {s : WyvernState},
    WyvernInv tx collections calls done emissions s →
    (∀ log ∈ rest, s.previousMatch ≤ log.logIndex) → rest.Pairwise (fun a b => a.logIndex ≤ b.logIndex) →
      ∃ emissions', WyvernInv tx collections calls (done ++ rest) emissions'
        (rest.foldl (takeLog tx collections calls) s) := by
  intro rest
  induction rest with
  | nil => exact fun {done emissions s} h _ _ => ⟨emissions, by rw [List.append_nil]; exact h⟩
  | cons log rest ih =>
    intro done emissions s h hbound hsorted
    obtain ⟨hfirst, hsorted⟩ := List.pairwise_cons.mp hsorted
    obtain ⟨emissions', h'⟩ := h.step (hbound log List.mem_cons_self)
    have hbound' : ∀ later ∈ rest, (takeLog tx collections calls s log).previousMatch ≤ later.logIndex := by
      intro later hlater
      rw [h'.previous]
      cases hdecoded : decodeMatch log with
      | none =>
        rw [matchLogs_concat_of_none hdecoded, ← h.previous]
        exact hbound later (List.mem_cons_of_mem _ hlater)
      | some matched =>
        rw [matchLogs_concat_of_some hdecoded, lastMatch_concat]
        exact Int.ofNat_le.mpr (hfirst later hlater)
    obtain ⟨emissions'', h''⟩ := ih h' hbound' hsorted
    refine ⟨emissions'', ?_⟩
    rw [List.append_assoc] at h''
    exact h''

end Loop

theorem WyvernInv.initial (tx : ReceiptTransaction) (collections : Address → Bool)
    (calls : List WyvernMatchCall) : WyvernInv tx collections calls [] [] ⟨[], [], -1⟩ where
  fills := rfl
  used := rfl
  previous := rfl
  atMatch := List.forall_mem_nil _
  grounded := List.forall_mem_nil _
  reached := List.forall_mem_nil _
  calls_once := List.nodup_nil
  items_once := List.nodup_nil

/-- The execution lists the NFTs of the call in order, then one item that is no NFT. -/
def ListsNfts (call : WyvernMatchCall) (execution : FillExecution) : Prop :=
  ∃ items payment, execution.items = items ++ [payment] ∧ isFillNftItem payment = false ∧
    items.map (fun i => (i.index, i.itemType, i.contract, i.identifier, i.amount, i.recipient)) =
      call.nfts.zipIdx.map fun n =>
        (n.2, n.1.itemType, n.1.contract, n.1.identifier, toString n.1.amount, some n.1.toAddress)

theorem wyvernExecution_lists (call : WyvernMatchCall) (price : Nat) :
    ListsNfts call (wyvernExecution call price) := by
  refine ⟨_, _, rfl, ?_, ?_⟩
  · unfold isFillNftItem
    dsimp only
    split <;> decide
  · rw [List.map_map]
    rfl

theorem listsNfts_of_mem {tx : ReceiptTransaction} {collections : Address → Bool} {e : WyvernEmission}
    {fill : DecodedFillEvent} (h : fill ∈ e.fills tx collections) : ListsNfts e.call fill.execution := by
  obtain ⟨nft, -, hfill⟩ := List.mem_filterMap.mp h
  obtain ⟨-, hfill⟩ := Option.ite_none_left_eq_some.mp hfill
  obtain rfl := Option.some.inj hfill
  exact wyvernExecution_lists e.call e.matched.price

/-- **Wyvern bundles are priced whole or not at all.**  Every emitted execution is that of an `atomicMatch_`
call whose replaced payloads agree and whose NFT calls are all understood, or of a packed helper's sale of one
token; each of its NFTs has its own transfer item between the previous match log and its own; and no call and no
transfer item stands behind two match logs. -/
theorem wyvern_bundles_priced_whole (abi : WyvernAbi) (tx : ReceiptTransaction) (collections : Address → Bool) :
    ∃ emissions : List WyvernEmission,
      decodeWyvernFills abi tx collections = emissions.flatMap (WyvernEmission.fills tx collections) ∧
      (emissions.map (·.callIndex)).Nodup ∧ (emissions.flatMap (·.backing)).Nodup ∧
      ∀ e ∈ emissions,
        e.AtMatch (matchLogs (orderedLogs tx)) ∧
        e.Grounded (decodeWyvernMatchCalls abi tx.transaction) (receiptTransfers tx) ∧
        (AgreedMatch abi e.call ∨ PackedSale tx.transaction e.call) ∧
        ∀ fill ∈ e.fills tx collections, ListsNfts e.call fill.execution := by
  unfold decodeWyvernFills
  dsimp only
  by_cases hcalls : decodeWyvernMatchCalls abi tx.transaction = []
  · rw [if_pos hcalls]
    exact ⟨[], rfl, List.nodup_nil, List.nodup_nil, List.forall_mem_nil _⟩
  · rw [if_neg hcalls]
    have hsorted : (orderedLogs tx).Pairwise fun a b => a.logIndex ≤ b.logIndex :=
      List.pairwise_insertionSort _ _
    have hstart : ∀ log ∈ orderedLogs tx, (-1 : Int) ≤ log.logIndex := fun log _ => by omega
    obtain ⟨emissions, h⟩ := (WyvernInv.initial tx collections
      (decodeWyvernMatchCalls abi tx.transaction)).run hstart hsorted
    refine ⟨emissions, h.fills, h.calls_once, h.items_once, fun e he => ?_⟩
    have hgrounded := h.grounded e he
    exact ⟨h.atMatch e he, hgrounded,
      decodeWyvernMatchCalls_whole (List.mem_of_getElem? hgrounded.call) hgrounded.nonempty,
      fun fill hfill => listsNfts_of_mem hfill⟩

/-! ## 5. A packed sale -/

/-- An ABI that decodes nothing: a packed transaction asks it nothing. -/
def silentAbi : WyvernAbi where
  exchange _ := none
  encodeExchange _ := none
  argent _ := none
  router _ := none
  genieBuySelector := []
  genieBuys _ := none
  atomicizer _ := none
  merkleValidator _ := none
  erc721 _ := none
  erc1155 _ := none

/-- Account 30 buys token 5 of contract 7 from account 20 through the packed helper. -/
def packedTx : ReceiptTransaction where
  transaction :=
    { fromAddress := 30
      toAddress := some Wyvern.packedV22
      input := List.replicate 19 0 ++ [7] ++ List.replicate 21 0 ++ [20] ++ List.replicate 92 0 ++ [5] ++
        List.replicate 64 0 }
  txHash := 1
  blockNumber := 1
  blockHash := 1
  receiptLogs :=
    [⟨⟨7, 1, 1, 1, 0, .transfer 20 30 5⟩, none⟩,
      ⟨⟨Wyvern.exchangeV22, 1, 1, 1, 1, .undecodable⟩,
        some ⟨"buy", "sell", 20, Wyvern.packedV22, 100, 0⟩⟩]

theorem packedTx_fills : (decodeWyvernFills silentAbi packedTx fun _ => true).map
    (fun fill => (fill.maker, fill.tokenId, fill.price)) = [(some 20, "5", some 100)] := by
  decide +kernel

/-- **A packed sale has no calldata to replace:** its execution is not that of an agreed `atomicMatch_` call. -/
theorem packed_sale_without_replacements :
    ¬ ∀ fill ∈ decodeWyvernFills silentAbi packedTx (fun _ => true),
      ∃ call, AgreedMatch silentAbi call ∧ ListsNfts call fill.execution := by
  intro h
  cases hfills : decodeWyvernFills silentAbi packedTx fun _ => true with
  | nil =>
    have hone := packedTx_fills
    rw [hfills] at hone
    cases hone
  | cons fill rest =>
    rw [hfills] at h
    obtain ⟨call, hagreed, -⟩ := h fill List.mem_cons_self
    obtain ⟨input, args, matched, hargs, -⟩ := hagreed.whole
    cases hargs

end Artgod.Indexer
