/-
# The calls behind Wyvern sales

`decodeWyvernMatchCalls` (`indexer/src/application/fills/wyvern-calls.ts`) unwraps a transaction through the
known routers and reads the two packed helper formats.  A candidate has all NFTs of its call, or none where some
part was not understood.  Calldata is a list of bytes, and decoding by an ABI is given (`WyvernAbi`).
-/
import Artgod.Indexer.SeaportMatching

namespace Artgod.Indexer

/-! ## 1. Decoded calls -/

abbrev Bytes := List UInt8

/-- The arguments of `atomicMatch_`, and the tuple of a Genie purchase. -/
structure AtomicMatchArgs where
  addrs : Fin 14 → Address
  uints : Fin 18 → Nat
  feeMethodsSidesKindsHowToCalls : Fin 8 → Nat
  calldataBuy : Bytes
  calldataSell : Bytes
  replacementPatternBuy : Bytes
  replacementPatternSell : Bytes
  staticExtradataBuy : Bytes
  staticExtradataSell : Bytes
  vs : Fin 2 → Nat
  rssMetadata : Fin 5 → Hash

structure AtomicizeArgs where
  addrs : List Address
  values : List Nat
  calldataLengths : List Nat
  calldatas : Bytes

/-- The functions of `WYVERN_MERKLE_VALIDATOR_ABI`, without their Merkle proofs. -/
inductive MerkleValidatorCall where
  | matchErc721 (src dst token : Address) (tokenId : Nat)
  | matchSafeErc721 (src dst token : Address) (tokenId : Nat)
  | matchErc1155 (src dst token : Address) (tokenId amount : Nat)

/-- The arguments that the functions of `ERC721_TRANSFER_ABI` share. -/
structure Erc721Call where
  src : Address
  dst : Address
  tokenId : Nat

/-- The functions of `ERC1155_TRANSFER_ABI`. -/
inductive Erc1155Call where
  | safeTransferFrom (src dst : Address) (id amount : Nat)
  | safeBatchTransferFrom (src dst : Address) (ids amounts : List Nat)

structure RouterTrade where
  marketId : Option Nat
  tradeData : Bytes

/-- The functions of `WYVERN_ROUTER_ABI`, with their trades. -/
inductive RouterCall where
  | batchBuyWithEth (trades : List RouterTrade)
  | batchBuyWithErc20s (trades : List RouterTrade)
  | batchBuyFromOpenSea (tradeData : List Bytes)
  | multiAssetSwap (trades : List RouterTrade)

structure WalletCall where
  toAddress : Address
  data : Bytes

/-- The functions of `WYVERN_ARGENT_ABI`, with what the decoder reads of them. -/
inductive ArgentCall where
  | execute (wallet : Address) (data : Bytes)
  | multiCall (wallet : Address) (transactions : List WalletCall)
  | multiCallWithGuardians (wallet : Address) (transactions : List WalletCall)

/-- Decoding and encoding by the ABIs; the Genie library call has its own selector. -/
structure WyvernAbi where
  exchange : Bytes → Option AtomicMatchArgs
  encodeExchange : AtomicMatchArgs → Option Bytes
  argent : Bytes → Option ArgentCall
  router : Bytes → Option RouterCall
  genieBuySelector : Bytes
  genieBuys : Bytes → Option (List AtomicMatchArgs)
  atomicizer : Bytes → Option AtomicizeArgs
  merkleValidator : Bytes → Option MerkleValidatorCall
  erc721 : Bytes → Option Erc721Call
  erc1155 : Bytes → Option Erc1155Call

namespace Wyvern

/-- `WYVERN_EXCHANGE_ADDRESS`. -/
def exchangeV22 : Address := 0x7be8076f4ea4a4ad08075c2508e481d6c946d12b
def exchangeV23 : Address := 0x7f268357a8c2552623316e2562d90e642bb538e5

/-- `WYVERN_EXCHANGE_ADDRESSES`. -/
def isExchange (address : Address) : Bool := address = exchangeV22 || address = exchangeV23

/-- `WYVERN_NFT_TARGET_ADDRESS`. -/
def atomicizer : Address := 0xc99f70bfd82fb7c8f8191fdfbfb735606b15e5c5
def merkleValidator : Address := 0xbaf2127b49fc93cbca6269fade0f7f31df4c88a7

/-- `WYVERN_ROUTER_ADDRESS`. -/
def genie : Address := 0x0a267cf51ef038fc00e71801f5a524aec06e4f07
def gem : Address := 0x83c8f28c26bf6aaca652df1dbbe0e1b56f8baba2
def argentModule : Address := 0x9d58779365b067d5d3fcc6e92d237acd06f1e6a1

/-- `WYVERN_ROUTER_MARKET`. -/
def genieV22 : Nat := 3
def gemV23 : Nat := 10

/-- `WYVERN_CALL_TYPE`. -/
def call : Nat := 0
def delegateCall : Nat := 1

/-- `WYVERN_ORDER_SIDE`. -/
def buySide : Nat := 0
def sellSide : Nat := 1

/-- `WYVERN_PACKED_HELPER_ADDRESS`. -/
def packedV22 : Address := 0x00000000efaf2854f5b7975efe87edbfacd80b12
def packedV23 : Address := 0x0000000035634b55f3d99b071b5a354f48e10bef

def maxCallDepth : Nat := 8

end Wyvern

/-- `FILL_ITEM_TYPE`. -/
def FillItemType.native : Int := 0
def FillItemType.erc20 : Int := 1
def FillItemType.erc721 : Int := 2
def FillItemType.erc1155 : Int := 3

structure WyvernNftCall where
  contract : Address
  identifier : TokenId
  amount : Nat
  itemType : Int
  fromAddress : Address
  toAddress : Address
deriving DecidableEq

structure WyvernMatchCall where
  protocolAddress : Address
  maker : Address
  taker : Address
  seller : Address
  currency : Address
  orderSide : OrderSide
  metadata : Hash
  nfts : List WyvernNftCall

/-! ## 2. The NFTs of a call -/

/-- `nftCall`, which throws on a transfer that moves nothing or has no party. -/
def nftCall (contract src dst : Address) (identifier amount : Nat) (itemType : Int) : Option WyvernNftCall :=
  if amount = 0 ∨ src = zeroAddress ∨ dst = zeroAddress then none
  else some
    { contract := contract, identifier := toString identifier, amount := amount, itemType := itemType
      fromAddress := src, toAddress := dst }

/-- The loop over the targets of an atomicizer call; `payload` is what is left of its calldata. -/
def atomicizerLeaves (child : Address → Bytes → Option (List WyvernNftCall)) :
    List (Address × Nat) → Bytes → Option (List WyvernNftCall)
  | [], payload => if payload = [] then some [] else none
  | (target, length) :: rest, payload =>
    if length > payload.length then none
    else
      match child target (payload.take length) with
      | none => none
      -- an unknown leaf could contain another NFT
      | some [] => none
      | some (nft :: nfts) => (atomicizerLeaves child rest (payload.drop length)).map (nft :: nfts ++ ·)

/-- The NFTs of a call to an ERC1155 contract. -/
def erc1155Nfts (target : Address) : Erc1155Call → Option (List WyvernNftCall)
  | .safeTransferFrom src dst id amount => do
    return [← nftCall target src dst id amount FillItemType.erc1155]
  | .safeBatchTransferFrom src dst ids amounts =>
    if ids.length ≠ amounts.length then none
    else (ids.zip amounts).mapM fun item => nftCall target src dst item.1 item.2 FillItemType.erc1155

/-- The NFT of a criteria call: the validator transfers it on behalf of the token. -/
def merkleValidatorNfts : MerkleValidatorCall → Option (List WyvernNftCall)
  | .matchErc721 src dst token tokenId | .matchSafeErc721 src dst token tokenId => do
    return [← nftCall token src dst tokenId 1 FillItemType.erc721]
  | .matchErc1155 src dst token tokenId amount => do
    return [← nftCall token src dst tokenId amount FillItemType.erc1155]

/-- The NFT of a call to an ERC721 contract. -/
def erc721Nfts (target : Address) (c : Erc721Call) : Option (List WyvernNftCall) := do
  return [← nftCall target c.src c.dst c.tokenId 1 FillItemType.erc721]

/-- `decodeNftCalls`, with the calls that are left below `MAX_CALL_DEPTH`. -/
def decodeNftCalls (abi : WyvernAbi) : Nat → Address → Bytes → Nat → Option (List WyvernNftCall)
  | 0, _, _, _ => none
  | depth + 1, target, data, howToCall =>
    if target = Wyvern.atomicizer ∧ howToCall = Wyvern.delegateCall then
      (abi.atomicizer data).bind fun args =>
        if args.addrs.length ≠ args.values.length ∨ args.addrs.length ≠ args.calldataLengths.length ∨
            (args.values.any fun value => value ≠ 0) = true then none
        else atomicizerLeaves (fun target data => decodeNftCalls abi depth target data Wyvern.call)
          (args.addrs.zip args.calldataLengths) args.calldatas
    else if target = Wyvern.merkleValidator ∧ howToCall = Wyvern.delegateCall then
      (abi.merkleValidator data).bind merkleValidatorNfts
    else if howToCall ≠ Wyvern.call then none
    else
      -- what the first decoding throws, the second tries
      ((abi.erc721 data).bind (erc721Nfts target)).or ((abi.erc1155 data).bind (erc1155Nfts target))

/-! ## 3. Matched orders -/

/-- `guardedReplace`: an empty mask replaces nothing. -/
def guardedReplace (original replacement mask : Bytes) : Option Bytes :=
  if mask = [] then some original
  else if original.length ≠ replacement.length ∨ original.length ≠ mask.length then none
  else some ((original.zip (replacement.zip mask)).map fun b =>
    (b.1 &&& (255 ^^^ b.2.2)) ||| (b.2.1 &&& b.2.2))

/-- The guard of `decodeAtomicMatch`: the two orders are of one exchange, currency, target and kind, and
exactly one of them names a fee recipient. -/
def pairedOrders (destination : Option Address) (args : AtomicMatchArgs) : Prop :=
  let addresses := args.addrs
  let flags := args.feeMethodsSidesKindsHowToCalls
  Wyvern.isExchange (addresses 0) = true ∧ (∀ d ∈ destination, d = addresses 0) ∧ addresses 0 = addresses 7 ∧
    addresses 6 = addresses 13 ∧ addresses 4 = addresses 11 ∧ flags 1 = Wyvern.buySide ∧
    flags 5 = Wyvern.sellSide ∧ flags 0 = flags 4 ∧ flags 3 = flags 7 ∧
    ¬(addresses 3 = zeroAddress ↔ addresses 10 = zeroAddress)

instance (destination : Option Address) (args : AtomicMatchArgs) : Decidable (pairedOrders destination args) := by
  unfold pairedOrders
  infer_instance

section

variable (abi : WyvernAbi)

/-- `decodeAtomicMatch`, from the decoded arguments on. -/
def atomicMatchCall (destination : Option Address) (args : AtomicMatchArgs) :
    Option WyvernMatchCall :=
  if pairedOrders destination args then do
    -- the buy replacement is applied first, and the sell payload is replaced with its result
    let matchedBuy ← guardedReplace args.calldataBuy args.calldataSell args.replacementPatternBuy
    let matchedSell ← guardedReplace args.calldataSell matchedBuy args.replacementPatternSell
    if matchedSell ≠ matchedBuy then none
    else
      let seller := args.addrs 8
      let nfts := (decodeNftCalls abi Wyvern.maxCallDepth (args.addrs 4) matchedSell
        (args.feeMethodsSidesKindsHowToCalls 3)).getD []
      let isAsk : Bool := args.addrs 10 ≠ zeroAddress
      some
        { protocolAddress := args.addrs 0
          currency := args.addrs 6
          seller := seller
          nfts := if nfts.all (fun nft => nft.fromAddress = seller) = true then nfts else []
          maker := if isAsk then seller else args.addrs 1
          taker := if isAsk then args.addrs 1 else seller
          orderSide := if isAsk then .sell else .buy
          metadata := args.rssMetadata 4 }
  else none

def decodeAtomicMatch (destination : Option Address) (input : Bytes) :
    Option WyvernMatchCall :=
  (abi.exchange input).bind (atomicMatchCall abi destination)

/-- `decodeGenieBuys`; encoding a purchase can throw, which drops the whole batch. -/
def decodeGenieBuys (data : Bytes) : List WyvernMatchCall :=
  if data.take 4 ≠ abi.genieBuySelector then []
  else
    match (abi.genieBuys (data.drop 4)).bind fun buys => buys.mapM abi.encodeExchange with
    | none => []
    | some inputs => inputs.filterMap (decodeAtomicMatch abi (some Wyvern.exchangeV22))

/-! ## 4. Routers -/

/-- The trades of a router call. -/
def RouterCall.trades : RouterCall → List RouterTrade
  | .batchBuyWithEth trades | .batchBuyWithErc20s trades | .multiAssetSwap trades => trades
  | .batchBuyFromOpenSea tradeData => tradeData.map fun data => ⟨none, data⟩

def RouterCall.isOpenSeaBatch : RouterCall → Bool
  | .batchBuyFromOpenSea _ => true
  | _ => false

/-- The calls of one trade. -/
def tradeCalls (target : Address) (router : RouterCall) (trade : RouterTrade) :
    List WyvernMatchCall :=
  if target = Wyvern.genie ∧ trade.marketId = some Wyvern.genieV22 then decodeGenieBuys abi trade.tradeData
  else if target = Wyvern.gem ∧ router.isOpenSeaBatch = true then
    (decodeAtomicMatch abi (some Wyvern.exchangeV22) trade.tradeData).toList
  else if target ≠ Wyvern.gem ∨ (∃ marketId ∈ trade.marketId, marketId ≠ Wyvern.gemV23) then []
  else (decodeAtomicMatch abi (some Wyvern.exchangeV23) trade.tradeData).toList

/-- The wallet calls that an Argent module call relays: of an `execute`, the calls of the encoded multicall
for the same wallet. -/
def relayedCalls : ArgentCall → Option (List WalletCall)
  | .multiCall _ transactions | .multiCallWithGuardians _ transactions => some transactions
  | .execute wallet data =>
    (abi.argent data).map fun
      | .execute _ _ => []
      | .multiCall inner transactions | .multiCallWithGuardians inner transactions =>
        if inner ≠ wallet then [] else transactions

/-- `unwrapCalls`, with the calls that are left below `MAX_CALL_DEPTH`. -/
def unwrapCalls (abi : WyvernAbi) : Nat → Option Address → Bytes → List WyvernMatchCall
  | 0, _, _ => []
  | _ + 1, none, _ => []
  | depth + 1, some target, input =>
    if Wyvern.isExchange target = true then (decodeAtomicMatch abi (some target) input).toList
    else if target = Wyvern.argentModule then
      match (abi.argent input).bind (relayedCalls abi) with
      | none => []
      | some calls => calls.flatMap fun c => unwrapCalls abi depth (some c.toAddress) c.data
    else if target ≠ Wyvern.gem ∧ target ≠ Wyvern.genie then []
    else
      match abi.router input with
      | none => []
      | some router => router.trades.flatMap (tradeCalls abi target router)

/-! ## 5. Packed helpers -/

/-- `TransactionSummary`: its sender, its recipient and its calldata. -/
structure TransactionSummary where
  fromAddress : Address
  toAddress : Option Address
  input : Bytes

/-- The number that a slice of bytes denotes. -/
def wordAt (data : Bytes) (offset length : Nat) : Nat :=
  ((data.drop offset).take length).foldl (fun n b => n * 256 + b.toNat) 0

/-- The trade of a packed helper whose seller and token id stand at the given offsets. -/
def packedTrade (transaction : TransactionSummary) (helper protocolAddress : Address)
    (sellerOffset identifierOffset : Nat) : Option WyvernMatchCall :=
  let contract := wordAt transaction.input 0 20
  let seller := wordAt transaction.input sellerOffset 20
  if seller = zeroAddress then none
  else some
    { protocolAddress := protocolAddress, maker := seller, taker := helper, seller := seller
      currency := zeroAddress, orderSide := .sell, metadata := 0
      nfts :=
        [{ contract := contract, fromAddress := seller, toAddress := transaction.fromAddress
           identifier := toString (wordAt transaction.input identifierOffset 32), amount := 1
           itemType := FillItemType.erc721 }] }

/-- The trades of a packed helper: the exchange, their number, their stride and the two offsets. -/
def packedTrades (transaction : TransactionSummary) (helper protocolAddress : Address)
    (count stride sellerOffset identifierOffset : Nat) : List WyvernMatchCall :=
  if wordAt transaction.input 0 20 = zeroAddress ∨ transaction.fromAddress = zeroAddress then []
  else (List.range count).filterMap fun i =>
    packedTrade transaction helper protocolAddress (sellerOffset + stride * i) (identifierOffset + stride * i)

def decodePackedWyvernCalls (transaction : TransactionSummary) : List WyvernMatchCall :=
  match transaction.toAddress with
  | none => []
  | some helper =>
    let size := transaction.input.length
    if helper = Wyvern.packedV22 then
      if size ≠ 199 then [] else packedTrades transaction helper Wyvern.exchangeV22 1 0 22 103
    else if helper = Wyvern.packedV23 then
      if size ≤ 22 ∨ (size - 22) % 168 ≠ 0 then []
      else packedTrades transaction helper Wyvern.exchangeV23 ((size - 22) / 168) 168 26 111
    else []

def decodeWyvernMatchCalls (transaction : TransactionSummary) : List WyvernMatchCall :=
  unwrapCalls abi Wyvern.maxCallDepth transaction.toAddress transaction.input ++
    decodePackedWyvernCalls transaction

end

/-! ## 6. Whole calls -/

/-- A mask byte picks its bits from the replacement and the others from the original. -/
def blend (original replacement mask : UInt8) : UInt8 := (original &&& ~~~mask) ||| (replacement &&& mask)

/-- `result` is the calldata with the masked bits replaced; an empty mask replaces nothing. -/
structure Replaced (original replacement mask result : Bytes) : Prop where
  length_eq : result.length = original.length
  unmasked : mask = [] → result = original
  lengths : mask ≠ [] → original.length = replacement.length ∧ original.length = mask.length
  bytes : ∀ (i : Nat) (o r m : UInt8), original[i]? = some o → replacement[i]? = some r → mask[i]? = some m →
    result[i]? = some (blend o r m)

theorem replaceByte_eq (o r m : UInt8) : (o &&& (255 ^^^ m)) ||| (r &&& m) = blend o r m := by
  have hnot : 255 ^^^ m = ~~~m := by
    rw [show (255 : UInt8) = -1 from rfl, UInt8.neg_one_xor]
  rw [blend, hnot]

theorem guardedReplace_replaced {original replacement mask result : Bytes}
    (h : guardedReplace original replacement mask = some result) :
    Replaced original replacement mask result := by
  unfold guardedReplace at h
  by_cases hmask : mask = []
  · rw [if_pos hmask] at h
    obtain rfl := Option.some.inj h
    subst hmask
    exact ⟨rfl, fun _ => rfl, fun h => absurd rfl h, fun i o r m _ _ hm => (nomatch hm)⟩
  · rw [if_neg hmask] at h
    obtain ⟨hlengths, hresult⟩ := Option.ite_none_left_eq_some.mp h
    rw [not_or, Decidable.not_not, Decidable.not_not] at hlengths
    obtain rfl := Option.some.inj hresult
    refine ⟨?_, fun h => absurd h hmask, fun _ => hlengths, fun i o r m ho hr hm => ?_⟩
    · rw [List.length_map, List.length_zip, List.length_zip]
      omega
    · have hzip : (original.zip (replacement.zip mask))[i]? = some (o, r, m) :=
        List.getElem?_zip_eq_some.mpr ⟨ho, List.getElem?_zip_eq_some.mpr ⟨hr, hm⟩⟩
      rw [List.getElem?_map, hzip]
      exact congrArg some (replaceByte_eq o r m)

/-- The transfers of a token contract that a plain call is recognised as. -/
inductive NftLeaf (abi : WyvernAbi) (target : Address) (data : Bytes) (nfts : List WyvernNftCall) : Prop where
  | erc721 (c : Erc721Call) (decoded : abi.erc721 data = some c) (transfers : erc721Nfts target c = some nfts)
  | erc1155 (c : Erc1155Call) (decoded : abi.erc1155 data = some c)
    (transfers : erc1155Nfts target c = some nfts)

/-- One call of an atomicizer bundle. -/
structure BundleLeaf where
  target : Address
  data : Bytes
  nfts : List WyvernNftCall

/-- The leaves are what an atomicizer payload consists of, piece by piece, and each is recognised. -/
structure WholeBundle (abi : WyvernAbi) (args : AtomicizeArgs) (leaves : List BundleLeaf) : Prop where
  targets : args.addrs = leaves.map (·.target)
  lengths : args.calldataLengths = leaves.map (·.data.length)
  payload : args.calldatas = leaves.flatMap (·.data)
  free : ∀ value ∈ args.values, value = 0
  recognised : ∀ leaf ∈ leaves, NftLeaf abi leaf.target leaf.data leaf.nfts ∧ leaf.nfts ≠ []

/-- The NFTs of a call, all of them. -/
inductive WholeCall (abi : WyvernAbi) (target : Address) (data : Bytes) (howToCall : Nat)
    (nfts : List WyvernNftCall) : Prop where
  | leaf (plain : howToCall = Wyvern.call) (recognised : NftLeaf abi target data nfts)
  | criteria (validator : target = Wyvern.merkleValidator) (delegated : howToCall = Wyvern.delegateCall)
    (c : MerkleValidatorCall) (decoded : abi.merkleValidator data = some c)
    (transfers : merkleValidatorNfts c = some nfts)
  | bundle (atomicizer : target = Wyvern.atomicizer) (delegated : howToCall = Wyvern.delegateCall)
    (args : AtomicizeArgs) (decoded : abi.atomicizer data = some args) (leaves : List BundleLeaf)
    (whole : WholeBundle abi args leaves) (listed : nfts = leaves.flatMap (·.nfts))

variable {abi : WyvernAbi} {c : WyvernMatchCall} {transaction : TransactionSummary}

theorem WholeCall.plain {target : Address} {data : Bytes} {nfts : List WyvernNftCall}
    (h : WholeCall abi target data Wyvern.call nfts) : NftLeaf abi target data nfts := by
  cases h with
  | leaf _ recognised => exact recognised
  | criteria _ delegated => cases delegated
  | bundle _ delegated => cases delegated

theorem atomicizerLeaves_whole {child : Address → Bytes → Option (List WyvernNftCall)}
    (hchild : ∀ target data nfts, child target data = some nfts → NftLeaf abi target data nfts) :
    ∀ {targets : List (Address × Nat)} {payload : Bytes} {nfts : List WyvernNftCall},
      atomicizerLeaves child targets payload = some nfts →
        ∃ leaves : List BundleLeaf, targets = leaves.map (fun leaf => (leaf.target, leaf.data.length)) ∧
          payload = leaves.flatMap (·.data) ∧ nfts = leaves.flatMap (·.nfts) ∧
          ∀ leaf ∈ leaves, NftLeaf abi leaf.target leaf.data leaf.nfts ∧ leaf.nfts ≠ [] := by
  intro targets
  induction targets with
  | nil =>
    intro payload nfts h
    obtain ⟨hpayload, hnfts⟩ := Option.ite_none_right_eq_some.mp h
    exact ⟨[], rfl, hpayload, (Option.some.inj hnfts).symm, List.forall_mem_nil _⟩
  | cons head rest ih =>
    obtain ⟨target, length⟩ := head
    intro payload nfts h
    unfold atomicizerLeaves at h
    obtain ⟨hlength, h⟩ := Option.ite_none_left_eq_some.mp h
    rw [Nat.not_lt] at hlength
    cases hleaf : child target (payload.take length) with
    | none =>
      rw [hleaf] at h
      cases h
    | some first =>
      cases first with
      | nil =>
        rw [hleaf] at h
        cases h
      | cons nft more =>
        rw [hleaf] at h
        obtain ⟨others, hothers, rfl⟩ := Option.map_eq_some_iff.mp h
        obtain ⟨leaves, rfl, hpayload, rfl, hleaves⟩ := ih hothers
        have htake : (payload.take length).length = length := List.length_take_of_le hlength
        refine ⟨⟨target, payload.take length, nft :: more⟩ :: leaves, ?_, ?_, rfl, ?_⟩
        · rw [List.map_cons, htake]
        · rw [List.flatMap_cons, ← hpayload, List.take_append_drop]
        · exact List.forall_mem_cons.mpr ⟨⟨hchild _ _ _ hleaf, List.cons_ne_nil _ _⟩, hleaves⟩

theorem decodeNftCalls_whole : ∀ {depth : Nat} {target : Address} {data : Bytes}
    {howToCall : Nat} {nfts : List WyvernNftCall},
    decodeNftCalls abi depth target data howToCall = some nfts → WholeCall abi target data howToCall nfts := by
  intro depth
  induction depth with
  | zero => exact fun h => (nomatch h)
  | succ depth ih =>
    intro target data howToCall nfts h
    unfold decodeNftCalls at h
    by_cases hbundle : target = Wyvern.atomicizer ∧ howToCall = Wyvern.delegateCall
    · rw [if_pos hbundle] at h
      obtain ⟨args, hargs, h⟩ := Option.bind_eq_some_iff.mp h
      obtain ⟨hguard, h⟩ := Option.ite_none_left_eq_some.mp h
      rw [not_or, not_or, Decidable.not_not, Decidable.not_not] at hguard
      obtain ⟨-, hlengths, hvalues⟩ := hguard
      obtain ⟨leaves, hleaves, hpayload, hnfts, hall⟩ :=
        atomicizerLeaves_whole (fun target data nfts h => (ih h).plain) h
      refine .bundle hbundle.1 hbundle.2 args hargs leaves ⟨?_, ?_, hpayload, ?_, hall⟩ hnfts
      · have hfst := congrArg (List.map Prod.fst) hleaves
        rw [List.map_fst_zip (Nat.le_of_eq hlengths), List.map_map] at hfst
        exact hfst
      · have hsnd := congrArg (List.map Prod.snd) hleaves
        rw [List.map_snd_zip (Nat.le_of_eq hlengths.symm), List.map_map] at hsnd
        exact hsnd
      · intro value hvalue
        by_contra hne
        exact hvalues (List.any_eq_true.mpr ⟨value, hvalue, decide_eq_true hne⟩)
    · rw [if_neg hbundle] at h
      by_cases hcriteria : target = Wyvern.merkleValidator ∧ howToCall = Wyvern.delegateCall
      · rw [if_pos hcriteria] at h
        obtain ⟨c, hc, hnfts⟩ := Option.bind_eq_some_iff.mp h
        exact .criteria hcriteria.1 hcriteria.2 c hc hnfts
      · rw [if_neg hcriteria] at h
        obtain ⟨hplain, h⟩ := Option.ite_none_left_eq_some.mp h
        refine .leaf (Decidable.not_not.mp hplain) ?_
        rcases Option.or_eq_some_iff.mp h with h | ⟨-, h⟩
        · obtain ⟨c, hc, hnfts⟩ := Option.bind_eq_some_iff.mp h
          exact .erc721 c hc hnfts
        · obtain ⟨c, hc, hnfts⟩ := Option.bind_eq_some_iff.mp h
          exact .erc1155 c hc hnfts

/-! ## 7. Where a candidate comes from -/

/-- An `atomicMatch_` call whose replaced payloads agree and whose NFTs are all known and of its seller. -/
structure AgreedMatch (abi : WyvernAbi) (c : WyvernMatchCall) : Prop where
  whole : ∃ input args matched, abi.exchange input = some args ∧
    Replaced args.calldataBuy args.calldataSell args.replacementPatternBuy matched ∧
    Replaced args.calldataSell matched args.replacementPatternSell matched ∧
    WholeCall abi (args.addrs 4) matched (args.feeMethodsSidesKindsHowToCalls 3) c.nfts ∧
    c.seller = args.addrs 8
  ofSeller : ∀ nft ∈ c.nfts, nft.fromAddress = c.seller

theorem decodeAtomicMatch_agreed {destination : Option Address} {input : Bytes}
    (h : decodeAtomicMatch abi destination input = some c) (hnfts : c.nfts ≠ []) :
    AgreedMatch abi c := by
  obtain ⟨args, hargs, hcall⟩ := Option.bind_eq_some_iff.mp h
  obtain ⟨-, hpaired⟩ := Option.ite_none_right_eq_some.mp hcall
  obtain ⟨matchedBuy, hbuy, hrest⟩ := Option.bind_eq_some_iff.mp hpaired
  obtain ⟨matchedSell, hsell, hmatched⟩ := Option.bind_eq_some_iff.mp hrest
  obtain ⟨hagree, hsome⟩ := Option.ite_none_left_eq_some.mp hmatched
  obtain rfl := Decidable.not_not.mp hagree
  obtain rfl := Option.some.inj hsome
  dsimp only at hnfts ⊢
  cases hdecoded : decodeNftCalls abi Wyvern.maxCallDepth (args.addrs 4) matchedSell
      (args.feeMethodsSidesKindsHowToCalls 3) with
  | none =>
    rw [hdecoded] at hnfts
    exact absurd (by rw [Option.getD_none, ite_self]) hnfts
  | some nfts =>
    rw [hdecoded, Option.getD_some] at hnfts
    rw [Option.getD_some]
    by_cases hseller : (nfts.all fun nft => nft.fromAddress = args.addrs 8) = true
    · rw [if_pos hseller]
      refine ⟨⟨input, args, matchedSell, hargs, guardedReplace_replaced hbuy, guardedReplace_replaced hsell,
        decodeNftCalls_whole hdecoded, rfl⟩, fun nft hnft => ?_⟩
      exact of_decide_eq_true (List.all_eq_true.mp hseller nft hnft)
    · rw [if_neg hseller] at hnfts
      exact absurd rfl hnfts

theorem tradeCalls_decoded {target : Address} {router : RouterCall} {trade : RouterTrade}
    (h : c ∈ tradeCalls abi target router trade) :
    ∃ destination input, decodeAtomicMatch abi destination input = some c := by
  unfold tradeCalls decodeGenieBuys at h
  split at h
  · split at h
    · cases h
    split at h
    · cases h
    · obtain ⟨input, -, hdecoded⟩ := List.mem_filterMap.mp h
      exact ⟨_, input, hdecoded⟩
  · split at h
    · exact ⟨_, _, Option.mem_toList.mp h⟩
    · split at h
      · cases h
      · exact ⟨_, _, Option.mem_toList.mp h⟩

theorem unwrapCalls_decoded : ∀ {depth : Nat}
    {recipient : Option Address} {input : Bytes}, c ∈ unwrapCalls abi depth recipient input →
      ∃ destination input, decodeAtomicMatch abi destination input = some c := by
  intro depth
  induction depth with
  | zero => exact fun h => (nomatch h)
  | succ depth ih =>
    intro recipient input h
    cases recipient with
    | none => cases h
    | some target =>
      unfold unwrapCalls at h
      split at h
      · exact ⟨_, _, Option.mem_toList.mp h⟩
      split at h
      · split at h
        · cases h
        · obtain ⟨inner, -, hinner⟩ := List.mem_flatMap.mp h
          exact ih hinner
      · split at h
        · cases h
        split at h
        · cases h
        · obtain ⟨trade, -, htrade⟩ := List.mem_flatMap.mp h
          exact tradeCalls_decoded htrade

/-- A sale by a packed helper: one ERC721 token of the seller, paid in native currency. -/
structure PackedSale (transaction : TransactionSummary) (c : WyvernMatchCall) : Prop where
  packed : c ∈ decodePackedWyvernCalls transaction
  helper : transaction.toAddress = some c.taker
  one : ∃ nft, c.nfts = [nft] ∧ nft.fromAddress = c.seller ∧ nft.itemType = FillItemType.erc721 ∧
    nft.amount = 1 ∧ nft.toAddress = transaction.fromAddress
  native : c.currency = zeroAddress

theorem packedTrades_sale {helper protocolAddress : Address}
    {count stride sellerOffset identifierOffset : Nat}
    (h : c ∈ packedTrades transaction helper protocolAddress count stride sellerOffset identifierOffset) :
    c.taker = helper ∧ c.currency = zeroAddress ∧ ∃ nft, c.nfts = [nft] ∧ nft.fromAddress = c.seller ∧
      nft.itemType = FillItemType.erc721 ∧ nft.amount = 1 ∧ nft.toAddress = transaction.fromAddress := by
  unfold packedTrades at h
  split at h
  · cases h
  obtain ⟨i, -, htrade⟩ := List.mem_filterMap.mp h
  obtain ⟨-, htrade⟩ := Option.ite_none_left_eq_some.mp htrade
  obtain rfl := Option.some.inj htrade
  exact ⟨rfl, rfl, _, rfl, rfl, rfl, rfl, rfl⟩

theorem decodePackedWyvernCalls_sale
    (h : c ∈ decodePackedWyvernCalls transaction) : PackedSale transaction c := by
  have hpacked := h
  unfold decodePackedWyvernCalls at h
  cases hto : transaction.toAddress with
  | none =>
    rw [hto] at h
    cases h
  | some helper =>
    rw [hto] at h
    dsimp only at h
    have htrades : ∃ protocolAddress count stride sellerOffset identifierOffset,
        c ∈ packedTrades transaction helper protocolAddress count stride sellerOffset identifierOffset := by
      split at h
      · split at h
        · cases h
        · exact ⟨_, _, _, _, _, h⟩
      · split at h
        · split at h
          · cases h
          · exact ⟨_, _, _, _, _, h⟩
        · cases h
    obtain ⟨_, _, _, _, _, htrade⟩ := htrades
    obtain ⟨htaker, hnative, hone⟩ := packedTrades_sale htrade
    exact ⟨hpacked, by rw [hto, htaker], hone, hnative⟩

/-- **A candidate with NFTs is an agreed `atomicMatch_` call or a packed sale.** -/
theorem decodeWyvernMatchCalls_whole
    (h : c ∈ decodeWyvernMatchCalls abi transaction) (hnfts : c.nfts ≠ []) :
    AgreedMatch abi c ∨ PackedSale transaction c := by
  rcases List.mem_append.mp h with h | h
  · obtain ⟨destination, input, hdecoded⟩ := unwrapCalls_decoded h
    exact Or.inl (decodeAtomicMatch_agreed hdecoded hnfts)
  · exact Or.inr (decodePackedWyvernCalls_sale h)

end Artgod.Indexer
