/-
# Unit prices of placed offers

`placeOffer` has one order signed for a unit price times a quantity, and `extractOpenSeaWethUnitPrice` gets the
unit price back from its Seaport parameters.  For an order that was placed this is exact; for any other it is the
total, rounded up to a multiple of the units where the order can be filled in part.
-/
import Artgod.Trading.CollectionOfferScans
import Artgod.Trading.PolicyWallet

namespace Artgod.Trading

open Js

/-! ## 1. Total and quantity of an offer -/

section Extraction

variable (engine : OfferEngine)

/-- The WETH of the order: the larger of the two sums. -/
def protocolTotal (rawOrder : Value) : Int :=
  let parameters := getOpenSeaProtocolParameters rawOrder
  max (sumTokenItems engine (field parameters "offer") wethAddress)
    (sumTokenItems engine (field parameters "consideration") wethAddress)

/-- The units of the NFT leg, one if there are none. -/
def protocolQuantity (rawOrder : Value) (collectionAddress : Option String) : Int :=
  let parameters := getOpenSeaProtocolParameters rawOrder
  let nftUnitsFromConsideration := sumNftUnits engine (field parameters "consideration") collectionAddress
  let nftUnits :=
    if nftUnitsFromConsideration > 0 then nftUnitsFromConsideration
    else sumNftUnits engine (field parameters "offer") collectionAddress
  if nftUnits > 0 then nftUnits else 1

/-- The order can be filled in part. -/
def isPartialOffer (rawOrder : Value) : Bool :=
  isPartialOrderType engine (firstOf (getOpenSeaProtocolParameters rawOrder) ["orderType", "order_type"]) ||
    match tryParseNumber engine (firstOf (asRecord rawOrder) ["remainingQuantity", "remaining_quantity"]) with
    | some remainingQuantity => 1 < remainingQuantity
    | none => false

theorem protocolPrice_eq (rawOrder : Value) (collectionAddress : Option String) :
    protocolPrice engine rawOrder collectionAddress =
      if 0 < protocolTotal engine rawOrder then
        if isPartialOffer engine rawOrder = true ∧ 1 < protocolQuantity engine rawOrder collectionAddress then
          some (divCeil (protocolTotal engine rawOrder) (protocolQuantity engine rawOrder collectionAddress))
        else some (protocolTotal engine rawOrder)
      else none := by
  have hmax : ∀ a b : Int, (if b ≤ a then a else b) = max a b := by
    intro a b
    split <;> omega
  have hpos : ∀ a b : Int, (a > 0 ∨ b > 0) ↔ 0 < max a b := by
    intro a b
    omega
  unfold protocolPrice protocolTotal
  dsimp only
  rw [hmax]
  simp only [hpos]
  rfl

theorem protocolQuantity_pos (rawOrder : Value) (collectionAddress : Option String) :
    0 < protocolQuantity engine rawOrder collectionAddress := by
  unfold protocolQuantity
  dsimp only
  generalize (if 0 < sumNftUnits engine (field (getOpenSeaProtocolParameters rawOrder) "consideration") collectionAddress
    then _ else _ : Int) = units
  split
  · assumption
  · exact Int.one_pos

end Extraction

variable {q : Int} {engine : OfferEngine} {w : OpenSeaPolicyWallet} {e : OfferSigningExpectation}
  {job : BidderJob}

/-- **Rounding up:** the least number of which so many make at least the total. -/
theorem divCeil_bounds {t : Int} (ht : 0 < t) (hq : 0 < q) :
    t ≤ divCeil t q * q ∧ (divCeil t q - 1) * q < t := by
  unfold divCeil
  dsimp only
  rw [Int.tdiv_eq_ediv_of_nonneg ht.le, Int.tmod_eq_emod_of_nonneg ht.le]
  have hdivision := Int.mul_ediv_add_emod t q
  have hlow := Int.emod_nonneg t hq.ne'
  have hhigh := Int.emod_lt_of_pos t hq
  rw [mul_comm] at hdivision
  split
  · next hzero =>
    rw [sub_mul, one_mul]
    omega
  · next hzero =>
    rw [add_mul, one_mul, add_sub_cancel_right]
    omega

theorem divCeil_mul {p : Int} (hq : 0 < q) : divCeil (p * q) q = p := by
  unfold divCeil
  dsimp only
  rw [Int.mul_tmod_left, if_pos rfl, Int.mul_tdiv_cancel _ hq.ne']

/-- **The unit price of any offer** that names WETH in its parameters: the total rounded up to a multiple of the
units, where the order can be filled in part, and the total itself where it cannot. -/
theorem unitPrice_bounds {rawOrder : Value} {collectionAddress : Option String} {u : Int}
    (hparameters : hasParameters rawOrder = true) (htotal : 0 < protocolTotal engine rawOrder)
    (h : extractOpenSeaWethUnitPrice engine rawOrder collectionAddress = some u) :
    (isPartialOffer engine rawOrder = true →
      protocolTotal engine rawOrder ≤ u * protocolQuantity engine rawOrder collectionAddress ∧
      (u - 1) * protocolQuantity engine rawOrder collectionAddress < protocolTotal engine rawOrder) ∧
    (isPartialOffer engine rawOrder = false → u = protocolTotal engine rawOrder) := by
  have hquantity := protocolQuantity_pos engine rawOrder collectionAddress
  unfold extractOpenSeaWethUnitPrice at h
  rw [if_pos hparameters, protocolPrice_eq, if_pos htotal] at h
  split at h
  · next price hprice =>
    cases h
    split at hprice
    · next hpart =>
      cases hprice
      refine ⟨fun _ => divCeil_bounds htotal hquantity, fun hnot => ?_⟩
      rw [hpart.1] at hnot
      cases hnot
    · next hwhole =>
      cases hprice
      refine ⟨fun hpart => ?_, fun _ => rfl⟩
      have hone : protocolQuantity engine rawOrder collectionAddress = 1 := by
        have hle := not_lt.mp fun hlt => hwhole ⟨hpart, hlt⟩
        omega
      rw [hone, mul_one, mul_one]
      omega
  · next hnone =>
    split at hnone
    · cases hnone
    · cases hnone

/-! ## 2. Reading the items of a signed order -/

/-- `BigInt` and `Number` read the unsigned integers that the wallet reads. -/
structure OfferEngine.ReadsUints (engine : OfferEngine) : Prop where
  amounts : ∀ value n, parseUint value = some n → engine.toBigInt value = some (n : Int)
  itemTypes : ∀ value n, parseUint value = some n → n ≤ 5 → engine.toNumber value = .finite n

/-- **The offer lists the order that was signed:** its parameters have the signed items, and the order type as a
number. -/
structure ListsSignedOrder (raw : Value) (order : List (String × Value)) : Prop where
  parameters : ∃ envelope parameters, getOpenSeaProtocolEnvelope raw = some envelope ∧
    field envelope "parameters" = .object parameters ∧
    field parameters "offer" = field order "offer" ∧
    field parameters "consideration" = field order "consideration" ∧
    ∀ n : Nat, DenotesUint (field order "orderType") n →
      firstOf parameters ["orderType", "order_type"] = .number (.finite n)

variable {p : Platform}

theorem toLowerCase_of_ascii {s : String} (h : ∀ c ∈ (asciiLower s).toList, c.toNat < 128) :
    toLowerCase p s = asciiLower s := by
  rw [toLowerCase, asciiLower, List.map_eq_flatMap]
  congr 1
  refine List.flatMap_congr fun c hc => if_pos ?_
  have hlower : c.toLower.toNat < 128 := by
    refine h c.toLower ?_
    unfold asciiLower
    rw [String.toList_ofList]
    exact List.mem_map_of_mem hc
  by_contra hlarge
  have hsame : c.toLower = c := by
    unfold Char.toLower
    rw [dif_neg]
    intro hupper
    have hle : c.val ≤ 'Z'.val := hupper.2
    have hnat : c.toNat ≤ 90 := hle
    omega
  rw [hsame] at hlower
  exact hlarge hlower

theorem toLower_lt {c : Char} (h : c.toNat < 128) : c.toLower.toNat < 128 := by
  unfold Char.toLower
  split
  · next hupper =>
    have hle : c.toNat ≤ 90 := hupper.2
    show (c.val + ('a'.val - 'A'.val)).toNat < 128
    rw [UInt32.toNat_add]
    have hshift : ('a'.val - 'A'.val).toNat = 32 := by decide
    have hval : c.val.toNat = c.toNat := rfl
    omega
  · exact h

section Items

variable {engine : OfferEngine} (hengine : engine.ReadsUints)
include hengine

variable {item order : List (String × Value)} {n quantity : Int} {contract maker : String}
  {target : BidderTarget}

variable {value : Value} {amount : Nat} {total : Int} {collectionAddress : String}

theorem tryParseBigInt_uint (h : DenotesUint value n) : tryParseBigInt engine value = some n := by
  obtain ⟨k, hk, rfl⟩ := h
  have hread := hengine.amounts value k hk
  cases value with
  | undefined => cases hk
  | null => cases hk
  | bool b => exact hread
  | number q => exact hread
  | bigint i => exact hread
  | string s => exact hread
  | array items => exact hread
  | object fields => exact hread
  | function => exact hread

omit hengine in
theorem orElse_uint {other : Value} (h : DenotesUint value n) : orElse value other = value := by
  obtain ⟨k, hk, -⟩ := h
  cases value with
  | undefined => cases hk
  | null => cases hk
  | bool b => rfl
  | number q => rfl
  | bigint i => rfl
  | string s => rfl
  | array items => rfl
  | object fields => rfl
  | function => rfl

theorem readAmount_uint (h : DenotesUint (field item "startAmount") n) :
    tryParseBigInt engine (readAmount (.object item)) = some n := by
  have hread : readAmount (.object item) = field item "startAmount" := orElse_uint h
  rw [hread]
  exact tryParseBigInt_uint hengine h

theorem readItemType_uint {n : Nat} (h : DenotesUint (field item "itemType") n)
    (hle : n ≤ 5) : readItemType engine (.object item) = .finite n := by
  have hread : readItemType engine (.object item) = engine.toNumber (field item "itemType") :=
    congrArg engine.toNumber (orElse_uint h)
  obtain ⟨k, hk, hkn⟩ := h
  rw [hread, hengine.itemTypes _ k hk (by omega)]
  congr 1
  exact_mod_cast hkn

omit hengine in
theorem isToken_address {text : String} (htext : field item "token" = .string text)
    (hne : text ≠ "") (hascii : ∀ c ∈ (asciiLower text).toList, c.toNat < 128) (address : String) :
    isToken engine address (.object item) = decide (asciiLower text = address) := by
  have htoken : stringOrUndefined (field item "token") = some text := by
    rw [htext]
    exact if_neg hne
  unfold isToken
  rw [show asRecord (.object item) = item from rfl, htoken]
  dsimp only
  rw [toLowerCase_of_ascii hascii]

omit hengine in
theorem weth_lower : asciiLower openSeaMainnetSecurityPolicy.wethAddress = wethAddress := by decide +kernel

omit hengine in
theorem weth_ascii : ∀ c ∈ wethAddress.toList, c.toNat < 128 := by
  have hall : wethAddress.toList.all (fun c => decide (c.toNat < 128)) = true := by decide +kernel
  exact fun c hc => of_decide_eq_true (List.all_eq_true.mp hall c hc)

omit hengine in
theorem isToken_weth (h : WethItem item amount) : isToken engine wethAddress (.object item) = true := by
  obtain ⟨text, htext, hsame⟩ := h.token
  have hlower : asciiLower text = wethAddress := Eq.trans hsame weth_lower
  have hne : text ≠ "" := by
    rintro rfl
    exact absurd hlower (by decide +kernel)
  rw [isToken_address htext hne (by rw [hlower]; exact weth_ascii), hlower]
  exact decide_eq_true rfl

theorem isNftItem_weth (h : WethItem item amount) :
    (isExplicitItem engine (.object item) || isCriteriaItem engine (.object item)) = false := by
  unfold isExplicitItem isCriteriaItem
  rw [readItemType_uint hengine h.itemType (by decide)]
  decide

theorem isCriteriaItem_uint
    (h : ∃ t ∈ [itemTypeErc721WithCriteria, itemTypeErc1155WithCriteria], DenotesUint (field item "itemType") t) :
    isCriteriaItem engine (.object item) = true := by
  obtain ⟨t, ht, htype⟩ := h
  unfold isCriteriaItem
  rcases List.mem_cons.mp ht with rfl | ht
  · rw [readItemType_uint hengine htype (by decide)]
    decide
  · rw [List.mem_singleton.mp ht] at htype
    rw [readItemType_uint hengine htype (by decide)]
    decide

theorem sumAmounts_weth {items : List (List (String × Value))} {amounts : List Nat}
    (h : List.Forall₂ WethItem items amounts) : sumAmounts engine (items.map .object) = amounts.sum := by
  unfold sumAmounts
  induction h with
  | nil => rfl
  | cons hitem _ ih =>
    rw [List.map_cons, List.map_cons, List.sum_cons, ih, readAmount_uint hengine hitem.startAmount, List.sum_cons]
    push_cast
    rfl

omit hengine in
theorem filter_weth {items : List (List (String × Value))} {amounts : List Nat}
    (h : List.Forall₂ WethItem items amounts) :
    (items.map Value.object).filter (isToken engine wethAddress) = items.map .object := by
  refine List.filter_eq_self.mpr fun item hitem => ?_
  obtain ⟨fields, hfields, rfl⟩ := List.mem_map.mp hitem
  obtain ⟨_, -, hweth⟩ := (forall₂_partners h).2 fields hfields
  exact isToken_weth hweth

/-- **The WETH of a conforming order is the amount that it offers.** -/
theorem sums_of_conforms (h : OfferConforms maker contract target quantity total order)
    (hcontract : ∀ c ∈ contract.toList, c.toNat < 128) (hfilled : contract ≠ "") (hweth : contract ≠ wethAddress) :
    sumTokenItems engine (field order "offer") wethAddress = total ∧
      sumTokenItems engine (field order "consideration") wethAddress ≤ total := by
  obtain ⟨item, amount, hoffer, hitem, htotal⟩ := h.offer
  obtain ⟨before, nft, after, fees, hconsideration, htarget, hfees, hsum⟩ := h.consideration
  constructor
  · rw [hoffer]
    show sumAmounts engine ([Value.object item].filter (isToken engine wethAddress)) = total
    have hone : List.Forall₂ WethItem [item] [amount] := .cons hitem .nil
    have hfilter := @filter_weth engine _ _ hone
    rw [List.map_singleton] at hfilter
    rw [hfilter]
    have hsum := sumAmounts_weth hengine hone
    rw [List.map_singleton] at hsum
    rw [hsum, ← htotal]
    simp
  · rw [hconsideration]
    show sumAmounts engine (((before ++ nft :: after).map Value.object).filter (isToken engine wethAddress)) ≤ total
    have hnft : isToken engine wethAddress (.object nft) = false := by
      obtain ⟨text, htext, hlower⟩ := htarget.token
      have hne : text ≠ "" := by
        rintro rfl
        exact hfilled hlower.symm
      rw [isToken_address htext hne (by rw [hlower]; exact hcontract), hlower]
      exact decide_eq_false hweth
    have hrest : ((before ++ nft :: after).map Value.object).filter (isToken engine wethAddress) =
        (before ++ after).map Value.object := by
      rw [← @filter_weth engine _ _ hfees, List.map_append, List.map_append, List.map_cons, List.filter_append,
        List.filter_append, List.filter_cons_of_neg (by rw [hnft]; exact Bool.false_ne_true)]
    rw [hrest, sumAmounts_weth hengine hfees]
    exact hsum

theorem units_of_conforms (h : OfferConforms maker contract target quantity total order)
    (hcriteria : ∀ tokenId, target ≠ .token tokenId) (hcontract : ∀ c ∈ contract.toList, c.toNat < 128)
    (hcollection : asciiLower collectionAddress = contract) :
    sumNftUnits engine (field order "consideration") (some collectionAddress) = quantity := by
  obtain ⟨before, nft, after, fees, hconsideration, htarget, hfees, -⟩ := h.consideration
  rw [hconsideration]
  unfold sumNftUnits
  show sumAmounts engine (((before ++ nft :: after).map Value.object).filter _) = quantity
  -- a fee is no NFT item
  have hfee : ∀ {part : List (List (String × Value))}, (∀ item ∈ part, item ∈ before ++ after) →
      ∀ q : Value → Bool, (part.map Value.object).filter (fun item =>
        (isExplicitItem engine item || isCriteriaItem engine item) && q item) = [] := by
    intro part hpart q
    refine List.filter_eq_nil_iff.mpr fun item hitem => ?_
    obtain ⟨fields, hfields, rfl⟩ := List.mem_map.mp hitem
    obtain ⟨_, -, hweth⟩ := (forall₂_partners hfees).2 fields (hpart fields hfields)
    rw [isNftItem_weth hengine hweth]
    exact Bool.false_ne_true
  have hkind : isCriteriaItem engine (.object nft) = true := by
    have hkind := htarget.kind
    cases target with
    | token tokenId => exact absurd rfl (hcriteria tokenId)
    | collection q traits => exact isCriteriaItem_uint hengine hkind
    | competitiveTrait q trait traits => exact isCriteriaItem_uint hengine hkind
  obtain ⟨text, htext, hlower⟩ := htarget.token
  have hsame : toLowerCase engine.platform text = toLowerCase engine.platform collectionAddress := by
    rw [toLowerCase_of_ascii (by rw [hlower]; exact hcontract),
      toLowerCase_of_ascii (by rw [hcollection]; exact hcontract), hlower, hcollection]
  rw [List.map_append, List.map_cons, List.filter_append,
    hfee (fun item hitem => List.mem_append_left _ hitem), List.nil_append, List.filter_cons_of_pos,
    hfee (fun item hitem => List.mem_append_right _ hitem)]
  · unfold sumAmounts
    rw [List.map_singleton, List.sum_singleton, readAmount_uint hengine htarget.startAmount]
    rfl
  rw [hkind, Bool.or_true, Bool.true_and, show asRecord (.object nft) = nft from rfl, htext]
  unfold stringOrUndefined
  dsimp only
  split
  · next address token haddress htoken =>
    cases haddress
    split at htoken
    · cases htoken
    · cases htoken
      rw [hsame, decide_eq_true rfl, Bool.or_true]
  · rfl

/-- **A listed order has the unit price that its total was made of.** -/
theorem extractOpenSeaWethUnitPrice_listed {raw : Value}
    {amount : Int}
    (hlists : ListsSignedOrder raw order) (hconforms : OfferConforms maker contract target quantity (amount * quantity) order)
    (horderType : DenotesUint (field order "orderType") orderTypePartialRestricted)
    (hcriteria : ∀ tokenId, target ≠ .token tokenId) (hcontract : ∀ c ∈ contract.toList, c.toNat < 128)
    (hfilled : contract ≠ "") (hweth : contract ≠ wethAddress) (hcollection : asciiLower collectionAddress = contract)
    (hquantity : 0 < quantity) (htotal : 0 < amount * quantity) :
    extractOpenSeaWethUnitPrice engine raw (some collectionAddress) = some amount := by
  obtain ⟨envelope, parameters, henvelope, hparameters, hoffer, hconsideration, htype⟩ := hlists.parameters
  obtain ⟨hofferSum, hconsiderationSum⟩ := sums_of_conforms hengine hconforms hcontract hfilled hweth
  have hunits := units_of_conforms hengine hconforms hcriteria hcontract hcollection
  have hread : getOpenSeaProtocolParameters raw = parameters := by
    unfold getOpenSeaProtocolParameters
    rw [henvelope]
    dsimp only
    rw [hparameters]
    rfl
  have hhas : hasParameters raw = true := by
    unfold hasParameters
    rw [henvelope]
    dsimp only
    rw [hparameters]
  have hprotocolTotal : protocolTotal engine raw = amount * quantity := by
    unfold protocolTotal
    dsimp only
    rw [hread, hoffer, hconsideration, hofferSum]
    exact max_eq_left hconsiderationSum
  have hprotocolQuantity : protocolQuantity engine raw (some collectionAddress) = quantity := by
    unfold protocolQuantity
    dsimp only
    rw [hread, hconsideration, hunits, if_pos hquantity, if_pos hquantity]
  have hpart : isPartialOffer engine raw = true := by
    unfold isPartialOffer
    rw [hread, htype orderTypePartialRestricted horderType]
    rfl
  unfold extractOpenSeaWethUnitPrice
  rw [if_pos hhas, protocolPrice_eq, hprotocolTotal, hprotocolQuantity, hpart, if_pos htotal]
  by_cases hone : 1 < quantity
  · rw [if_pos ⟨rfl, hone⟩, divCeil_mul hquantity]
  · rw [if_neg fun h => hone h.2, show quantity = 1 by omega, mul_one]

end Items

/-! ## 3. The order of a placement -/

/-- An order that conforms and can be filled in part. -/
structure PartialSeaportOrder (maker contract : String) (target : BidderTarget) (quantity total : Int)
    (order : List (String × Value)) : Prop where
  conforms : OfferConforms maker contract target quantity total order
  orderType : DenotesUint (field order "orderType") orderTypePartialRestricted

theorem forwarded_orderType
    {typedData : OpenSeaTypedData} {u : Unit} (h : w.assertOfferTypedData p typedData e = .ok u) :
    DenotesUint (field typedData.message "orderType") orderTypePartialRestricted := by
  simp only [OpenSeaPolicyWallet.assertOfferTypedData, bind_eq_ok] at h
  obtain ⟨_, -, _, -, _, -, _, -, _, -, _, -, _, -, _, horderType, -⟩ := h
  exact assertUintEquals_ok horderType

theorem resolveOfferQuantity_pos {quantity : Int} (h : resolveOfferQuantity job = .ok quantity) :
    0 < quantity := by
  have hresolve : ∀ n, resolveOfferQuantity.resolve job n = .ok quantity → 0 < quantity := by
    intro n hn
    unfold resolveOfferQuantity.resolve at hn
    split at hn
    · split at hn
      · next hpos =>
        cases hn
        exact hpos
      · cases hn
    · cases hn
  unfold resolveOfferQuantity at h
  split at h
  · cases h
    exact Int.one_pos
  · exact hresolve _ h
  · exact hresolve _ h

theorem authorized_collection {authorization : OpenSeaOfferSigningAuthorization}
    (h : w.createOfferSigningExpectation p authorization = .ok e) :
    isHexOfLength 40 authorization.job.collectionAddress = true := by
  simp only [OpenSeaPolicyWallet.createOfferSigningExpectation, violation, bind_eq_ok, ite_error_eq_ok] at h
  obtain ⟨_, -, -, -, h⟩ := h
  split at h
  · cases h
  simp only [bind_eq_ok, ite_error_eq_ok] at h
  obtain ⟨-, address, haddress, -⟩ := h
  have hget := normalizeAddress_ok haddress
  unfold getAddress? at hget
  split at hget
  · assumption
  · cases hget

/-- **The offer was placed for the job at this unit price:** its order was signed in the session of a call of
`placeOffer`, and the marketplace lists it. -/
def PlacedAt (job : BidderJob) (amount : Int) (raw : Value) : Prop :=
  ∃ (p : Platform) (m : BiddingMandate) (signerAddress weth : String) (w : OpenSeaPolicyWallet) (trust : Bool)
    (expirationTime : Number) (authorization : OpenSeaOfferSigningAuthorization) (session : OfferSigningSession)
    (events : List SigningEvent),
    p.ChecksumKeepsAddress ∧ OpenSeaPolicyWallet.create p signerAddress weth m = .ok w ∧
    placeOffer trust job amount expirationTime = .ok authorization ∧ w.authorizeOffer p authorization = .ok session ∧
    ∃ typedData ∈ (w.signingRun p session events).forwarded, ListsSignedOrder raw typedData.message

/-- **The unit price of a placed offer comes back,** for the tokens of a collection and for those with some
traits. -/
theorem extractOpenSeaWethUnitPrice_placed (hengine : engine.ReadsUints)
    {amount : Int} {raw : Value} (hplaced : PlacedAt job amount raw) (hcriteria : ∀ tokenId, job.target ≠ .token tokenId)
    (hcollection : asciiLower job.collectionAddress ≠ wethAddress) :
    extractOpenSeaWethUnitPrice engine raw (some job.collectionAddress) = some amount := by
  obtain ⟨p, m, signerAddress, weth, w, trust, expirationTime, authorization, session, events, hp, hw, hplace,
    hsession, typedData, hsigned, hlists⟩ := hplaced
  have hbuilt := create_ok hp hw
  simp only [placeOffer, ite_error_eq_ok, bind_eq_ok] at hplace
  obtain ⟨-, placed, hplaced, hpure⟩ := hplace
  cases hpure
  simp only [OpenSeaPolicyWallet.authorizeOffer, bind_eq_ok] at hsession
  obtain ⟨e, hexpectation, hopen⟩ := hsession
  cases hopen
  obtain ⟨quantity, authority, hauthorized, -, hexpects⟩ := createOfferSigningExpectation_ok hexpectation
  have hsame : placed = quantity := by
    rw [((quantities_agree job).mandate quantity hauthorized.resolved).1] at hplaced
    exact (Except.ok.inj hplaced).symm
  subst hsame
  -- the wallet forwards conforming orders that can be filled in part, and no others
  have hchecked : ∀ {typedData : OpenSeaTypedData} {u : Unit}, w.assertOfferTypedData p typedData e = .ok u →
      PartialSeaportOrder signerAddress authority.contractAddress job.target placed (amount * placed) typedData.message :=
    fun h => ⟨assertOfferTypedData_ok hp hbuilt hexpects h, forwarded_orderType h⟩
  have hrun := SessionInv.run hchecked events (s := ⟨true, e, .available, [], 0⟩) ⟨rfl, by simp, rfl⟩
  obtain ⟨hconforms, horderType⟩ := hrun.forwarded typedData hsigned
  have hhex := authorized_collection hexpectation
  have hcontract : asciiLower job.collectionAddress = authority.contractAddress := by
    rw [← hauthorized.contract, trim_address hhex, toLowerCase_address hhex]
  have hascii : ∀ c ∈ authority.contractAddress.toList, c.toNat < 128 := by
    intro c hc
    rw [← hcontract, asciiLower, String.toList_ofList] at hc
    obtain ⟨d, hd, rfl⟩ := List.mem_map.mp hc
    exact toLower_lt (isHexOfLength_char hhex hd).1
  refine extractOpenSeaWethUnitPrice_listed hengine hlists hconforms horderType hcriteria hascii ?_ ?_ hcontract
    (resolveOfferQuantity_pos hauthorized.resolved) hauthorized.positive
  · rw [← hcontract]
    intro hempty
    unfold isHexOfLength at hhex
    have hnil := congrArg String.toList hempty
    rw [asciiLower, String.toList_ofList] at hnil
    rw [List.map_eq_nil_iff.mp hnil] at hhex
    cases hhex
  · rw [← hcontract]
    exact hcollection

/-- **Unit prices.**  An offer that was placed for a collection or for traits is read back at the unit price it was
placed for.  For any offer with WETH in its parameters, the unit price is the total rounded up to a multiple of
the units where the order can be filled in part, and the total where it cannot. -/
theorem unitPrice_round_trip (engine : OfferEngine) (hengine : engine.ReadsUints) :
    (∀ job amount raw, PlacedAt job amount raw → (∀ tokenId, job.target ≠ .token tokenId) →
      asciiLower job.collectionAddress ≠ wethAddress →
      extractOpenSeaWethUnitPrice engine raw (some job.collectionAddress) = some amount) ∧
    ∀ rawOrder collectionAddress u, hasParameters rawOrder = true → 0 < protocolTotal engine rawOrder →
      extractOpenSeaWethUnitPrice engine rawOrder collectionAddress = some u →
      (isPartialOffer engine rawOrder = true →
        protocolTotal engine rawOrder ≤ u * protocolQuantity engine rawOrder collectionAddress ∧
        (u - 1) * protocolQuantity engine rawOrder collectionAddress < protocolTotal engine rawOrder) ∧
      (isPartialOffer engine rawOrder = false → u = protocolTotal engine rawOrder) :=
  ⟨fun _ _ _ => extractOpenSeaWethUnitPrice_placed hengine, fun _ _ _ => unitPrice_bounds⟩

/-- An engine that reads unsigned integers of every spelling. -/
def uintEngine : OfferEngine :=
  { asciiEngine with
    toNumber := fun value =>
      match parseUint value with
      | some n => .finite n
      | none => .nan
    toBigInt := fun value => (parseUint value).map fun n => (n : Int) }

theorem uintEngine_readsUints : uintEngine.ReadsUints where
  amounts := by
    intro value n h
    rw [show uintEngine.toBigInt value = (parseUint value).map (fun n => (n : Int)) from rfl, h]
    rfl
  itemTypes := by
    intro value n h _
    rw [show uintEngine.toNumber value =
      (match parseUint value with | some n => Number.finite n | none => .nan) from rfl, h]

/-- The order for two tokens at 9 wei each, as it is signed. -/
def twoUnitOrder : List (String × Value) :=
  asRecord (field (asRecord twoUnitTypedData) "message")

/-- The offer that lists it. -/
def twoUnitOffer : Value :=
  .object [("order_hash", .string "0xaa"), ("protocol_data", .object [("parameters", .object twoUnitOrder)])]

theorem unitPrice_twoUnits :
    extractOpenSeaWethUnitPrice uintEngine twoUnitOffer (some twoUnitJob.collectionAddress) = some 9 := by
  have hcreate : OpenSeaPolicyWallet.create pinnedPlatform
      "0x1111111111111111111111111111111111111111" "0xC02aaA39b223FE8D0A0e5C4F27eAD9083C756Cc2"
      twoUnitMandate = .ok twoUnitWallet := by decide +kernel
  have hplace : placeOffer false twoUnitJob 9 (.finite 1000) = .ok ⟨twoUnitJob, 18, .finite 1000⟩ := by rfl
  have hexpectation : twoUnitWallet.createOfferSigningExpectation pinnedPlatform
      ⟨twoUnitJob, 18, .finite 1000⟩ = .ok twoUnitSession.expectation := by decide +kernel
  have hsession : twoUnitWallet.authorizeOffer pinnedPlatform ⟨twoUnitJob, 18, .finite 1000⟩ =
      .ok twoUnitSession := by
    rw [OpenSeaPolicyWallet.authorizeOffer, hexpectation]
    rfl
  have hlists : ListsSignedOrder twoUnitOffer twoUnitOrder := by
    refine ⟨_, twoUnitOrder, rfl, rfl, rfl, rfl, fun n hn => ?_⟩
    obtain ⟨k, hk, hkn⟩ := hn
    have hthree : parseUint (field twoUnitOrder "orderType") = some 3 := by decide +kernel
    rw [hthree] at hk
    cases hk
    rw [show n = 3 by omega]
    rfl
  obtain ⟨typedData, htypedData, hmessage⟩ : ∃ typedData ∈ (twoUnitWallet.signingRun pinnedPlatform twoUnitSession
      [.request twoUnitTypedData]).forwarded, typedData.message = twoUnitOrder :=
    ⟨_, List.mem_cons_self, rfl⟩
  refine (unitPrice_round_trip uintEngine uintEngine_readsUints).1 twoUnitJob 9 twoUnitOffer
    ⟨pinnedPlatform, twoUnitMandate, _, _, twoUnitWallet, false, .finite 1000, _, twoUnitSession,
      [.request twoUnitTypedData], pinnedPlatform_keepsAddress, hcreate, hplace, hsession, typedData, htypedData,
      hmessage ▸ hlists⟩ (fun tokenId h => ?_) (by decide +kernel)
  cases h

/-- An order for two tokens that can only be filled as a whole, for 10 wei. -/
def wholeOrder : Value :=
  let item (itemType token amount : String) : Value :=
    .object [("itemType", .string itemType), ("token", .string token), ("startAmount", .string amount)]
  .object [("protocol_data", .object [("parameters", .object [("orderType", .number (.finite 0)),
    ("offer", .array [item "1" "0xC02aaA39b223FE8D0A0e5C4F27eAD9083C756Cc2" "10"]),
    ("consideration", .array [item "4" "0x2222222222222222222222222222222222222222" "2"])])])]

/-- **The price of an order that cannot be filled in part is its total,** and no unit price. -/
theorem wholeOrder_price :
    ∃ u, extractOpenSeaWethUnitPrice uintEngine wholeOrder (some twoUnitJob.collectionAddress) = some u ∧
      hasParameters wholeOrder = true ∧ protocolTotal uintEngine wholeOrder = 10 ∧
      protocolQuantity uintEngine wholeOrder (some twoUnitJob.collectionAddress) = 2 ∧
      ¬ (u - 1) * protocolQuantity uintEngine wholeOrder (some twoUnitJob.collectionAddress) <
        protocolTotal uintEngine wholeOrder :=
  ⟨10, by decide +kernel, by decide +kernel, by decide +kernel, by decide +kernel, by decide +kernel⟩

end Artgod.Trading
