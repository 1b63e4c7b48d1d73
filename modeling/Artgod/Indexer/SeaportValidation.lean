/-
# Validating a Seaport order before it opens

`validateSeaportOrder` (`application/offchain/seaport-validate.ts`) gives an order that is checked before its
`startTime` the status of one that is past its end, and from there nothing looks at it again.
`stays_revalidatable_iff` says for which orders and validations this does not happen.
-/
import Artgod.Indexer.OrderBook
import Artgod.Js.Value

namespace Artgod.Indexer

open Store Js

/-! ## 1. The validator -/

/-- `ParsedProtocol`, with the parameters that the validator reads. -/
structure ParsedProtocol where
  protocolAddress : Address
  signature : Option String
  offerer : Address
  startTime : Int
  endTime : Int
  conduitKey : String
  counter : Int

/-- The functions of the protocol data alone: `parseProtocolData`, the order hash and the signer. -/
structure SeaportEngine where
  parseProtocolData : SeaportOrderData → Except String ParsedProtocol
  computeSeaportOrderHash : SeaportOrderData → Except String String
  recoverSeaportSigner : SeaportOrderData → Except String Address
  /-- `BigInt(text)`, unless it throws. -/
  toBigInt : String → Option Int

/-- What one validation reads: the clock, the chain and the conduit registry. -/
structure SeaportReads where
  now : Nat
  /-- `getOrderStatus`: validated, cancelled, filled and size. -/
  orderStatus : Except String (Bool × Bool × Int × Int)
  counter : Except String Int
  /-- `resolveConduit` of a key that is not zero. -/
  conduit : Except String (Option Address)
  /-- `ensureConduitChannel` of a conduit that is not the protocol itself. -/
  channel : Except String Bool
  owner : Except String Address
  approvedForAll : Except String Bool
  approved : Except String Address
  nativeBalance : Except String Int
  allowance : Except String Int
  balance : Except String Int

def invalidValidationResult (reason : String) : OrderStatus × String := (.invalid, reason)

def protocolError (error : String) : OrderStatus × String := invalidValidationResult s!"protocol-error:{error}"

section

variable (reads : SeaportReads)

def validateSellOrder (order : MarketOrderRow) (approvalTarget : Address) : OrderStatus × String :=
  if order.tokenId.all (· = "") then invalidValidationResult "missing-token-id"
  else
    match reads.owner with
    | .error e => protocolError e
    | .ok owner =>
      if owner ≠ order.maker then (.noBalance, "owner-mismatch")
      else
        match reads.approvedForAll with
        | .error e => protocolError e
        | .ok true => (.fillable, "approved")
        | .ok false =>
          match reads.approved with
          | .error e => protocolError e
          | .ok approved =>
            if approved = approvalTarget then (.fillable, "approved") else (.noApproval, "missing-approval")

def validateBuyOrder (order : MarketOrderRow) (price : Int) : OrderStatus × String :=
  if order.terms.currency.getD zeroAddress = zeroAddress then
    match reads.nativeBalance with
    | .error e => protocolError e
    | .ok balance => if balance < price then (.noBalance, "no-balance") else (.fillable, "native-ok")
  else
    match reads.allowance with
    | .error e => protocolError e
    | .ok allowance =>
      if allowance < price then (.noApproval, "no-allowance")
      else
        match reads.balance with
        | .error e => protocolError e
        | .ok balance => if balance < price then (.noBalance, "no-balance") else (.fillable, "erc20-ok")

def zeroBytes32 : String := "0x0000000000000000000000000000000000000000000000000000000000000000"

def resolveConduit (parsed : ParsedProtocol) : Except String (Option Address) :=
  if parsed.conduitKey = "" ∨ asciiLower parsed.conduitKey = zeroBytes32 then .ok (some parsed.protocolAddress)
  else reads.conduit

def ensureConduitChannel (approvalTarget protocolAddress : Address) : Except String Bool :=
  if approvalTarget = protocolAddress then .ok true else reads.channel

end

section

variable (engine : SeaportEngine)

/-- The price of the order: none where it is missing.  `BigInt` of a malformed price throws. -/
def orderPrice (order : MarketOrderRow) : Option (Option Int) :=
  match order.terms.price with
  | none => some none
  | some text => if text = "" then some none else (engine.toBigInt text).map some

/-- The last part of `validateSeaportOrder`: the conduit, the price and the side.  `none` is an exception. -/
def validateApprovals (reads : SeaportReads) (order : MarketOrderRow)
    (parsed : ParsedProtocol) : Option (OrderStatus × String) :=
  match resolveConduit reads parsed with
  | .error e => some (protocolError e)
  | .ok none => some (invalidValidationResult "unsupported-conduit")
  | .ok (some approvalTarget) =>
    match ensureConduitChannel reads approvalTarget parsed.protocolAddress with
    | .error e => some (protocolError e)
    | .ok false => some (invalidValidationResult "unsupported-conduit-channel")
    | .ok true =>
      match orderPrice engine order with
      | none => none
      | some none => some (invalidValidationResult "missing-price")
      | some (some price) =>
        if price ≤ 0 then some (invalidValidationResult "missing-price")
        else
          match order.terms.side with
          | .sell => some (validateSellOrder reads order approvalTarget)
          | .buy => some (validateBuyOrder reads order price)

/-- The middle part of `validateSeaportOrder`: the state of the order on the protocol. -/
def validateOpenOrder (reads : SeaportReads) (order : MarketOrderRow)
    (parsed : ParsedProtocol) : Option (OrderStatus × String) :=
  match reads.orderStatus with
  | .error e => some (protocolError e)
  | .ok (_, isCancelled, totalFilled, totalSize) =>
    if isCancelled then some (.cancelled, "cancelled")
    else if totalSize ≤ totalFilled ∧ 0 < totalSize then some (.filled, "filled")
    else
      match reads.counter with
      | .error e => some (protocolError e)
      | .ok counter =>
        if counter ≠ parsed.counter then some (.cancelled, "counter-mismatch")
        else validateApprovals engine reads order parsed

/-- The first part of `validateSeaportOrder`: the protocol data, its hash and its signer. -/
def checkProtocolData (order : MarketOrderRow) : Except String ParsedProtocol :=
  match order.terms.seaportData with
  | none => .error "missing-protocol"
  | some data =>
    match engine.parseProtocolData data with
    | .error e => .error s!"protocol-error:{e}"
    | .ok parsed =>
      match engine.computeSeaportOrderHash data with
      | .error e => .error s!"protocol-error:{e}"
      | .ok orderHash =>
        if asciiLower orderHash ≠ asciiLower order.id then .error "order-hash-mismatch"
        else if parsed.signature.all (· = "") then .ok parsed
        else
          match engine.recoverSeaportSigner data with
          | .error e => .error s!"signature-error:{e}"
          | .ok recovered => if recovered ≠ order.maker then .error "bad-signature" else .ok parsed

/-- `validateSeaportOrder`: the status and its reason; `none` is an exception. -/
def validateSeaportOrder (reads : SeaportReads) (order : MarketOrderRow) : Option (OrderStatus × String) :=
  match checkProtocolData engine order with
  | .error reason => some (invalidValidationResult reason)
  | .ok parsed =>
    if (reads.now : Int) < parsed.startTime then some (.expired, "not-active")
    else if parsed.endTime < reads.now then some (.expired, "expired")
    else validateOpenOrder engine reads order parsed

/-! ## 2. A validation of a stored order -/

/-- One validation: when it started, the revision it read, what it read besides, and when it was written. -/
structure ValidationRun where
  startedAt : Nat
  revision : Nat
  reads : SeaportReads
  appliedAt : Nat

/-- The status that a validation of the row comes to (`handleOrderUpdateById`). -/
def validatedStatus (order : MarketOrderRow) (v : ValidationRun) : Option OrderStatus :=
  if order.validUntil.any (fun until_ => decide (until_ ≤ v.startedAt)) then some .expired
  else if order.kind = "seaport" then
    if order.terms.seaportData.isSome then (validateSeaportOrder engine v.reads order).map Prod.fst else some .invalid
  else some .fillable

/-- The validation found the order filled, cancelled or past its end. -/
def findsOver (order : MarketOrderRow) (v : ValidationRun) : Bool :=
  order.validUntil.any (fun until_ => decide (until_ ≤ v.startedAt)) ||
    match validateSeaportOrder engine v.reads order with
    | some (.filled, _) => true
    | some (.cancelled, _) => true
    | some (.expired, reason) => reason = "expired"
    | _ => false

/-- The validation gets to the clock before the order opens. -/
def checksEarly (order : MarketOrderRow) (v : ValidationRun) : Bool :=
  order.validUntil.all (fun until_ => decide (v.startedAt < until_)) &&
    match checkProtocolData engine order with
    | .error _ => false
    | .ok parsed => decide ((v.reads.now : Int) < parsed.startTime)

/-- A validation of the stored order, under the revision that it read. -/
def OrderBook.revalidate (id : OrderId) (book : OrderBook) (v : ValidationRun) : OrderBook :=
  match (book.orders.get? id).bind (validatedStatus engine · v) with
  | none => book
  | some status => book.applyValidation id v.revision status v.appliedAt

def OrderBook.revalidateAll (id : OrderId) (book : OrderBook) (vs : List ValidationRun) : OrderBook :=
  vs.foldl (OrderBook.revalidate engine id) book

end

/-! ## 3. What a validation can answer -/

section Answers

variable {engine : SeaportEngine} {reads : SeaportReads} {order : MarketOrderRow}

/-- The statuses that a later validation still looks at. -/
def isOver : OrderStatus → Bool
  | .filled | .cancelled | .expired => true
  | _ => false

theorem validateSellOrder_not_over (approvalTarget : Address) :
    isOver (validateSellOrder reads order approvalTarget).1 = false := by
  unfold validateSellOrder
  repeat' split
  all_goals rfl

theorem validateBuyOrder_not_over (price : Int) : isOver (validateBuyOrder reads order price).1 = false := by
  unfold validateBuyOrder
  repeat' split
  all_goals rfl

variable {answer : OrderStatus × String} {parsed : ParsedProtocol}

theorem validateApprovals_not_over
    (h : validateApprovals engine reads order parsed = some answer) : isOver answer.1 = false := by
  unfold validateApprovals at h
  repeat' split at h
  all_goals cases h
  all_goals first
    | rfl
    | exact validateSellOrder_not_over _
    | exact validateBuyOrder_not_over _

theorem validateApprovals_ne_expired
    (h : validateApprovals engine reads order parsed = some answer) : answer.1 ≠ .expired := by
  intro hexpired
  have hnot := validateApprovals_not_over h
  rw [hexpired] at hnot
  cases hnot

theorem validateOpenOrder_ne_expired
    (h : validateOpenOrder engine reads order parsed = some answer) : answer.1 ≠ .expired := by
  unfold validateOpenOrder at h
  repeat' split at h
  all_goals first
    | exact validateApprovals_ne_expired h
    | (cases h; nofun)

/-- **What `validateSeaportOrder` answers**: an order that gets to its clock too early is expired, like one that
gets to it too late. -/
theorem validateSeaportOrder_cases (h : validateSeaportOrder engine reads order = some answer) :
    (∃ reason, checkProtocolData engine order = .error reason ∧ answer = invalidValidationResult reason) ∨
    ∃ parsed, checkProtocolData engine order = .ok parsed ∧
      ((reads.now : Int) < parsed.startTime ∧ answer = (.expired, "not-active") ∨
        parsed.startTime ≤ reads.now ∧ (answer = (.expired, "expired") ∨ answer.1 ≠ .expired)) := by
  unfold validateSeaportOrder at h
  split at h
  · next reason hcheck =>
    cases h
    exact .inl ⟨reason, hcheck, rfl⟩
  next parsed hcheck =>
  refine .inr ⟨parsed, hcheck, ?_⟩
  split at h
  · next hearly =>
    cases h
    exact .inl ⟨hearly, rfl⟩
  next hlate =>
  refine .inr ⟨Int.not_lt.mp hlate, ?_⟩
  split at h
  · cases h
    exact .inl rfl
  · exact .inr (validateOpenOrder_ne_expired h)

end Answers

/-! ## 4. The row over a sequence of validations -/

/-- Of the row only what a validation writes is another. -/
structure SameListing (stored row : MarketOrderRow) : Prop where
  same : row = { stored with
    fillabilityStatus := row.fillabilityStatus, validatedAt := row.validatedAt, stateRevision := row.stateRevision,
    updatedAt := row.updatedAt }

section Runs

variable {engine : SeaportEngine} {id : OrderId} {book : OrderBook} {stored row : MarketOrderRow}

theorem SameListing.refl (row : MarketOrderRow) : SameListing row row := ⟨rfl⟩

theorem SameListing.validated (h : SameListing stored row) (status : OrderStatus) (now : Nat) :
    SameListing stored (row.validated status now) := by
  constructor
  unfold MarketOrderRow.validated OrderRow.withValidation
  rw [h.same]
  split <;> rfl

theorem SameListing.validatedStatus (h : SameListing stored row) (v : ValidationRun) :
    Indexer.validatedStatus engine row v = Indexer.validatedStatus engine stored v := by
  rw [h.same]
  rfl

theorem SameListing.sourceStatus (h : SameListing stored row) : row.sourceStatus = stored.sourceStatus := by rw [h.same]

theorem revalidate_row (hrow : book.orders.get? id = some row) (hactive : row.sourceStatus = .active)
    (v : ValidationRun) : (book.revalidate engine id v).orders.get? id = some
      (match validatedStatus engine row v with
      | none => row
      | some status => if row.stateRevision = v.revision then row.validated status v.appliedAt else row) := by
  have hkey : row.id = id := (Table.get?_eq_some.mp hrow).2
  unfold OrderBook.revalidate
  rw [hrow, Option.bind_some]
  split
  · exact hrow
  · next status hstatus =>
    rw [OrderBook.applyValidation, Table.get?_updateWhere, hrow, Option.map_some, hkey, hactive]
    simp

theorem revalidateAll_concat (vs : List ValidationRun) (v : ValidationRun) :
    book.revalidateAll engine id (vs ++ [v]) = (book.revalidateAll engine id vs).revalidate engine id v := by
  rw [OrderBook.revalidateAll, List.foldl_append]
  rfl

theorem revalidateAll_row (hrow : book.orders.get? id = some stored) (hactive : stored.sourceStatus = .active)
    (vs : List ValidationRun) :
    ∃ row, (book.revalidateAll engine id vs).orders.get? id = some row ∧ SameListing stored row := by
  induction vs using List.reverseRecOn with
  | nil => exact ⟨stored, hrow, .refl stored⟩
  | append_singleton vs v ih =>
    obtain ⟨row, hstored, hsame⟩ := ih
    rw [revalidateAll_concat, revalidate_row hstored (hsame.sourceStatus.trans hactive)]
    refine ⟨_, rfl, ?_⟩
    split
    · exact hsame
    · split
      · exact hsame.validated _ _
      · exact hsame

/-- As long as no validation found the order over, the order is looked at again within its window. -/
def StaysRevalidatable (engine : SeaportEngine) (id : OrderId) (book : OrderBook) (stored : MarketOrderRow)
    (vs : List ValidationRun) : Prop :=
  ∀ before after, vs = before ++ after → (∀ v ∈ before, findsOver engine stored v = false) →
    ∀ row ∈ (book.revalidateAll engine id before).orders.get? id, ∀ now,
      row.validUntil.all (fun until_ => decide (now < until_)) = true →
      needsCurrentOrderValidation row.toOrderRow now = true

/-- No validation that is written, before one found the order over, gets to the clock before the order opens. -/
def ChecksInTime (engine : SeaportEngine) (id : OrderId) (book : OrderBook) (stored : MarketOrderRow)
    (vs : List ValidationRun) : Prop :=
  ∀ before v after, vs = before ++ v :: after → (∀ v ∈ before, findsOver engine stored v = false) →
    ∀ row ∈ (book.revalidateAll engine id before).orders.get? id, row.stateRevision = v.revision →
      checksEarly engine stored v = false

theorem needsCurrentOrderValidation_iff {now : Nat} (hkind : row.kind = "seaport")
    (hactive : row.sourceStatus = .active) (hwindow : row.validUntil.all (fun until_ => decide (now < until_)) = true) :
    needsCurrentOrderValidation row.toOrderRow now = true ↔ isOver row.fillabilityStatus = false := by
  unfold needsCurrentOrderValidation
  rw [hkind, hactive, hwindow]
  cases row.fillabilityStatus <;> decide

variable {v : ValidationRun}

theorem checksEarly_iff : checksEarly engine stored v = true ↔
    stored.validUntil.any (fun until_ => decide (until_ ≤ v.startedAt)) = false ∧
      ∃ parsed, checkProtocolData engine stored = .ok parsed ∧ (v.reads.now : Int) < parsed.startTime := by
  unfold checksEarly
  rw [Bool.and_eq_true]
  refine and_congr ?_ ?_
  · cases stored.validUntil <;> simp
  · cases checkProtocolData engine stored <;> simp

theorem validatedStatus_early (hkind : stored.kind = "seaport")
    (h : checksEarly engine stored v = true) :
    validatedStatus engine stored v = some .expired ∧ findsOver engine stored v = false := by
  obtain ⟨hwindow, parsed, hparsed, hearly⟩ := checksEarly_iff.mp h
  have hanswer : validateSeaportOrder engine v.reads stored = some (.expired, "not-active") := by
    rw [validateSeaportOrder, hparsed]
    exact if_pos hearly
  have hdata : stored.terms.seaportData.isSome = true := by
    unfold checkProtocolData at hparsed
    cases hdata : stored.terms.seaportData with
    | none =>
      rw [hdata] at hparsed
      cases hparsed
    | some data => rfl
  constructor
  · rw [validatedStatus, hwindow, if_neg Bool.false_ne_true, if_pos hkind, if_pos hdata, hanswer]
    rfl
  · rw [findsOver, hwindow, hanswer]
    rfl

/-- **A validation that neither found the order over nor got to the clock too early** writes a status that is
looked at again. -/
theorem validatedStatus_not_over {status : OrderStatus} (hkind : stored.kind = "seaport")
    (h : validatedStatus engine stored v = some status) (hfound : findsOver engine stored v = false)
    (htime : checksEarly engine stored v = false) : isOver status = false := by
  unfold findsOver at hfound
  rw [Bool.or_eq_false_iff] at hfound
  obtain ⟨hwindow, hfound⟩ := hfound
  rw [validatedStatus, hwindow, if_neg Bool.false_ne_true, if_pos hkind] at h
  split at h
  swap
  · cases h
    rfl
  obtain ⟨answer, hanswer, rfl⟩ := Option.map_eq_some_iff.mp h
  rw [hanswer] at hfound
  rcases validateSeaportOrder_cases hanswer with ⟨reason, -, rfl⟩ | ⟨parsed, hparsed, ⟨hearly, -⟩ | ⟨-, hlate⟩⟩
  · rfl
  · rw [checksEarly_iff.mpr ⟨hwindow, parsed, hparsed, hearly⟩] at htime
    cases htime
  obtain ⟨status, reason⟩ := answer
  rcases hlate with hexpired | hne
  · cases hexpired
    cases hfound
  · cases status <;> first | rfl | exact absurd rfl hne | cases hfound

theorem validated_status (row : MarketOrderRow) (status : OrderStatus) (now : Nat) :
    (row.validated status now).fillabilityStatus = status := by
  unfold MarketOrderRow.validated OrderRow.withValidation
  dsimp only
  split
  · rfl
  · next hsame =>
    push Not at hsame
    exact hsame.1

/-- **An order stays revalidatable exactly if it starts so and no validation that is written checks the clock
before it opens.** -/
theorem stays_revalidatable_iff {vs : List ValidationRun} {now : Nat} (hrow : book.orders.get? id = some stored)
    (hkind : stored.kind = "seaport") (hactive : stored.sourceStatus = .active)
    (hopen : stored.validUntil.all (fun until_ => decide (now < until_)) = true) :
    StaysRevalidatable engine id book stored vs ↔
      isOver stored.fillabilityStatus = false ∧ ChecksInTime engine id book stored vs := by
  have hneeds : ∀ {row : MarketOrderRow}, SameListing stored row → ∀ {now : Nat},
      row.validUntil.all (fun until_ => decide (now < until_)) = true →
      (needsCurrentOrderValidation row.toOrderRow now = true ↔ isOver row.fillabilityStatus = false) :=
    fun hsame _ hwindow => needsCurrentOrderValidation_iff (by rw [hsame.same]; exact hkind)
      (hsame.sourceStatus.trans hactive) hwindow
  constructor
  · intro hstays
    refine ⟨(hneeds (.refl stored) hopen).mp (hstays [] vs rfl (List.forall_mem_nil _) stored hrow now hopen), ?_⟩
    intro before v after hvs hbefore row hstored hrevision
    by_contra hearly
    rw [Bool.not_eq_false] at hearly
    obtain ⟨hwritten, hfound⟩ := validatedStatus_early hkind hearly
    obtain ⟨row', hstored', hsame⟩ := @revalidateAll_row engine id book stored hrow hactive before
    cases hstored'.symm.trans hstored
    -- The row after it is expired, within its window.
    have hafter := @revalidate_row engine id _ row hstored (hsame.sourceStatus.trans hactive) v
    rw [hsame.validatedStatus, hwritten] at hafter
    dsimp only at hafter
    rw [if_pos hrevision, ← revalidateAll_concat] at hafter
    have hwindow : (row.validated .expired v.appliedAt).validUntil.all
        (fun until_ => decide (v.startedAt < until_)) = true := by
      rw [(hsame.validated .expired v.appliedAt).same]
      unfold checksEarly at hearly
      exact (Bool.and_eq_true _ _ ▸ hearly).1
    have hneeded := hstays (before ++ [v]) after (by rw [hvs, List.append_assoc]; rfl) (by
      intro u hu
      rcases List.mem_append.mp hu with hu | hu
      · exact hbefore u hu
      · rw [List.mem_singleton.mp hu]
        exact hfound) _ hafter v.startedAt hwindow
    rw [hneeds (hsame.validated _ _) hwindow, validated_status] at hneeded
    cases hneeded
  · rintro ⟨hstart, htime⟩ before after hvs hbefore row hstored now' hwindow
    obtain ⟨row', hstored', hsame⟩ := @revalidateAll_row engine id book stored hrow hactive before
    cases hstored'.symm.trans hstored
    refine (hneeds hsame hwindow).mpr ?_
    clear hwindow hsame hstored'
    induction before using List.reverseRecOn generalizing after row with
    | nil =>
      cases hrow.symm.trans hstored
      exact hstart
    | append_singleton before v ih =>
      have hearlier : ∀ u ∈ before, findsOver engine stored u = false := fun u hu =>
        hbefore u (List.mem_append_left _ hu)
      obtain ⟨row₁, hstored₁, hsame₁⟩ := @revalidateAll_row engine id book stored hrow hactive before
      have hvs' : vs = before ++ v :: after := by rw [hvs, List.append_assoc]; rfl
      have hnot := ih (v :: after) hvs' hearlier row₁ hstored₁
      rw [revalidateAll_concat, revalidate_row hstored₁ (hsame₁.sourceStatus.trans hactive), hsame₁.validatedStatus]
        at hstored
      cases hstored
      split
      · exact hnot
      next status hstatus =>
      split
      · next hrevision =>
        rw [validated_status]
        exact validatedStatus_not_over hkind hstatus
          (hbefore v (List.mem_append_right _ (List.mem_singleton.mpr rfl)))
          (htime before v after hvs' hearlier row₁ hstored₁ hrevision)
      · exact hnot

end Runs

/-! ## 5. An order that opens later -/

/-- An order that is open from 200 to 1000. -/
def listedOrder : MarketOrderRow where
  toOrderRow := ⟨"0x1", 1, "seaport", 20, 10, some "4", some 1000, .fillable, .active, none, 0, 0⟩
  terms := ⟨.sell, "opensea", none, .token, none, none, none, .none, none, none, "1", some "5", none, some 200,
    some ⟨7, none, "listing"⟩, none, none, none⟩
  observedAt := 0
  updatedAt := 0
  protocolAddress := none

def listedBook : OrderBook := ⟨.empty, Table.empty.insertOrIgnore listedOrder, .empty, .empty⟩

def listedEngine : SeaportEngine where
  parseProtocolData data := .ok ⟨data.protocolAddress, data.signature, 20, 200, 1000, "", 0⟩
  computeSeaportOrderHash _ := .ok "0x1"
  recoverSeaportSigner _ := .ok 20
  toBigInt _ := some 5

/-- A validation at that time, of an order that the chain would take. -/
def validationAt (now revision : Nat) : ValidationRun :=
  ⟨now, revision, ⟨now, .ok (false, false, 0, 1), .ok 0, .ok none, .ok true, .ok 20, .ok true, .ok 0, .ok 0, .ok 0,
    .ok 0⟩, now⟩

/-- **Validated before it opens, it is not looked at again after that.** -/
theorem listedOrder_left_expired :
    ¬ StaysRevalidatable listedEngine "0x1" listedBook listedOrder [validationAt 100 0] := by
  intro h
  have hneeded := h [validationAt 100 0] [] rfl (by decide +kernel)
    (listedOrder.validated .expired 100) (by decide +kernel) 300 (by decide +kernel)
  exact absurd hneeded (by decide +kernel)

theorem stays_revalidatable_iff_listedOrder :
    StaysRevalidatable listedEngine "0x1" listedBook listedOrder [validationAt 300 0] ↔
      isOver listedOrder.fillabilityStatus = false ∧
        ChecksInTime listedEngine "0x1" listedBook listedOrder [validationAt 300 0] :=
  stays_revalidatable_iff (by decide +kernel) rfl rfl (by decide : listedOrder.validUntil.all (fun u => decide (0 < u)))

end Artgod.Indexer
