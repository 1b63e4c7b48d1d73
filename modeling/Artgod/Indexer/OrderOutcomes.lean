/-
# Fills and cancellations, delivered in any order

`handleOrderUpdateById` (`infra/domain/orders.ts`) writes the outcome of a fill or a cancellation to the row of
its order, and nothing compares the positions of two events: the last delivery decides the status, and the first
delivery of that status the block.  `outcome_settled_iff` says when this makes no difference.
-/
import Artgod.Indexer.OrderBook

namespace Artgod.Indexer

open Store

/-! ## 1. Events of an order -/

inductive OrderUpdateReason where
  | validation
  | fill
  | cancel

def statusFromReason : OrderUpdateReason → OrderStatus
  | .fill => .filled
  | .cancel => .cancelled
  | .validation => .fillable

/-- What a chain event says of the order: `fill` and `cancel`, but not `order`, which asks for a validation. -/
inductive OutcomeKind where
  | fill
  | cancel
deriving DecidableEq

def OutcomeKind.reason : OutcomeKind → OrderUpdateReason
  | .fill => .fill
  | .cancel => .cancel

/-- A fill or a cancellation of the order, at its position in the chain. -/
structure OutcomeEvent where
  kind : OutcomeKind
  blockNumber : Nat
  logIndex : Nat
deriving DecidableEq

def OutcomeEvent.status (e : OutcomeEvent) : OrderStatus := statusFromReason e.kind.reason

theorem OutcomeEvent.status_inj {e e' : OutcomeEvent} (h : e.status = e'.status) : e.kind = e'.kind := by
  unfold status at h
  cases hkind : e.kind <;> cases hkind' : e'.kind <;> rw [hkind, hkind'] at h <;> first | rfl | cases h

theorem OutcomeEvent.status_ne_noBalance (e : OutcomeEvent) : e.status ≠ .noBalance := by
  unfold status
  cases e.kind <;> nofun

/-- An event that is delivered, and the clock then. -/
abbrev OutcomeDelivery := OutcomeEvent × Nat

/-- `handleOrderUpdateById` of the deliveries, one after the other. -/
def OrderBook.deliver (book : OrderBook) (id : OrderId) (deliveries : List OutcomeDelivery) : OrderBook :=
  deliveries.foldl (fun book d => book.applyChainOutcome id d.1.status (some d.1.blockNumber) d.2) book

/-- The status of the order, and the block that its row is attributed to. -/
def OrderBook.outcome (book : OrderBook) (id : OrderId) : Option (OrderStatus × Option Nat) :=
  (book.orders.get? id).map fun row => (row.fillabilityStatus, row.blockNumber)

/-- The deliveries bring the events, in some order and each at least once. -/
structure Delivers (events : List OutcomeEvent) (deliveries : List OutcomeDelivery) : Prop where
  only : ∀ d ∈ deliveries, d.1 ∈ events
  each : ∀ e ∈ events, ∃ d ∈ deliveries, d.1 = e

/-- The order of the deliveries makes no difference to the outcome. -/
def OutcomesAgree (book : OrderBook) (id : OrderId) (events : List OutcomeEvent) : Prop :=
  ∀ ds ds', Delivers events ds → Delivers events ds' →
    (book.deliver id ds).outcome id = (book.deliver id ds').outcome id

/-- After a rollback the row has the outcome of the events that are left, as long as there is one that the
projection takes. -/
def OutcomeSurvives (book : OrderBook) (id : OrderId) (events : List OutcomeEvent) : Prop :=
  ∀ ds ds' fromBlock reversed now, Delivers events ds →
    Delivers (events.filter fun e => e.blockNumber < fromBlock) ds' →
    (∃ e ∈ events, e.blockNumber < fromBlock ∧ book.anchorAllows id (some e.blockNumber) = true) →
    ((book.deliver id ds).rollbackFromBlock fromBlock reversed now).outcome id = (book.deliver id ds').outcome id

/-! ## 2. What deliveries do to the row -/

/-- An event on the status and the block of the row. -/
def outcomeStep (row : OrderStatus × Option Nat) (e : OutcomeEvent) : OrderStatus × Option Nat :=
  if row.1 = e.status then row else (e.status, some e.blockNumber)

theorem outcomeStep_status (row : OrderStatus × Option Nat) (e : OutcomeEvent) : (outcomeStep row e).1 = e.status := by
  unfold outcomeStep
  split
  · assumption
  · rfl

/-- The row after some deliveries, beside the row before them. -/
structure DeliveredRow (book : OrderBook) (id : OrderId) (row : MarketOrderRow) (book' : OrderBook)
    (outcome : OrderStatus × Option Nat) (row' : MarketOrderRow) : Prop where
  collections : book'.collections = book.collections
  stored : book'.orders.get? id = some row'
  collectionId : row'.collectionId = row.collectionId
  sourceStatus : row'.sourceStatus = row.sourceStatus
  outcome : (row'.fillabilityStatus, row'.blockNumber) = outcome

section Deliveries

variable {book : OrderBook} {id : OrderId}

variable {row : MarketOrderRow}

/-- **One delivery**: an event that the anchor allows steps the outcome, and no other changes the row. -/
theorem applyChainOutcome_row (hrow : book.orders.get? id = some row) (d : OutcomeDelivery) :
    ∃ row', DeliveredRow book id row (book.applyChainOutcome id d.1.status (some d.1.blockNumber) d.2)
      (if book.anchorAllows id (some d.1.blockNumber) then
        outcomeStep (row.fillabilityStatus, row.blockNumber) d.1
      else (row.fillabilityStatus, row.blockNumber)) row' := by
  unfold OrderBook.applyChainOutcome
  split
  · have hkey : row.id = id := (Table.get?_eq_some.mp hrow).2
    refine ⟨row.chainOutcome d.1.status (some d.1.blockNumber) d.2, rfl, ?_, ?_, ?_, ?_⟩
    · rw [Table.get?_updateWhere, hrow, Option.map_some, hkey, decide_eq_true rfl, if_pos rfl]
    all_goals
      unfold MarketOrderRow.chainOutcome
      try unfold outcomeStep
      split <;> rfl
  · exact ⟨row, rfl, hrow, rfl, rfl, rfl⟩

theorem deliver_concat (ds : List OutcomeDelivery) (d : OutcomeDelivery) : book.deliver id (ds ++ [d]) =
    (book.deliver id ds).applyChainOutcome id d.1.status (some d.1.blockNumber) d.2 := by
  rw [OrderBook.deliver, List.foldl_append]
  rfl

theorem deliver_row (hrow : book.orders.get? id = some row) (ds : List OutcomeDelivery) :
    ∃ row', DeliveredRow book id row (book.deliver id ds)
      (((ds.map Prod.fst).filter fun e => book.anchorAllows id (some e.blockNumber)).foldl outcomeStep
        (row.fillabilityStatus, row.blockNumber)) row' := by
  induction ds using List.reverseRecOn with
  | nil => exact ⟨row, rfl, hrow, rfl, rfl, rfl⟩
  | append_singleton ds d ih =>
    obtain ⟨row₁, hdone⟩ := ih
    obtain ⟨row', hstep⟩ := applyChainOutcome_row hdone.stored d
    -- The anchor of the order's collection is the same before and after.
    have hanchor : (book.deliver id ds).anchorAllows id (some d.1.blockNumber) =
        book.anchorAllows id (some d.1.blockNumber) := by
      simp only [OrderBook.anchorAllows, hdone.stored, hrow, hdone.collections, hdone.collectionId]
    refine ⟨row', ?_⟩
    rw [deliver_concat]
    refine ⟨hstep.collections.trans hdone.collections, hstep.stored, hstep.collectionId.trans hdone.collectionId,
      hstep.sourceStatus.trans hdone.sourceStatus, ?_⟩
    rw [hstep.outcome, hdone.outcome, hanchor, List.map_append, List.filter_append, List.foldl_append]
    cases hallows : book.anchorAllows id (some d.1.blockNumber) <;> simp [hallows]

theorem deliver_missing (hnone : book.orders.get? id = none) (ds : List OutcomeDelivery) :
    book.deliver id ds = book := by
  induction ds using List.reverseRecOn with
  | nil => rfl
  | append_singleton ds d ih =>
    rw [deliver_concat, ih]
    simp only [OrderBook.applyChainOutcome, OrderBook.anchorAllows, hnone]
    rfl

/-! ## 3. Rollback -/

theorem resetOrderFromTransfer_row (hrow : book.orders.get? id = some row)
    (hstatus : row.fillabilityStatus ≠ .noBalance) (now : Nat) (reversed : List TransferRow) :
    (reversed.foldl (OrderBook.resetOrderFromTransfer now) book).orders.get? id = some row := by
  induction reversed using List.reverseRecOn with
  | nil => exact hrow
  | append_singleton reversed r ih =>
    rw [List.foldl_append, List.foldl_cons, List.foldl_nil, OrderBook.resetOrderFromTransfer]
    split
    · exact ih
    · rw [Table.get?_updateWhere, ih, Option.map_some, if_neg]
      simp [hstatus]

/-- **What a rollback leaves of a row that a balance does not decide.** -/
theorem rollbackFromBlock_row (hrow : book.orders.get? id = some row)
    (hstatus : row.fillabilityStatus ≠ .noBalance) (fromBlock now : Nat) (reversed : List TransferRow) :
    (book.rollbackFromBlock fromBlock reversed now).orders.get? id =
      if isOrphanOrder fromBlock row.toOrderRow then none else some row := by
  have hreset := resetOrderFromTransfer_row hrow hstatus now reversed
  rw [OrderBook.rollbackFromBlock, OrderBook.invalidateFromBlock, OrderBook.deleteOrdersFromBlock,
    Table.get?_deleteWhere, hreset, Option.filter_some]
  cases isOrphanOrder fromBlock row.toOrderRow <;> rfl

end Deliveries

/-! ## 4. When the order of deliveries makes no difference -/

/-- The events that the projection takes have one kind.  A row that does not have its status gets it from one
block; a row that has it is not attributed to a block above any of them, or is kept for its source. -/
structure OneOutcome (row : MarketOrderRow) (taken : List OutcomeEvent) : Prop where
  kind : ∀ e ∈ taken, ∀ e' ∈ taken, e.kind = e'.kind
  block : ∀ e ∈ taken, row.fillabilityStatus ≠ e.status → ∀ e' ∈ taken, e.blockNumber = e'.blockNumber
  held : ∀ e ∈ taken, row.fillabilityStatus = e.status →
    row.sourceStatus = .cancelled ∨ ∀ n ∈ row.blockNumber, n ≤ e.blockNumber

theorem foldl_outcomeStep_status (events : List OutcomeEvent) (e : OutcomeEvent) (row : OrderStatus × Option Nat) :
    ((events ++ [e]).foldl outcomeStep row).1 = e.status := by
  rw [List.foldl_append]
  exact outcomeStep_status _ e

theorem foldl_outcomeStep_of_status {events : List OutcomeEvent} {row : OrderStatus × Option Nat}
    (h : ∀ e ∈ events, row.1 = e.status) : events.foldl outcomeStep row = row := by
  induction events with
  | nil => rfl
  | cons e events ih =>
    rw [List.foldl_cons, outcomeStep, if_pos (h e List.mem_cons_self)]
    exact ih fun e' he' => h e' (List.mem_cons_of_mem e he')

/-- **Events of one kind step the row once**: the first of them decides. -/
theorem foldl_outcomeStep_cons {events : List OutcomeEvent} {e : OutcomeEvent} {row : OrderStatus × Option Nat}
    (h : ∀ e' ∈ events, e'.status = e.status) : (e :: events).foldl outcomeStep row = outcomeStep row e := by
  rw [List.foldl_cons]
  exact foldl_outcomeStep_of_status fun e' he' => (outcomeStep_status row e).trans (h e' he').symm

/-- The events that are taken of deliveries. -/
def takenOf (book : OrderBook) (id : OrderId) (events : List OutcomeEvent) : List OutcomeEvent :=
  events.filter fun e => book.anchorAllows id (some e.blockNumber)

section Settled

variable {book : OrderBook} {id : OrderId} {row : MarketOrderRow} {events : List OutcomeEvent}

theorem deliver_outcome (hrow : book.orders.get? id = some row) (ds : List OutcomeDelivery) :
    (book.deliver id ds).outcome id =
      some ((takenOf book id (ds.map Prod.fst)).foldl outcomeStep (row.fillabilityStatus, row.blockNumber)) := by
  obtain ⟨row', hdone⟩ := deliver_row hrow ds
  rw [OrderBook.outcome, hdone.stored, Option.map_some, hdone.outcome]
  rfl

variable {e : OutcomeEvent}

theorem mem_takenOf :
    e ∈ takenOf book id events ↔ e ∈ events ∧ book.anchorAllows id (some e.blockNumber) = true := List.mem_filter

theorem OneOutcome.fold (h : OneOutcome row (takenOf book id events)) {taken : List OutcomeEvent}
    (hsub : ∀ e ∈ taken, e ∈ takenOf book id events) (hsome : taken ≠ [])
    (he : e ∈ takenOf book id events) :
    taken.foldl outcomeStep (row.fillabilityStatus, row.blockNumber) =
      outcomeStep (row.fillabilityStatus, row.blockNumber) e := by
  cases taken with
  | nil => exact absurd rfl hsome
  | cons first rest =>
    have hfirst := hsub first List.mem_cons_self
    have hstatus : ∀ e' ∈ takenOf book id events, e'.status = e.status := fun e' he' => by
      rw [OutcomeEvent.status, h.kind e' he' e he]
      rfl
    rw [foldl_outcomeStep_cons fun e' he' => (hstatus e' (hsub e' (List.mem_cons_of_mem first he'))).trans
      (hstatus first hfirst).symm]
    unfold outcomeStep
    dsimp only
    rw [hstatus first hfirst]
    split
    · rfl
    · next hne => rw [h.block e he hne first hfirst]

theorem Delivers.taken {ds : List OutcomeDelivery} (h : Delivers events ds) {e : OutcomeEvent} :
    e ∈ takenOf book id (ds.map Prod.fst) ↔ e ∈ takenOf book id events := by
  rw [mem_takenOf, mem_takenOf]
  refine and_congr_left fun _ => ⟨fun hmem => ?_, fun hmem => ?_⟩
  · obtain ⟨d, hd, rfl⟩ := List.mem_map.mp hmem
    exact h.only d hd
  · obtain ⟨d, hd, rfl⟩ := h.each e hmem
    exact List.mem_map_of_mem hd

theorem OneOutcome.agree (hrow : book.orders.get? id = some row) (h : OneOutcome row (takenOf book id events)) :
    OutcomesAgree book id events := by
  intro ds ds' hds hds'
  rw [deliver_outcome hrow, deliver_outcome hrow]
  cases hnone : takenOf book id events with
  | nil =>
    have hempty : ∀ {ds : List OutcomeDelivery}, Delivers events ds → takenOf book id (ds.map Prod.fst) = [] := by
      refine fun hds => List.eq_nil_iff_forall_not_mem.mpr fun e he => ?_
      rw [hds.taken, hnone] at he
      cases he
    rw [hempty hds, hempty hds']
  | cons e rest =>
    have he : e ∈ takenOf book id events := hnone ▸ List.mem_cons_self
    have hsome : ∀ {ds : List OutcomeDelivery}, Delivers events ds → takenOf book id (ds.map Prod.fst) ≠ [] :=
      fun hds => List.ne_nil_of_mem (hds.taken.mpr he)
    rw [h.fold (fun _ h => hds.taken.mp h) (hsome hds) he, h.fold (fun _ h => hds'.taken.mp h) (hsome hds') he]

theorem OneOutcome.survives (hrow : book.orders.get? id = some row) (h : OneOutcome row (takenOf book id events)) :
    OutcomeSurvives book id events := by
  rintro ds ds' fromBlock reversed now hds hds' ⟨e, he, hbelow, hallows⟩
  have htaken : e ∈ takenOf book id events := mem_takenOf.mpr ⟨he, hallows⟩
  have hleft : e ∈ takenOf book id (ds'.map Prod.fst) :=
    hds'.taken.mpr (mem_takenOf.mpr ⟨List.mem_filter.mpr ⟨he, decide_eq_true hbelow⟩, hallows⟩)
  have hsub : ∀ e' ∈ takenOf book id (ds'.map Prod.fst), e' ∈ takenOf book id events := by
    intro e' he'
    obtain ⟨hmem, hallows'⟩ := mem_takenOf.mp (hds'.taken.mp he')
    exact mem_takenOf.mpr ⟨List.mem_of_mem_filter hmem, hallows'⟩
  obtain ⟨row', hdone⟩ := deliver_row hrow ds
  have houtcome : (row'.fillabilityStatus, row'.blockNumber) =
      outcomeStep (row.fillabilityStatus, row.blockNumber) e :=
    hdone.outcome.trans (h.fold (fun _ h => hds.taken.mp h) (List.ne_nil_of_mem (hds.taken.mpr htaken)) htaken)
  have hstatus : row'.fillabilityStatus = e.status :=
    (congrArg Prod.fst houtcome).trans (outcomeStep_status _ e)
  have hkept : isOrphanOrder fromBlock row'.toOrderRow = false := by
    have hblock := congrArg Prod.snd houtcome
    unfold outcomeStep at hblock
    unfold isOrphanOrder
    by_cases hsame : row.fillabilityStatus = e.status
    · rw [if_pos hsame] at hblock
      dsimp only at hblock
      rcases h.held e htaken hsame with hcancelled | hle
      · rw [hdone.sourceStatus, hcancelled]
        simp
      rw [hblock]
      cases hn : row.blockNumber with
      | none => rfl
      | some n =>
        have hlt : n < fromBlock := Nat.lt_of_le_of_lt (hle n hn) hbelow
        simp [Nat.not_le.mpr hlt]
    · rw [if_neg hsame] at hblock
      dsimp only at hblock
      rw [hblock]
      simp [Nat.not_le.mpr hbelow]
  rw [OrderBook.outcome, rollbackFromBlock_row hdone.stored (hstatus ▸ e.status_ne_noBalance), hkept,
    if_neg Bool.false_ne_true, Option.map_some, deliver_outcome hrow, h.fold hsub (List.ne_nil_of_mem hleft) htaken,
    houtcome]

theorem delivers_around {before after : List OutcomeEvent} (hbefore : ∀ e ∈ before, e ∈ events)
    (hafter : ∀ e ∈ after, e ∈ events) : Delivers events ((before ++ events ++ after).map fun e => (e, 0)) where
  only d hd := by
    obtain ⟨e, he, rfl⟩ := List.mem_map.mp hd
    rcases List.mem_append.mp he with he | he
    · rcases List.mem_append.mp he with he | he
      · exact hbefore e he
      · exact he
    · exact hafter e he
  each e he := ⟨(e, 0), List.mem_map_of_mem (List.mem_append_left _ (List.mem_append_right _ he)), rfl⟩

theorem takenOf_around (before after : List OutcomeEvent) :
    takenOf book id (((before ++ events ++ after).map fun e => ((e, 0) : OutcomeDelivery)).map Prod.fst) =
      takenOf book id before ++ takenOf book id events ++ takenOf book id after := by
  rw [List.map_map]
  simp only [Function.comp_def, List.map_id', takenOf, List.filter_append]

theorem takenOf_singleton (h : e ∈ takenOf book id events) : takenOf book id [e] = [e] := by
  rw [takenOf, List.filter_cons, if_pos (mem_takenOf.mp h).2]
  rfl

theorem OneOutcome.of_settled (hrow : book.orders.get? id = some row) (hagree : OutcomesAgree book id events)
    (hsurvives : OutcomeSurvives book id events) : OneOutcome row (takenOf book id events) := by
  have hkind : ∀ e ∈ takenOf book id events, ∀ e' ∈ takenOf book id events, e.kind = e'.kind := by
    -- The last delivery decides the status.
    intro e he e' he'
    have hlast : ∀ {e}, e ∈ takenOf book id events → ((book.deliver id
        (([] ++ events ++ [e]).map fun e => (e, 0))).outcome id).map Prod.fst = some e.status := by
      intro e he
      rw [deliver_outcome hrow, takenOf_around, takenOf_singleton he, Option.map_some, foldl_outcomeStep_status]
    have hdelivers : ∀ {e}, e ∈ takenOf book id events →
        Delivers events (([] ++ events ++ [e]).map fun e => ((e, 0) : OutcomeDelivery)) := fun he =>
      delivers_around (List.forall_mem_nil _) (List.forall_mem_singleton.mpr (mem_takenOf.mp he).1)
    have hsame := congrArg (Option.map Prod.fst) (hagree _ _ (hdelivers he) (hdelivers he'))
    rw [hlast he, hlast he'] at hsame
    exact OutcomeEvent.status_inj (Option.some.inj hsame)
  have hstatus : ∀ e ∈ takenOf book id events, ∀ e' ∈ takenOf book id events, e.status = e'.status := by
    intro e he e' he'
    rw [OutcomeEvent.status, hkind e he e' he']
    rfl
  -- The first delivery decides the block.
  have hfirst : ∀ {e}, e ∈ takenOf book id events → (book.deliver id
      (([e] ++ events ++ []).map fun e => (e, 0))).outcome id =
        some (outcomeStep (row.fillabilityStatus, row.blockNumber) e) := by
    intro e he
    rw [deliver_outcome hrow, takenOf_around, takenOf_singleton he]
    refine congrArg some (foldl_outcomeStep_cons fun e' he' => ?_)
    have hmem : e' ∈ takenOf book id events := by
      rcases List.mem_append.mp he' with hmem | hnil
      · exact hmem
      · cases hnil
    exact hstatus e' hmem e he
  have hdelivers : ∀ {e}, e ∈ takenOf book id events →
      Delivers events (([e] ++ events ++ []).map fun e => ((e, 0) : OutcomeDelivery)) := fun he =>
    delivers_around (List.forall_mem_singleton.mpr (mem_takenOf.mp he).1) (List.forall_mem_nil _)
  refine ⟨hkind, fun e he hne e' he' => ?_, fun e he hsame => ?_⟩
  · have hsame := hagree _ _ (hdelivers he) (hdelivers he')
    rw [hfirst he, hfirst he', outcomeStep, outcomeStep, if_neg hne, if_neg (hstatus e he e' he' ▸ hne)] at hsame
    exact Option.some.inj (Prod.mk.inj (Option.some.inj hsame)).2
  -- A rollback to right above the event.
  by_contra hnot
  push Not at hnot
  obtain ⟨hsource, n, hn, hlt⟩ := hnot
  obtain ⟨hmem, hallows⟩ := mem_takenOf.mp he
  obtain ⟨row', hdone⟩ := deliver_row hrow (([e] ++ events ++ []).map fun e => ((e, 0) : OutcomeDelivery))
  have houtcome : (row'.fillabilityStatus, row'.blockNumber) = (row.fillabilityStatus, row.blockNumber) := by
    have hstep := hfirst he
    rw [outcomeStep, if_pos hsame, OrderBook.outcome, hdone.stored] at hstep
    exact Option.some.inj hstep
  have hsurvived := hsurvives _ _ (e.blockNumber + 1) [] 0 (hdelivers he)
    (delivers_around (List.forall_mem_nil _) (List.forall_mem_nil _)) ⟨e, hmem, Nat.lt_succ_self _, hallows⟩
  have horphan : isOrphanOrder (e.blockNumber + 1) row'.toOrderRow = true := by
    rw [isOrphanOrder, (Prod.mk.inj houtcome).2, hn, hdone.sourceStatus]
    simp [hsource, Nat.add_one_le_iff, hlt]
  rw [OrderBook.outcome, rollbackFromBlock_row hdone.stored, horphan, deliver_outcome hrow] at hsurvived
  · cases hsurvived
  · rw [(Prod.mk.inj houtcome).1, hsame]
    exact e.status_ne_noBalance

/-- **Delivery order makes no difference exactly for one outcome.**  An order without a row has none. -/
theorem outcome_settled_iff (book : OrderBook) (id : OrderId) (events : List OutcomeEvent) :
    OutcomesAgree book id events ∧ OutcomeSurvives book id events ↔
      ∀ row ∈ book.orders.get? id, OneOutcome row (takenOf book id events) := by
  constructor
  · rintro ⟨hagree, hsurvives⟩ row hrow
    exact .of_settled hrow hagree hsurvives
  intro h
  cases hrow : book.orders.get? id with
  | some row => exact ⟨(h row hrow).agree hrow, (h row hrow).survives hrow⟩
  | none =>
    refine ⟨fun ds ds' _ _ => by rw [deliver_missing hrow, deliver_missing hrow], ?_⟩
    rintro ds ds' fromBlock reversed now - - ⟨e, -, -, hallows⟩
    simp [OrderBook.anchorAllows, hrow] at hallows

end Settled

/-- A fillable order of a collection with an anchor. -/
def fillableBook : OrderBook where
  collections := Table.empty.insertOrIgnore ⟨1, 10, .erc721, .live, some 3⟩
  orders := Table.empty.insertOrIgnore
    { toOrderRow := ⟨"0x1", 1, "seaport", 20, 10, some "4", none, .fillable, .active, none, 0, 0⟩
      terms := ⟨.sell, "opensea", none, .token, none, none, none, .none, none, none, "1", none, none, none, none, none,
        none, none⟩
      observedAt := 0
      updatedAt := 0
      protocolAddress := none }
  retirements := .empty
  observations := .empty

/-- **Two orders of delivery, two outcomes**; and a row that a rollback deletes although a fill below it is left. -/
theorem outcomes_of_fillableBook_differ :
    ¬ OutcomesAgree fillableBook "0x1" [⟨.fill, 5, 0⟩, ⟨.cancel, 7, 0⟩] ∧
      ¬ OutcomeSurvives fillableBook "0x1" [⟨.fill, 5, 0⟩, ⟨.fill, 7, 0⟩] := by
  constructor
  · intro h
    have hsame := h [(⟨.fill, 5, 0⟩, 100), (⟨.cancel, 7, 0⟩, 101)] [(⟨.cancel, 7, 0⟩, 100), (⟨.fill, 5, 0⟩, 101)]
      ⟨by decide, by decide⟩ ⟨by decide, by decide⟩
    exact absurd hsame (by decide +kernel)
  · intro h
    have hsame := h [(⟨.fill, 7, 0⟩, 100), (⟨.fill, 5, 0⟩, 101)] [(⟨.fill, 5, 0⟩, 100)] 6 [] 102
      ⟨by decide, by decide⟩ ⟨by decide, by decide⟩ ⟨⟨.fill, 5, 0⟩, by decide, by decide, by decide +kernel⟩
    exact absurd hsame (by decide +kernel)

end Artgod.Indexer
