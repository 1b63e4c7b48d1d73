/-
# Cancelled orders

A source cancellation is definitive, but the store does not remember it for ever: the cancelled row is deleted
after a grace period, its marker expires.  `OrderMove` lists what one event does to the row and the marker of
an order, `Kept` is the evidence itself, and `Protected` is what outlives it: an upsert observed no later than
the cutoff is too old to be admitted once the evidence is gone.
-/
import Artgod.Indexer.OrderBook

namespace Artgod.Indexer

open Store

/-! ## 1. Events -/

/-- What happens to the order book. -/
inductive OrderEvent where
  | upsert (persistRawDebugPayloads : Bool) (payload : OrderUpsertPayload)
  | observe (payload : OrderSourceUpdate)
  | chainOutcome (orderId : OrderId) (status : OrderStatus) (blockNumber : Option Nat)
  | validate (orderId : OrderId) (revision : Nat) (status : OrderStatus)
  | deactivate (collectionId : CollectionId) (source : String) (startedAt : Nat)
      (missing : List OrderId)
  | observeCollection (collectionId : CollectionId) (startedAt : Nat)
  | maintain (candidates markers : List OrderId)
  | rollback (fromBlock : Nat) (reversed : List TransferRow)

def OrderBook.apply (book : OrderBook) (now : Nat) : OrderEvent → OrderBook
  | .upsert raw payload => (book.applyOrderUpsert raw payload now).1
  | .observe payload => book.applySourceObservation payload now
  | .chainOutcome orderId status blockNumber => book.applyChainOutcome orderId status blockNumber now
  | .validate orderId revision status => book.applyValidation orderId revision status now
  | .deactivate collectionId source startedAt missing =>
    book.deactivateMissing collectionId source startedAt missing now
  | .observeCollection collectionId startedAt => book.observeCollection collectionId startedAt
  | .maintain candidates markers => book.maintainBatch candidates markers now
  | .rollback fromBlock reversed => book.rollbackFromBlock fromBlock reversed now

/-- The book and the clock. -/
structure BookState where
  book : OrderBook
  now : Nat

/-- An event that happens some seconds after the last one. -/
def BookState.step (s : BookState) (e : Nat × OrderEvent) : BookState :=
  ⟨s.book.apply (s.now + e.1) e.2, s.now + e.1⟩

def BookState.run (s : BookState) (events : List (Nat × OrderEvent)) : BookState :=
  events.foldl BookState.step s

/-- The row and the marker of one order. -/
structure OrderView where
  row : Option MarketOrderRow
  marker : Option OrderRetirement

def OrderBook.view (book : OrderBook) (id : OrderId) : OrderView :=
  ⟨book.orders.get? id, book.retirement? id⟩

/-- The order is an active row. -/
def OrderView.isActive (v : OrderView) : Bool := v.row.any (fun r => r.sourceStatus = .active)

/-- There is a source-cancelled row or marker of the order. -/
def OrderView.sourceCancelled (v : OrderView) : Bool :=
  v.row.any (fun r => r.sourceStatus = .cancelled) || v.marker.any (fun m => m.reason = .sourceCancelled)

/-- The deadline that a message about the order carries. -/
def OrderEvent.carries (id : OrderId) : OrderEvent → Option Nat
  | .upsert _ payload => if payload.orderId = id then payload.validUntil else none
  | .observe payload => if payload.orderId = id then payload.validUntil else none
  | _ => none

def OrderEvent.isMaintenance : OrderEvent → Bool
  | .maintain _ _ => true
  | _ => false

/-! ## 2. What one event does to one order -/

/-- What `record` keeps of a marker. -/
def keptMarker (next : OrderRetirement) (now : Nat) : Option OrderRetirement :=
  if next.expiresAt ≤ now then none else some next

/-- The order was last observed then, going by its row. -/
def MarketOrderRow.lastObserved (row : MarketOrderRow) : Nat :=
  if row.observedAt = 0 then row.updatedAt else row.observedAt

theorem MarketOrderRow.observedAt_le_lastObserved (row : MarketOrderRow) :
    row.observedAt ≤ row.lastObserved := by
  rw [lastObserved]
  split
  · omega
  · exact Nat.le_refl _

/-- One thing that an event can do to the row or the marker of an order. -/
inductive OrderMove (id : OrderId) (now : Nat) (e : OrderEvent) : OrderView → OrderView → Prop
  /-- The row learns a deadline. -/
  | learned {row : MarketOrderRow} {marker : Option OrderRetirement}
      (hevent : e.isMaintenance = false) :
      OrderMove id now e ⟨some row, marker⟩ ⟨some (row.rememberExpiry (e.carries id)), marker⟩
  /-- A writer that is not the source. -/
  | rewritten {row row' : MarketOrderRow} {marker : Option OrderRetirement}
      (hevent : e.isMaintenance = false) (hsource : row'.sourceStatus = row.sourceStatus)
      (hdeadline : row'.validUntil = row.validUntil) (hobserved : row'.observedAt = row.observedAt)
      (hupdated : row'.updatedAt = row.updatedAt ∨ row'.updatedAt = now) :
      OrderMove id now e ⟨some row, marker⟩ ⟨some row', marker⟩
  | deactivated {row row' : MarketOrderRow} {marker : Option OrderRetirement}
      (hactive : row.sourceStatus = .active) (hinactive : row'.sourceStatus = .inactive)
      (hdeadline : row'.validUntil = row.validUntil) :
      OrderMove id now e ⟨some row, marker⟩ ⟨some row', marker⟩
  | observed {row : MarketOrderRow} {marker : Option OrderRetirement} {payload : OrderSourceUpdate}
      {observedAt : Nat} (hevent : e = .observe payload) (hcancelled : row.sourceStatus ≠ .cancelled) :
      OrderMove id now e ⟨some row, marker⟩ ⟨some (row.observe payload.sourceStatus observedAt now), marker⟩
  /-- A marker is recorded for an order without a row. -/
  | marked {marker : Option OrderRetirement} {reason : OrderRetirementReason} {retiredAt : Nat} :
      OrderMove id now e ⟨none, marker⟩
        ⟨none, keptMarker (mergeOrderRetirement marker ⟨reason, retiredAt, e.carries id⟩ now) now⟩
  /-- An upsert meets a marker that keeps it out. -/
  | fenced {row : Option MarketOrderRow} {retired : OrderRetirement}
      (hlive : now < retired.expiresAt) :
      OrderMove id now e ⟨row, some retired⟩ ⟨row, keptMarker (mergeOrderRetirement (some retired)
          ⟨retired.reason, retired.retiredAt, e.carries id⟩ now) now⟩
  | upserted {row : Option MarketOrderRow} {row' : MarketOrderRow}
      {marker : Option OrderRetirement} {raw : Bool} {payload : OrderUpsertPayload}
      (hevent : e = .upsert raw payload) (hid : payload.orderId = id)
      (hadmitted : admitsOrderObservation payload.validUntil (payload.observedAt.getD now) now = true)
      (hterminal : ∀ r, row = some r → r.sourceStatus ≠ .cancelled)
      (hfence : ∀ m, marker = some m → m.expiresAt ≤ now ∨ isTerminalRetirement m.reason = false)
      (hdeadline : row'.validUntil = payload.validUntil ∨ ∃ r, row = some r ∧
        row'.validUntil = r.validUntil) :
      OrderMove id now e ⟨row, marker⟩ ⟨some row', none⟩
  /-- Maintenance deletes a row that is over, with a marker for what was terminal or inactive. -/
  | retired {row : MarketOrderRow} {marker : Option OrderRetirement} {input : OrderRetentionInput}
      {reason : OrderRetirementReason} (hevent : e.isMaintenance = true)
      (hdeadline : input.validUntil = row.validUntil)
      (hsource : input.sourceStatus = row.sourceStatus)
      (hchanged : input.lastChangedAt = row.updatedAt)
      (hobserved : row.lastObserved ≤ input.lastObservedAt)
      (hreason : orderRetirementReason input now = some reason) :
      OrderMove id now e ⟨some row, marker⟩ ⟨none,
          if reason = .terminal || (reason = .stale && row.sourceStatus = .inactive) then
            keptMarker (mergeOrderRetirement marker
              ⟨if row.sourceStatus = .cancelled then .sourceCancelled else reason,
                input.lastObservedAt, input.validUntil⟩ now) now
          else marker⟩
  | swept {row : Option MarketOrderRow} {marker : OrderRetirement} (hexpired : marker.expiresAt ≤ now) :
      OrderMove id now e ⟨row, some marker⟩ ⟨row, none⟩
  /-- A rollback deletes an order of its window that the source has not cancelled. -/
  | orphaned {row : MarketOrderRow} {marker : Option OrderRetirement}
      (hcancelled : row.sourceStatus ≠ .cancelled) :
      OrderMove id now e ⟨some row, marker⟩ ⟨none, marker⟩
  /-- A rollback deletes a marker of its window that rests on the chain. -/
  | invalidated {row : Option MarketOrderRow} {marker : OrderRetirement}
      (hchain : marker.reason = .terminal) :
      OrderMove id now e ⟨row, some marker⟩ ⟨row, none⟩

/-- The moves of one event. -/
abbrev OrderMoves (id : OrderId) (now : Nat) (e : OrderEvent) : OrderView → OrderView → Prop :=
  Relation.ReflTransGen (OrderMove id now e)

/-! ## 3. Every event is made of moves -/

section Lookups

variable {book : OrderBook} {id orderId : OrderId}

theorem retirement?_deleteWhere {p : RetirementRow → Bool} :
    ((book.retirements.deleteWhere p).get? id).map (·.retirement) =
      ((book.retirements.get? id).filter (fun m => !p m)).map (·.retirement) := by
  rw [Table.get?_deleteWhere]

theorem view_forget : (book.forget id).view id = ⟨book.orders.get? id, none⟩ := by
  have hnone : (book.forget id).retirement? id = none := by
    rw [OrderBook.retirement?, OrderBook.forget, retirement?_deleteWhere]
    cases h : book.retirements.get? id with
    | none => rfl
    | some m => simp [(Table.get?_eq_some.mp h).2]
  rw [OrderBook.view, hnone]
  rfl

theorem view_forget_of_ne (hne : orderId ≠ id) : (book.forget orderId).view id = book.view id := by
  have hsame : (book.forget orderId).retirement? id = book.retirement? id := by
    rw [OrderBook.retirement?, OrderBook.retirement?, OrderBook.forget, retirement?_deleteWhere]
    cases h : book.retirements.get? id with
    | none => rfl
    | some m => simp [(Table.get?_eq_some.mp h).2, hne.symm]
  rw [OrderBook.view, hsame]
  rfl

theorem view_record {collectionId : CollectionId} {observation : OrderRetirementObservation}
    {blockNumber : Option Nat} {now : Nat} :
    (book.record id collectionId observation blockNumber now).view id = ⟨book.orders.get? id,
        keptMarker (mergeOrderRetirement (book.retirement? id) observation now) now⟩ := by
  rw [OrderBook.record]
  generalize mergeOrderRetirement (book.retirement? id) observation now = next
  simp only [keptMarker]
  split
  · exact view_forget
  simp only [OrderBook.view, OrderBook.retirement?, Table.get?_upsert, if_true]
  cases book.retirements.get? id with
  | none => rfl
  | some m => rfl

variable {now : Nat} {f : MarketOrderRow → MarketOrderRow}

theorem view_record_of_ne {collectionId : CollectionId} {observation : OrderRetirementObservation}
    {blockNumber : Option Nat} (hne : orderId ≠ id) :
    (book.record orderId collectionId observation blockNumber now).view id = book.view id := by
  rw [OrderBook.record]
  generalize mergeOrderRetirement (book.retirement? orderId) observation now = next
  split
  · exact view_forget_of_ne hne
  · simp only [OrderBook.view, OrderBook.retirement?, Table.get?_upsert, if_neg hne]

variable {hf : ∀ o, (f o).key = o.key} {incoming : MarketOrderRow}

theorem view_upsertOrder (hid : incoming.id = id) : (book.upsertOrder incoming now).view id =
      ⟨some ((book.orders.get? id).elim incoming (incoming.upserted now)), book.retirement? id⟩ := by
  have hkey : incoming.key = id := hid
  simp only [OrderBook.view, OrderBook.upsertOrder, Table.get?_upsert, if_pos hkey]
  rfl

theorem view_upsertOrder_of_ne (hne : incoming.id ≠ id) :
    (book.upsertOrder incoming now).view id = book.view id := by
  have hkey : incoming.key ≠ id := hne
  simp only [OrderBook.view, OrderBook.upsertOrder, Table.get?_upsert, if_neg hkey]
  rfl

theorem view_updateOrders {p : MarketOrderRow → Bool}
    :
    ({ book with orders := book.orders.updateWhere p f hf } : OrderBook).view id =
      ⟨(book.orders.get? id).map (fun o => if p o then f o else o), book.retirement? id⟩ := by
  simp only [OrderBook.view, Table.get?_updateWhere]
  rfl

theorem view_updateOrder :
    ({ book with orders := book.orders.updateWhere (fun o => o.id = id) f hf } : OrderBook).view id =
      ⟨(book.orders.get? id).map f, book.retirement? id⟩ := by
  rw [view_updateOrders]
  cases h : book.orders.get? id with
  | none => rfl
  | some r =>
    have hid : r.id = id := (Table.get?_eq_some.mp h).2
    simp [hid]

theorem view_updateOrder_of_ne (hne : orderId ≠ id) :
    ({ book with orders := book.orders.updateWhere (fun o => o.id = orderId) f hf } :
      OrderBook).view id = book.view id := by
  rw [view_updateOrders, OrderBook.view]
  cases h : book.orders.get? id with
  | none => rfl
  | some r =>
    have hid : r.id = id := (Table.get?_eq_some.mp h).2
    simp [hid, hne.symm]

end Lookups

theorem MarketOrderRow.sourceStatus_rememberExpiry (row : MarketOrderRow) (supplied : Option Nat) :
    (row.rememberExpiry supplied).sourceStatus = row.sourceStatus := by
  rw [rememberExpiry]
  split <;> rfl

theorem MarketOrderRow.observedAt_rememberExpiry (row : MarketOrderRow) (supplied : Option Nat) :
    (row.rememberExpiry supplied).observedAt = row.observedAt := by
  rw [rememberExpiry]
  split <;> rfl

variable {now : Nat} {book : OrderBook} {id : OrderId} {payload : OrderSourceUpdate}
  {deadline : Option Nat}

theorem view_rememberOrderExpiry {supplied : Option Nat} :
    (book.rememberOrderExpiry id supplied).view id =
      ⟨(book.orders.get? id).map (·.rememberExpiry supplied), book.retirement? id⟩ :=
  view_updateOrder

section Moves

variable {book : OrderBook} {id : OrderId} {now : Nat} {e : OrderEvent}

theorem moves_rewrite (hevent : e.isMaintenance = false) {p : MarketOrderRow → Bool}
    {f : MarketOrderRow → MarketOrderRow} {hf : ∀ o, (f o).key = o.key}
    (hsource : ∀ o, (f o).sourceStatus = o.sourceStatus)
    (hdeadline : ∀ o, (f o).validUntil = o.validUntil)
    (hobserved : ∀ o, (f o).observedAt = o.observedAt)
    (hupdated : ∀ o, (f o).updatedAt = o.updatedAt ∨ (f o).updatedAt = now) :
    OrderMoves id now e (book.view id)
      (({ book with orders := book.orders.updateWhere p f hf } : OrderBook).view id) := by
  rw [view_updateOrders, OrderBook.view]
  cases book.orders.get? id with
  | none => exact .refl
  | some r =>
    rw [Option.map_some]
    split
    · exact .single (.rewritten hevent (hsource r) (hdeadline r) (hobserved r) (hupdated r))
    · exact .refl

variable {orderId : OrderId} {fromBlock : Nat}

variable {status : OrderStatus} {raw : Bool}

theorem moves_applyChainOutcome {blockNumber : Option Nat} (hevent : e.isMaintenance = false) :
    OrderMoves id now e (book.view id)
      ((book.applyChainOutcome orderId status blockNumber now).view id) := by
  rw [OrderBook.applyChainOutcome]
  split
  · have hrow (o : MarketOrderRow) : (o.chainOutcome status blockNumber now).sourceStatus = o.sourceStatus ∧
          (o.chainOutcome status blockNumber now).validUntil = o.validUntil ∧
          (o.chainOutcome status blockNumber now).observedAt = o.observedAt ∧
          ((o.chainOutcome status blockNumber now).updatedAt = o.updatedAt ∨
            (o.chainOutcome status blockNumber now).updatedAt = now) := by
      rw [MarketOrderRow.chainOutcome]
      split
      · exact ⟨rfl, rfl, rfl, Or.inl rfl⟩
      · exact ⟨rfl, rfl, rfl, Or.inr rfl⟩
    exact moves_rewrite hevent (fun o => (hrow o).1) (fun o => (hrow o).2.1)
      (fun o => (hrow o).2.2.1) (fun o => (hrow o).2.2.2)
  · exact .refl

theorem moves_applyValidation {revision : Nat}
    (hevent : e.isMaintenance = false) :
    OrderMoves id now e (book.view id) ((book.applyValidation orderId revision status now).view id) := by
  have hrow (o : MarketOrderRow) : (o.validated status now).sourceStatus = o.sourceStatus ∧
      (o.validated status now).validUntil = o.validUntil := by
    simp only [MarketOrderRow.validated, OrderRow.withValidation]
    split <;> exact ⟨rfl, rfl⟩
  refine moves_rewrite hevent (fun o => (hrow o).1) (fun o => (hrow o).2) (fun _ => rfl) (fun o => ?_)
  simp only [MarketOrderRow.validated]
  split
  · exact Or.inr rfl
  · exact Or.inl rfl

theorem moves_deactivateMissing {collectionId : CollectionId} {source : String} {startedAt : Nat}
    {missing : List OrderId} :
    OrderMoves id now e (book.view id)
      ((book.deactivateMissing collectionId source startedAt missing now).view id) := by
  rw [OrderBook.deactivateMissing]
  split
  · exact .refl
  rw [view_updateOrders, OrderBook.view]
  cases book.orders.get? id with
  | none => exact .refl
  | some r =>
    rw [Option.map_some]
    split
    · next hp =>
      simp only [Bool.and_eq_true, decide_eq_true_eq] at hp
      exact .single (.deactivated hp.1.2 rfl rfl)
    · exact .refl

theorem view_applySourceObservation_of_ne {payload : OrderSourceUpdate} (hne : payload.orderId ≠ id) :
    (book.applySourceObservation payload now).view id = book.view id := by
  have hlearned : (book.rememberOrderExpiry payload.orderId payload.validUntil).view id =
      book.view id := view_updateOrder_of_ne hne
  simp only [OrderBook.applySourceObservation]
  split
  · rfl
  split
  · rfl
  split
  · rfl
  split
  · split
    · exact view_record_of_ne hne
    · rfl
  split
  · exact hlearned
  split
  · exact hlearned
  · exact (view_updateOrder_of_ne hne).trans hlearned

theorem moves_applySourceObservation {payload : OrderSourceUpdate} :
    OrderMoves id now (.observe payload) (book.view id)
      ((book.applySourceObservation payload now).view id) := by
  by_cases hid : payload.orderId = id
  swap
  · rw [view_applySourceObservation_of_ne hid]
  subst hid
  have hcarries : (OrderEvent.observe payload).carries payload.orderId = payload.validUntil :=
    if_pos rfl
  simp only [OrderBook.applySourceObservation]
  split
  · exact .refl
  split
  · exact .refl
  split
  · exact .refl
  split
  · next hrow =>
    split
    · rw [view_record, OrderBook.view, hrow, ← hcarries]
      exact .single .marked
    · exact .refl
  · next row hrow =>
    have hview : (book.rememberOrderExpiry payload.orderId payload.validUntil).view payload.orderId =
        ⟨some (row.rememberExpiry payload.validUntil), book.retirement? payload.orderId⟩ := by
      rw [view_rememberOrderExpiry, hrow, Option.map_some]
    have hlearned : OrderMoves payload.orderId now (.observe payload) (book.view payload.orderId)
        ((book.rememberOrderExpiry payload.orderId payload.validUntil).view payload.orderId) := by
      rw [hview, OrderBook.view, hrow, ← hcarries]
      exact .single (.learned rfl)
    split
    · exact hlearned
    next hopen =>
    split
    · exact hlearned
    refine hlearned.tail ?_
    rw [OrderBook.view, OrderView.mk.injEq] at hview
    rw [view_updateOrder, OrderBook.view, hview.1, hview.2, Option.map_some]
    refine .observed rfl ?_
    rw [MarketOrderRow.sourceStatus_rememberExpiry]
    intro hcancelled
    simp [hcancelled] at hopen

theorem validUntil_upserted (incoming stored : MarketOrderRow) (now : Nat) :
    (incoming.upserted now stored).validUntil = incoming.validUntil ∨
      (incoming.upserted now stored).validUntil = stored.validUntil := by
  rw [MarketOrderRow.upserted]
  split
  · exact Or.inl rfl
  · split
    · exact Or.inr rfl
    · exact Or.inr rfl

theorem view_applyOrderUpsert_of_ne {payload : OrderUpsertPayload}
    (hne : payload.orderId ≠ id) :
    (book.applyOrderUpsert raw payload now).1.view id = book.view id := by
  simp only [OrderBook.applyOrderUpsert]
  split
  · rfl
  split
  · rfl
  split
  · exact view_record_of_ne hne
  split
  · exact view_updateOrder_of_ne hne
  split
  · rfl
  split
  · rfl
  · rw [view_forget_of_ne hne]
    exact view_upsertOrder_of_ne hne

theorem moves_applyOrderUpsert {payload : OrderUpsertPayload} :
    OrderMoves id now (.upsert raw payload) (book.view id)
      ((book.applyOrderUpsert raw payload now).1.view id) := by
  by_cases hid : payload.orderId = id
  swap
  · rw [view_applyOrderUpsert_of_ne hid]
  subst hid
  have hcarries : (OrderEvent.upsert raw payload).carries payload.orderId = payload.validUntil :=
    if_pos rfl
  simp only [OrderBook.applyOrderUpsert]
  split
  · exact .refl
  split
  · exact .refl
  split
  · next retired hfenced =>
    obtain ⟨hretired, hlive⟩ := Option.filter_eq_some_iff.mp hfenced
    rw [Bool.and_eq_true, decide_eq_true_eq] at hlive
    rw [view_record, OrderBook.view, hretired, ← hcarries]
    exact .single (.fenced hlive.1)
  · next hfence =>
    split
    · next row hrow =>
      have hrow' := (Option.filter_eq_some_iff.mp hrow).1
      rw [view_rememberOrderExpiry, OrderBook.view, hrow', Option.map_some, ← hcarries]
      exact .single (.learned rfl)
    · next hopen =>
      split
      · exact .refl
      next hadmitted =>
      split
      · exact .refl
      -- the row is written, and the marker of the order goes
      have hview : (book.upsertOrder (payload.row raw (book.orders.get? payload.orderId)
          (payload.observedAt.getD now) now) now).view payload.orderId = _ := view_upsertOrder rfl
      rw [OrderBook.view, OrderView.mk.injEq] at hview
      rw [view_forget, hview.1]
      refine .single (.upserted rfl rfl (by simpa using hadmitted) ?_ ?_ ?_)
      · intro r hr hcancelled
        have := Option.filter_eq_none_iff.mp hopen r hr
        simp [isTerminalOrder, hcancelled] at this
      · intro m hm
        have := Option.filter_eq_none_iff.mp hfence m hm
        by_contra hcon
        push Not at hcon
        simp [hcon.1, hcon.2] at this
      · cases hexisting : book.orders.get? payload.orderId with
        | none => exact Or.inl rfl
        | some r =>
          refine (validUntil_upserted _ r now).imp id (fun h => ⟨r, rfl, h⟩)

theorem view_deleteOrder {book : OrderBook} : (book.deleteOrder id).view id = ⟨none, book.retirement? id⟩ := by
  have hnone : (book.deleteOrder id).orders.get? id = none := by
    rw [OrderBook.deleteOrder, Table.get?_deleteWhere]
    cases h : book.orders.get? id with
    | none => rfl
    | some r =>
      have hid : r.id = id := (Table.get?_eq_some.mp h).2
      simp [hid]
  rw [OrderBook.view, hnone]
  rfl

theorem view_deleteOrder_of_ne {book : OrderBook} (hne : orderId ≠ id) :
    (book.deleteOrder orderId).view id = book.view id := by
  have hsame : (book.deleteOrder orderId).orders.get? id = book.orders.get? id := by
    rw [OrderBook.deleteOrder, Table.get?_deleteWhere]
    cases h : book.orders.get? id with
    | none => rfl
    | some r =>
      have hid : r.id = id := (Table.get?_eq_some.mp h).2
      simp [hid, hne.symm]
  rw [OrderBook.view, hsame]
  rfl

theorem moves_retireOrder (hevent : e.isMaintenance = true) :
    OrderMoves id now e (book.view id) ((book.retireOrder now orderId).view id) := by
  rw [OrderBook.retireOrder]
  split
  · exact .refl
  next row hrow =>
  have hrowId : row.id = orderId := (Table.get?_eq_some.mp hrow).2
  split
  · exact .refl
  next reason hreason =>
  by_cases hid : orderId = id
  · subst hid
    have hmarker : (book.markRetired row reason now).retirement? orderId =
        if reason = .terminal || (reason = .stale && row.sourceStatus = .inactive) then
          keptMarker (mergeOrderRetirement (book.retirement? orderId)
            ⟨if row.sourceStatus = .cancelled then .sourceCancelled else reason,
              (book.retentionInput row).lastObservedAt, (book.retentionInput row).validUntil⟩ now) now
        else book.retirement? orderId := by
      rw [OrderBook.markRetired, hrowId]
      split
      · exact congrArg OrderView.marker view_record
      · rfl
    rw [view_deleteOrder, hmarker, OrderBook.view, hrow]
    exact .single (.retired hevent rfl rfl rfl (Nat.le_max_left _ _) hreason)
  · rw [view_deleteOrder_of_ne hid, OrderBook.markRetired, hrowId]
    split
    · rw [view_record_of_ne hid]
    · exact .refl

theorem moves_deleteMarker :
    OrderMoves id now e (book.view id) ((book.deleteMarker now orderId).view id) := by
  have hview : (book.deleteMarker now orderId).view id =
      ⟨book.orders.get? id, ((book.retirements.get? id).filter (fun m =>
        !(m.orderId = orderId && decide (m.retirement.expiresAt ≤ now)))).map (·.retirement)⟩ := by
    rw [OrderBook.view, OrderBook.retirement?, OrderBook.deleteMarker, Table.get?_deleteWhere]
  rw [hview, OrderBook.view, OrderBook.retirement?]
  cases book.retirements.get? id with
  | none => exact .refl
  | some m =>
    rw [Option.filter_some]
    split
    · exact .refl
    next hexpired =>
    refine .single (.swept ?_)
    simp only [Bool.not_eq_true', Bool.not_eq_false, Bool.and_eq_true, decide_eq_true_eq] at hexpired
    exact hexpired.2

theorem moves_foldl {α : Type} {f : OrderBook → α → OrderBook}
    (hf : ∀ b a, OrderMoves id now e (b.view id) ((f b a).view id)) :
    ∀ (l : List α) (b : OrderBook), OrderMoves id now e (b.view id) ((l.foldl f b).view id)
  | [], _ => .refl
  | a :: rest, b => (hf b a).trans (moves_foldl hf rest (f b a))

theorem moves_maintainBatch {candidates markers : List OrderId} (hevent : e.isMaintenance = true) :
    OrderMoves id now e (book.view id) ((book.maintainBatch candidates markers now).view id) :=
  (moves_foldl (fun _ _ => moves_retireOrder hevent) candidates book).trans
    (moves_foldl (fun _ _ => moves_deleteMarker) markers _)

theorem moves_resetOrderFromTransfer (hevent : e.isMaintenance = false) {r : TransferRow} :
    OrderMoves id now e (book.view id) ((book.resetOrderFromTransfer now r).view id) := by
  rw [OrderBook.resetOrderFromTransfer]
  split
  · exact .refl
  · exact moves_rewrite hevent (fun _ => rfl) (fun _ => rfl) (fun _ => rfl) (fun _ => Or.inr rfl)

theorem moves_deleteOrdersFromBlock :
    OrderMoves id now e (book.view id) ((book.deleteOrdersFromBlock fromBlock).view id) := by
  have hview : (book.deleteOrdersFromBlock fromBlock).view id =
      ⟨(book.orders.get? id).filter (fun o => !isOrphanOrder fromBlock o.toOrderRow),
        book.retirement? id⟩ := by
    rw [OrderBook.view, OrderBook.deleteOrdersFromBlock, Table.get?_deleteWhere]
    rfl
  rw [hview, OrderBook.view]
  cases book.orders.get? id with
  | none => exact .refl
  | some r =>
    rw [Option.filter_some]
    split
    · exact .refl
    next horphan =>
    refine .single (.orphaned ?_)
    simp only [isOrphanOrder, Bool.not_eq_true', Bool.not_eq_false, Bool.and_eq_true,
      decide_eq_true_eq] at horphan
    exact horphan.2

theorem moves_invalidateFromBlock :
    OrderMoves id now e (book.view id) ((book.invalidateFromBlock fromBlock).view id) := by
  have hview : (book.invalidateFromBlock fromBlock).view id =
      ⟨book.orders.get? id, ((book.retirements.get? id).filter (fun m =>
        !(m.retirement.reason = .terminal &&
          m.blockNumber.any (fun n => decide (fromBlock ≤ n))))).map (·.retirement)⟩ := by
    rw [OrderBook.view, OrderBook.retirement?, OrderBook.invalidateFromBlock, Table.get?_deleteWhere]
  rw [hview, OrderBook.view, OrderBook.retirement?]
  cases book.retirements.get? id with
  | none => exact .refl
  | some m =>
    rw [Option.filter_some]
    split
    · exact .refl
    next hchain =>
    refine .single (.invalidated ?_)
    simp only [Bool.not_eq_true', Bool.not_eq_false, Bool.and_eq_true, decide_eq_true_eq] at hchain
    exact hchain.1

theorem moves_rollbackFromBlock {reversed : List TransferRow}
    (hevent : e.isMaintenance = false) :
    OrderMoves id now e (book.view id) ((book.rollbackFromBlock fromBlock reversed now).view id) := by
  have hreset : OrderMoves id now e (book.view id)
      ((reversed.foldl (OrderBook.resetOrderFromTransfer now) book).view id) :=
    moves_foldl (fun _ _ => moves_resetOrderFromTransfer hevent) reversed book
  refine hreset.trans ?_
  rw [OrderBook.rollbackFromBlock]
  generalize reversed.foldl (OrderBook.resetOrderFromTransfer now) book = reset
  exact moves_deleteOrdersFromBlock.trans moves_invalidateFromBlock

theorem moves_apply : OrderMoves id now e (book.view id) ((book.apply now e).view id) := by
  cases e with
  | upsert raw payload => exact moves_applyOrderUpsert
  | observe payload => exact moves_applySourceObservation
  | chainOutcome orderId status blockNumber => exact moves_applyChainOutcome rfl
  | validate orderId revision status => exact moves_applyValidation rfl
  | deactivate collectionId source startedAt missing => exact moves_deactivateMissing
  | observeCollection collectionId startedAt =>
    rw [OrderBook.apply, OrderBook.observeCollection]
    split
    · exact .refl
    · exact .refl
  | maintain candidates markers => exact moves_maintainBatch rfl
  | rollback fromBlock reversed => exact moves_rollbackFromBlock rfl

end Moves

/-! ## 4. Merging markers -/

theorem knownOrderExpiry_eq_some {value : Option Nat} {v : Nat} (h : knownOrderExpiry value = some v) :
    value = some v ∧ 0 < v := by
  obtain ⟨hv, hknown⟩ := Option.filter_eq_some_iff.mp h
  rw [Bool.and_eq_true, decide_eq_true_eq] at hknown
  exact ⟨hv, hknown.2⟩

section Merge

variable {previous : Option OrderRetirement} {observation : OrderRetirementObservation} {now : Nat}

theorem merge_reason_of_previous {marker : OrderRetirement} (h : marker.reason = .sourceCancelled) :
    (mergeOrderRetirement (some marker) observation now).reason = .sourceCancelled := by
  simp [mergeOrderRetirement, h]

theorem merge_reason_of_observation (h : observation.reason = .sourceCancelled) :
    (mergeOrderRetirement previous observation now).reason = .sourceCancelled := by
  simp [mergeOrderRetirement, h]

variable {v : Nat}

theorem merge_validUntil_eq_some (h : (mergeOrderRetirement previous observation now).validUntil = some v) :
    (previous.bind (·.validUntil) = some v ∨ observation.validUntil = some v) ∧
      knownOrderExpiry (some v) = some v := by
  simp only [mergeOrderRetirement] at h
  split at h
  · next hpos =>
    rw [Option.some.injEq] at h
    have hknown : ∀ value : Option Nat, (knownOrderExpiry value).getD 0 = v →
        value = some v ∧ knownOrderExpiry (some v) = some v := by
      intro value hvalue
      cases hk : knownOrderExpiry value with
      | none =>
        rw [hk] at hvalue
        simp only [Option.getD_none] at hvalue
        omega
      | some w =>
        rw [hk, Option.getD_some] at hvalue
        subst hvalue
        have hw := (knownOrderExpiry_eq_some hk).1
        exact ⟨hw, hw ▸ hk⟩
    rcases max_choice ((knownOrderExpiry (previous.bind (·.validUntil))).getD 0)
      ((knownOrderExpiry observation.validUntil).getD 0) with hmax | hmax
    · obtain ⟨hv, hk⟩ := hknown _ (hmax.symm.trans h)
      exact ⟨Or.inl hv, hk⟩
    · obtain ⟨hv, hk⟩ := hknown _ (hmax.symm.trans h)
      exact ⟨Or.inr hv, hk⟩
  · cases h

theorem le_merge_validUntil (hv : knownOrderExpiry (previous.bind (·.validUntil)) = some v ∨
      knownOrderExpiry observation.validUntil = some v) :
    ∃ w, (mergeOrderRetirement previous observation now).validUntil = some w ∧ v ≤ w := by
  have hle : v ≤ max ((knownOrderExpiry (previous.bind (·.validUntil))).getD 0)
      ((knownOrderExpiry observation.validUntil).getD 0) := by
    rcases hv with hv | hv
    · rw [hv]
      exact Nat.le_max_left _ _
    · rw [hv]
      exact Nat.le_max_right _ _
  have hpos : 0 < v := by
    rcases hv with hv | hv
    · exact (knownOrderExpiry_eq_some hv).2
    · exact (knownOrderExpiry_eq_some hv).2
  simp only [mergeOrderRetirement]
  rw [if_pos (Nat.lt_of_lt_of_le hpos hle)]
  exact ⟨_, rfl, hle⟩

theorem merge_expiresAt
    (hreason : (mergeOrderRetirement previous observation now).reason = .sourceCancelled) :
    (mergeOrderRetirement previous observation now).expiresAt =
      match (mergeOrderRetirement previous observation now).validUntil with
      | none =>
        ((terminalMarker previous).map (·.expiresAt)).getD (now + unknownOrderLifetimeSeconds)
      | some v => v + orderReorgGraceSeconds := by
  simp only [mergeOrderRetirement] at hreason ⊢
  rw [hreason]
  rfl

end Merge

/-- The marker of a source cancellation; with a known deadline it lasts a grace period beyond it. -/
structure SourceMarker (marker : OrderRetirement) : Prop where
  reason : marker.reason = .sourceCancelled
  deadline : ∀ v, marker.validUntil = some v →
    marker.expiresAt = v + orderReorgGraceSeconds ∧ knownOrderExpiry (some v) = some v

variable {observation : OrderRetirementObservation} {marker : OrderRetirement} {s : BookState}
  {v : OrderView}

theorem sourceMarker_merge {previous : Option OrderRetirement}
    (hreason : (mergeOrderRetirement previous observation now).reason = .sourceCancelled) :
    SourceMarker (mergeOrderRetirement previous observation now) := by
  refine ⟨hreason, fun v hv => ?_⟩
  rw [merge_expiresAt hreason, hv]
  exact ⟨rfl, (merge_validUntil_eq_some hv).2⟩

theorem SourceMarker.terminalMarker (h : SourceMarker marker) :
    terminalMarker (some marker) = some marker := by
  simp [Indexer.terminalMarker, isTerminalRetirement, h.reason]

theorem SourceMarker.merge_expiry (h : SourceMarker marker) :
    ((mergeOrderRetirement (some marker) observation now).validUntil = none ∧ marker.validUntil = none ∧
        (mergeOrderRetirement (some marker) observation now).expiresAt = marker.expiresAt) ∨
      ∃ v, (mergeOrderRetirement (some marker) observation now).validUntil = some v ∧
        (mergeOrderRetirement (some marker) observation now).expiresAt = v + orderReorgGraceSeconds := by
  have hreason : (mergeOrderRetirement (some marker) observation now).reason = .sourceCancelled :=
    merge_reason_of_previous h.reason
  have hexpiry := merge_expiresAt hreason
  cases hv : (mergeOrderRetirement (some marker) observation now).validUntil with
  | none =>
    left
    rw [hv, h.terminalMarker] at hexpiry
    refine ⟨rfl, ?_, hexpiry⟩
    cases hm : marker.validUntil with
    | none => rfl
    | some w =>
      have hknown : knownOrderExpiry ((some marker).bind (·.validUntil)) = some w := by
        rw [Option.bind_some, hm]
        exact (h.deadline w hm).2
      obtain ⟨w', hw', -⟩ : ∃ w', (mergeOrderRetirement (some marker) observation now).validUntil =
          some w' ∧ w ≤ w' := le_merge_validUntil (Or.inl hknown)
      rw [hv] at hw'
      cases hw'
  | some v =>
    right
    rw [hv] at hexpiry
    exact ⟨v, rfl, hexpiry⟩

/-! ## 5. An order has a row or a marker, not both -/

def OrderView.Exclusive (v : OrderView) : Prop := v.row = none ∨ v.marker = none

section Invariants

variable {id : OrderId} {now : Nat} {e : OrderEvent} {v v' : OrderView}

theorem OrderView.Exclusive.move (h : v.Exclusive) (hmove : OrderMove id now e v v') : v'.Exclusive := by
  cases hmove with
  | learned _ => exact Or.inr (h.resolve_left (by simp))
  | rewritten => exact Or.inr (h.resolve_left (by simp))
  | deactivated => exact Or.inr (h.resolve_left (by simp))
  | observed => exact Or.inr (h.resolve_left (by simp))
  | marked => exact Or.inl rfl
  | fenced => exact Or.inl (h.resolve_right (by simp))
  | upserted => exact Or.inr rfl
  | retired => exact Or.inl rfl
  | swept => exact Or.inr rfl
  | orphaned => exact Or.inl rfl
  | invalidated => exact Or.inr rfl

theorem OrderMoves.keep {P : OrderView → Prop}
    (hP : ∀ {v v'}, P v → OrderMove id now e v v' → P v') (hmoves : OrderMoves id now e v v')
    (h : P v) : P v' := by
  induction hmoves with
  | refl => exact h
  | tail _ hmove ih => exact hP ih hmove

/-! ## 6. The evidence stays until it lapses -/

/-- Maintenance may delete the row without a marker: its deadline has passed, or it has none and was
not observed for a day. -/
def MarketOrderRow.isOver (row : MarketOrderRow) (now : Nat) : Bool :=
  match row.validUntil with
  | some v => v ≤ now
  | none => row.lastObserved + unknownOrderLifetimeSeconds ≤ now

/-- The evidence for a cancellation lapses: the marker has expired, it learns a deadline by which it
has expired, or maintenance finds the row over. -/
def OrderView.lapses (v : OrderView) (e : OrderEvent) (id : OrderId) (now : Nat) : Bool :=
  v.marker.any (fun m => decide (m.expiresAt ≤ now) || (knownOrderExpiry (e.carries id)).any (fun d =>
        decide (max (m.validUntil.getD 0) d + orderReorgGraceSeconds ≤ now))) ||
    (e.isMaintenance && v.row.any (fun r => r.isOver now))

/-- The evidence for a source cancellation. -/
inductive Kept : OrderView → Prop
  | row {row : MarketOrderRow} (hrow : row.sourceStatus = .cancelled) : Kept ⟨some row, none⟩
  | marker {marker : OrderRetirement} (hmarker : SourceMarker marker) : Kept ⟨none, some marker⟩

theorem carries_of_isMaintenance (h : e.isMaintenance = true) : e.carries id = none := by
  cases e with
  | maintain candidates markers => rfl
  | _ => cases h

variable {marker : OrderRetirement}

theorem lapses_marker_eq_false : (OrderView.mk none (some marker)).lapses e id now = false ↔
      now < marker.expiresAt ∧ ∀ d, knownOrderExpiry (e.carries id) = some d →
        now < max (marker.validUntil.getD 0) d + orderReorgGraceSeconds := by
  simp only [OrderView.lapses, Option.any_some, Option.any_none, Bool.and_false, Bool.or_false,
    Bool.or_eq_false_iff, decide_eq_false_iff_not, Nat.not_le, Option.any_eq_false]

variable {next : OrderRetirement} {input : OrderRetentionInput} {reason : OrderRetirementReason}
  {d now' : Nat} {observation : OrderRetirementObservation}

theorem Kept.merge (hmarker : SourceMarker marker)
    (hlive : (OrderView.mk none (some marker)).lapses e id now = false)
    (reason : OrderRetirementReason) (retiredAt : Nat)
    (hnext : next = mergeOrderRetirement (some marker) ⟨reason, retiredAt, e.carries id⟩ now) :
    Kept ⟨none, keptMarker next now⟩ ∧
      (OrderView.mk none (keptMarker next now)).lapses e id now = false := by
  obtain ⟨hexpiry, hlearns⟩ := lapses_marker_eq_false.mp hlive
  have hsource : SourceMarker next := by
    rw [hnext]
    exact sourceMarker_merge (merge_reason_of_previous hmarker.reason)
  -- a deadline that either side knows is not lost
  have hknows : ∀ d, knownOrderExpiry (e.carries id) = some d → ∃ v, next.validUntil = some v ∧ d ≤ v := by
    intro d hd
    rw [hnext]
    exact le_merge_validUntil (Or.inr hd)
  have hgrows : ∀ w, marker.validUntil = some w → ∃ v, next.validUntil = some v ∧ w ≤ v := by
    intro w hw
    have hknown : knownOrderExpiry ((some marker).bind (·.validUntil)) = some w := by
      rw [Option.bind_some, hw]
      exact (hmarker.deadline w hw).2
    rw [hnext]
    exact le_merge_validUntil (Or.inl hknown)
  have hlater : now < next.expiresAt := by
    rcases hmarker.merge_expiry with ⟨-, -, hsame⟩ | ⟨v, hv, hsame⟩
    · rw [hnext, hsame]
      exact hexpiry
    rw [hnext, hsame]
    obtain ⟨hfrom | hfrom, hknown⟩ := merge_validUntil_eq_some hv
    · have := (hmarker.deadline v hfrom).1
      omega
    have hcarried : knownOrderExpiry (e.carries id) = some v := by
      rw [← hknown]
      exact congrArg _ hfrom
    have hbound := hlearns v hcarried
    cases hw : marker.validUntil with
    | none =>
      rw [hw, Option.getD_none] at hbound
      omega
    | some w =>
      obtain ⟨v', hv', hle⟩ := hgrows w hw
      rw [hnext, hv] at hv'
      cases hv'
      rw [hw, Option.getD_some] at hbound
      omega
  have hkept : keptMarker next now = some next := if_neg (Nat.not_le.mpr hlater)
  rw [hkept]
  refine ⟨.marker hsource, lapses_marker_eq_false.mpr ⟨hlater, fun d hd => ?_⟩⟩
  obtain ⟨v, hv, hle⟩ := hknows d hd
  rw [hv, Option.getD_some, Nat.max_eq_left hle, ← (hsource.deadline v hv).1]
  exact hlater

/-- Why maintenance deletes a row that the source has cancelled. -/
inductive CancelledRowOver (input : OrderRetentionInput) (now : Nat) : OrderRetirementReason → Prop
  | expired {d : Nat} (hdeadline : input.validUntil = some d) (hpassed : d ≤ now) :
      CancelledRowOver input now .expired
  | terminal (hgrace : input.lastChangedAt + orderReorgGraceSeconds ≤ now)
      (hopen : ∀ d, input.validUntil = some d → now < d) : CancelledRowOver input now .terminal
  | stale (hundated : input.validUntil = none)
      (hunobserved : input.lastObservedAt + unknownOrderLifetimeSeconds ≤ now) :
      CancelledRowOver input now .stale

theorem cancelledRowOver (hsource : input.sourceStatus = .cancelled)
    (h : orderRetirementReason input now = some reason) : CancelledRowOver input now reason := by
  rw [orderRetirementReason] at h
  split at h
  · next hexpired =>
    obtain ⟨d, hd, hpassed⟩ := (Option.any_eq_true _ _).mp hexpired
    cases h
    exact .expired hd (of_decide_eq_true hpassed)
  · next hopen =>
    have hopen' : ∀ d, input.validUntil = some d → now < d := by
      intro d hd
      simpa [hd] using hopen
    split at h
    · next hterminal =>
      rw [Bool.and_eq_true, decide_eq_true_eq] at hterminal
      cases h
      exact .terminal hterminal.2 hopen'
    · split at h
      · next hinactive =>
        simp [hsource] at hinactive
      split at h
      · next hstale =>
        rw [Bool.and_eq_true, decide_eq_true_eq, decide_eq_true_eq] at hstale
        cases h
        exact .stale hstale.1 hstale.2
      · cases h

theorem Kept.retired {row : MarketOrderRow} (hrow : row.sourceStatus = .cancelled)
    (hover : row.isOver now = false)
    (hdeadline : input.validUntil = row.validUntil) (hsource : input.sourceStatus = row.sourceStatus)
    (hobserved : row.lastObserved ≤ input.lastObservedAt)
    (hreason : orderRetirementReason input now = some reason) :
    reason = .terminal ∧ now < (mergeOrderRetirement none
      ⟨.sourceCancelled, input.lastObservedAt, input.validUntil⟩ now).expiresAt := by
  have hopen : ∀ d, row.validUntil = some d → now < d := by
    intro d hd
    simpa [MarketOrderRow.isOver, hd] using hover
  refine ⟨?_, ?_⟩
  · cases cancelledRowOver (hsource.trans hrow) hreason with
    | expired hd hpassed => exact absurd (hopen _ (hdeadline ▸ hd)) (Nat.not_lt.mpr hpassed)
    | terminal => rfl
    | stale hundated hunobserved =>
      rw [hdeadline] at hundated
      simp only [MarketOrderRow.isOver, hundated, decide_eq_false_iff_not] at hover
      omega
  · rw [merge_expiresAt (merge_reason_of_observation rfl)]
    split
    · exact Nat.lt_add_of_pos_right (by decide)
    next d hd =>
    obtain ⟨hfrom | hfrom, -⟩ := merge_validUntil_eq_some hd
    · cases hfrom
    · have := hopen d (hdeadline ▸ hfrom)
      exact Nat.lt_of_lt_of_le this (Nat.le_add_right _ _)

/-- **The evidence survives every move that it does not lapse at.** -/
theorem Kept.move (h : Kept v ∧ v.lapses e id now = false) (hmove : OrderMove id now e v v') :
    Kept v' ∧ v'.lapses e id now = false := by
  obtain ⟨hkept, hlive⟩ := h
  cases hkept with
  | row hrow =>
    cases hmove with
    | learned hevent =>
      refine ⟨.row (by rw [MarketOrderRow.sourceStatus_rememberExpiry, hrow]), ?_⟩
      simp [OrderView.lapses, hevent]
    | rewritten hevent hsource =>
      refine ⟨.row (hsource.trans hrow), ?_⟩
      simp [OrderView.lapses, hevent]
    | deactivated hactive => simp [hrow] at hactive
    | observed _ hcancelled => exact absurd hrow hcancelled
    | upserted _ _ _ hterminal => exact absurd hrow (hterminal _ rfl)
    | retired hevent hdeadline hsource hchanged hobserved hreason =>
      have hover := hlive
      simp only [OrderView.lapses, Option.any_none, Bool.false_or, hevent, Bool.true_and,
        Option.any_some] at hover
      obtain ⟨rfl, hlater⟩ := Kept.retired hrow hover hdeadline hsource hobserved hreason
      simp only [hrow, decide_true, Bool.true_or, if_true]
      rw [keptMarker, if_neg (Nat.not_le.mpr hlater)]
      refine ⟨.marker (sourceMarker_merge (merge_reason_of_observation rfl)),
        lapses_marker_eq_false.mpr ⟨hlater, fun d hd => ?_⟩⟩
      rw [carries_of_isMaintenance hevent] at hd
      cases hd
    | orphaned hcancelled => exact absurd hrow hcancelled
  | marker hmarker =>
    cases hmove with
    | marked => exact Kept.merge hmarker hlive _ _ rfl
    | fenced => exact Kept.merge hmarker hlive _ _ rfl
    | upserted _ _ _ _ hfence =>
      rcases hfence _ rfl with hexpired | hreversible
      · exact absurd (lapses_marker_eq_false.mp hlive).1 (Nat.not_lt.mpr hexpired)
      · simp [isTerminalRetirement, hmarker.reason] at hreversible
    | swept hexpired =>
      exact absurd (lapses_marker_eq_false.mp hlive).1 (Nat.not_lt.mpr hexpired)
    | invalidated hchain =>
      rw [hmarker.reason] at hchain
      cases hchain

/-! ## 7. One deadline for each order -/

/-- What a message says about the deadline of an order: nothing, the deadline, or something
malformed. -/
def SaysDeadline (deadline said : Option Nat) : Prop :=
  said = none ∨ said = deadline ∨ said = some 0

/-- The row and the marker know no other deadline. -/
structure OneDeadline (deadline : Option Nat) (v : OrderView) : Prop where
  row : ∀ r, v.row = some r → r.validUntil = none ∨ r.validUntil = deadline
  marker : ∀ m d, v.marker = some m → m.validUntil = some d → deadline = some d

variable {deadline : Option Nat}

theorem SaysDeadline.known {said : Option Nat} (h : SaysDeadline deadline said)
    (hd : said = some d) (hpos : 0 < d) : deadline = some d := by
  rcases h with h | h | h
  · rw [h] at hd
    cases hd
  · rw [← h, hd]
  · rw [h, Option.some.injEq] at hd
    omega

theorem oneDeadline_merge {previous : Option OrderRetirement}
    {m : OrderRetirement}
    (hprevious : ∀ p d, previous = some p → p.validUntil = some d → deadline = some d)
    (hobservation : SaysDeadline deadline observation.validUntil)
    (hm : keptMarker (mergeOrderRetirement previous observation now) now = some m)
    (hd : m.validUntil = some d) : deadline = some d := by
  rw [keptMarker] at hm
  split at hm
  · cases hm
  rw [Option.some.injEq] at hm
  subst hm
  obtain ⟨hfrom | hfrom, hknown⟩ := merge_validUntil_eq_some hd
  · cases previous with
    | none => cases hfrom
    | some p => exact hprevious p d rfl hfrom
  · exact hobservation.known hfrom (knownOrderExpiry_eq_some hknown).2

theorem OneDeadline.move (htold : SaysDeadline deadline (e.carries id)) (h : OneDeadline deadline v)
    (hmove : OrderMove id now e v v') : OneDeadline deadline v' := by
  have hrow : ∀ {r r' : MarketOrderRow}, v.row = some r → r'.validUntil = r.validUntil →
      ∀ q, some r' = some q → q.validUntil = none ∨ q.validUntil = deadline := by
    intro r r' hr hsame q hq
    cases hq
    rw [hsame]
    exact h.row r hr
  cases hmove with
  | learned _ =>
    refine ⟨fun q hq => ?_, h.marker⟩
    cases hq
    rw [MarketOrderRow.rememberExpiry]
    split
    · next hknown =>
      obtain ⟨hcarries, hpos⟩ := knownOrderExpiry_eq_some hknown
      exact Or.inr (htold.known hcarries hpos).symm
    · exact h.row _ rfl
  | rewritten _ _ hdeadline => exact ⟨hrow rfl hdeadline, h.marker⟩
  | deactivated _ _ hdeadline => exact ⟨hrow rfl hdeadline, h.marker⟩
  | observed _ _ =>
    refine ⟨hrow rfl ?_, h.marker⟩
    rw [MarketOrderRow.observe]
    split <;> rfl
  | marked =>
    exact ⟨fun _ hq => (by cases hq), fun m d hm hd => oneDeadline_merge h.marker htold hm hd⟩
  | fenced =>
    exact ⟨h.row, fun m d hm hd => oneDeadline_merge h.marker htold hm hd⟩
  | upserted hevent hid hadmitted _ _ hdeadline =>
    refine ⟨fun q hq => ?_, fun m d hm => (by cases hm)⟩
    cases hq
    rcases hdeadline with hnew | ⟨r, hr, hold⟩
    · rw [hnew]
      rw [hevent, OrderEvent.carries, if_pos hid] at htold
      rcases htold with htold | htold | htold
      · exact Or.inl htold
      · exact Or.inr htold
      · simp [admitsOrderObservation, htold] at hadmitted
    · rw [hold]
      exact h.row r hr
  | retired _ hdeadline _ _ _ _ =>
    refine ⟨fun _ hq => (by cases hq), fun m d hm hd => ?_⟩
    have hrowSays := h.row _ rfl
    split at hm
    · refine oneDeadline_merge h.marker ?_ hm hd
      rw [hdeadline]
      exact hrowSays.imp_right Or.inl
    · exact h.marker m d hm hd
  | swept _ => exact ⟨h.row, fun m d hm => (by cases hm)⟩
  | orphaned _ => exact ⟨fun _ hq => (by cases hq), h.marker⟩
  | invalidated _ => exact ⟨h.row, fun m d hm => (by cases hm)⟩

/-! ## 8. What outlives the evidence -/

/-- Nothing observed up to the cutoff can be admitted any more. -/
def TooLate (cutoff : Nat) (deadline : Option Nat) (now : Nat) : Prop :=
  cutoff = 0 ∨ cutoff + unknownOrderLifetimeSeconds ≤ now ∨ ∃ d, deadline = some d ∧ d ≤ now

/-- The order is protected against upserts that were observed up to the cutoff. -/
inductive Protected (cutoff : Nat) (deadline : Option Nat) (now : Nat) : OrderView → Prop
  | row {row : MarketOrderRow} (hrow : row.sourceStatus = .cancelled)
      (hobserved : cutoff ≤ row.observedAt)
      (hgrace : cutoff ≤ now ∨ cutoff ≤ row.updatedAt + orderReorgGraceSeconds) :
      Protected cutoff deadline now ⟨some row, none⟩
  | marker {marker : OrderRetirement} (hmarker : SourceMarker marker)
      (hfallback : marker.validUntil = none → cutoff + unknownOrderLifetimeSeconds ≤ marker.expiresAt) :
      Protected cutoff deadline now ⟨none, some marker⟩
  | late {v : OrderView} (hlate : TooLate cutoff deadline now) : Protected cutoff deadline now v

variable {cutoff : Nat}

theorem TooLate.mono (h : TooLate cutoff deadline now) (hle : now ≤ now') :
    TooLate cutoff deadline now' := by
  rcases h with h | h | ⟨d, hd, hpassed⟩
  · exact Or.inl h
  · exact Or.inr (Or.inl (h.trans hle))
  · exact Or.inr (Or.inr ⟨d, hd, hpassed.trans hle⟩)

theorem Protected.mono (h : Protected cutoff deadline now v) (hle : now ≤ now') :
    Protected cutoff deadline now' v := by
  cases h with
  | row hrow hobserved hgrace => exact .row hrow hobserved (hgrace.imp_left (·.trans hle))
  | marker hmarker hfallback => exact .marker hmarker hfallback
  | late hlate => exact .late (hlate.mono hle)

theorem protected_keptMarker (hsource : SourceMarker next)
    (hfallback : next.validUntil = none → cutoff + unknownOrderLifetimeSeconds ≤ next.expiresAt)
    (hdeadline : ∀ d, next.validUntil = some d → deadline = some d) :
    Protected cutoff deadline now ⟨none, keptMarker next now⟩ := by
  rw [keptMarker]
  split
  · next hexpired =>
    refine .late ?_
    cases hv : next.validUntil with
    | none => exact Or.inr (Or.inl ((hfallback hv).trans hexpired))
    | some d =>
      have := (hsource.deadline d hv).1
      exact Or.inr (Or.inr ⟨d, hdeadline d hv, by omega⟩)
  · exact .marker hsource hfallback

theorem tooLate_of_expired (hsource : SourceMarker marker) (hfallback : marker.validUntil = none →
      cutoff + unknownOrderLifetimeSeconds ≤ marker.expiresAt)
    (hdeadline : ∀ d, marker.validUntil = some d → deadline = some d)
    (hexpired : marker.expiresAt ≤ now) : TooLate cutoff deadline now := by
  cases hv : marker.validUntil with
  | none => exact Or.inr (Or.inl ((hfallback hv).trans hexpired))
  | some d =>
    have := (hsource.deadline d hv).1
    exact Or.inr (Or.inr ⟨d, hdeadline d hv, by omega⟩)

theorem Protected.merge (hmarker : SourceMarker marker) (hfallback : marker.validUntil = none →
      cutoff + unknownOrderLifetimeSeconds ≤ marker.expiresAt)
    (h : OneDeadline deadline ⟨none, some marker⟩)
    (htold : SaysDeadline deadline observation.validUntil) :
    Protected cutoff deadline now
      ⟨none, keptMarker (mergeOrderRetirement (some marker) observation now) now⟩ := by
  refine protected_keptMarker (sourceMarker_merge (merge_reason_of_previous hmarker.reason)) ?_ ?_
  · intro hnone
    rcases hmarker.merge_expiry with ⟨-, hundated, hsame⟩ | ⟨v, hv, -⟩
    · rw [hsame]
      exact hfallback hundated
    · rw [hnone] at hv
      cases hv
  · intro d hd
    obtain ⟨hfrom | hfrom, hknown⟩ := merge_validUntil_eq_some hd
    · exact h.marker marker d rfl hfrom
    · exact htold.known hfrom (knownOrderExpiry_eq_some hknown).2

theorem Protected.move (htold : SaysDeadline deadline (e.carries id))
    (hcutoff : cutoff ≤ now + orderReorgGraceSeconds)
    (hone : OneDeadline deadline v) (h : Protected cutoff deadline now v)
    (hmove : OrderMove id now e v v') : Protected cutoff deadline now v' := by
  cases h with
  | late hlate => exact .late hlate
  | row hrow hobserved hgrace =>
    cases hmove with
    | learned _ =>
      rw [MarketOrderRow.rememberExpiry]
      split
      · exact .row hrow hobserved hgrace
      · exact .row hrow hobserved hgrace
    | rewritten _ hsource _ hobs hupdated =>
      refine .row (hsource.trans hrow) (hobs ▸ hobserved) ?_
      rcases hupdated with hsame | hnow
      · rw [hsame]
        exact hgrace
      · rw [hnow]
        exact Or.inr hcutoff
    | deactivated hactive => simp [hrow] at hactive
    | observed _ hcancelled => exact absurd hrow hcancelled
    | upserted _ _ _ hterminal => exact absurd hrow (hterminal _ rfl)
    | retired _ hdeadline hsource hchanged hlast hreason =>
      have hundated := hone.row _ rfl
      cases cancelledRowOver (hsource.trans hrow) hreason with
      | expired hd hpassed =>
        rw [hdeadline] at hd
        rw [hd] at hundated
        refine .late (Or.inr (Or.inr ⟨_, ?_, hpassed⟩))
        exact (hundated.resolve_left (by simp)).symm
      | stale _ hunobserved =>
        refine .late (Or.inr (Or.inl ?_))
        have hle := hobserved.trans ((MarketOrderRow.observedAt_le_lastObserved _).trans hlast)
        exact (Nat.add_le_add_right hle _).trans hunobserved
      | terminal hgraceOver _ =>
        simp only [hrow, decide_true, Bool.true_or, if_true]
        have hover : cutoff ≤ now := by
          rw [hchanged] at hgraceOver
          omega
        refine protected_keptMarker (sourceMarker_merge (merge_reason_of_observation rfl)) ?_ ?_
        · intro hnone
          rw [merge_expiresAt (merge_reason_of_observation rfl), hnone]
          exact Nat.add_le_add_right hover _
        intro d hd
        obtain ⟨hfrom | hfrom, -⟩ := merge_validUntil_eq_some hd
        · cases hfrom
        · have hrowDeadline := hdeadline.symm.trans hfrom
          rw [hrowDeadline] at hundated
          exact (hundated.resolve_left (by simp)).symm
    | orphaned hcancelled => exact absurd hrow hcancelled
  | marker hmarker hfallback =>
    have hknows : ∀ d, _ → deadline = some d := fun d hd => hone.marker _ d rfl hd
    cases hmove with
    | marked => exact Protected.merge hmarker hfallback hone htold
    | fenced => exact Protected.merge hmarker hfallback hone htold
    | upserted _ _ _ _ hfence =>
      rcases hfence _ rfl with hexpired | hreversible
      · exact .late (tooLate_of_expired hmarker hfallback hknows hexpired)
      · simp [isTerminalRetirement, hmarker.reason] at hreversible
    | swept hexpired => exact .late (tooLate_of_expired hmarker hfallback hknows hexpired)
    | invalidated hchain =>
      rw [hmarker.reason] at hchain
      cases hchain

/-- An upsert that was observed up to the cutoff: with the order's deadline, or without one while
that has not passed. -/
structure OldUpsert (cutoff : Nat) (deadline : Option Nat) (now : Nat)
    (payload : OrderUpsertPayload) : Prop where
  observedAt : payload.observedAt.getD now ≤ cutoff
  validUntil : SaysDeadline deadline payload.validUntil
  undated : payload.validUntil = none → ∀ d, deadline = some d → now < d

theorem OldUpsert.not_admitted {payload : OrderUpsertPayload}
    (h : OldUpsert cutoff deadline now payload) (hlate : TooLate cutoff deadline now) :
    admitsOrderObservation payload.validUntil (payload.observedAt.getD now) now = false := by
  by_contra hadmitted
  rw [Bool.not_eq_false] at hadmitted
  simp only [admitsOrderObservation, Bool.and_eq_true, decide_eq_true_eq, Option.all_eq_true]
    at hadmitted
  obtain ⟨⟨⟨⟨hopen, -⟩, hpos⟩, hfresh⟩, -⟩ := hadmitted
  have hobserved := h.observedAt
  rcases hlate with hzero | hlate | ⟨d, hd, hpassed⟩
  · omega
  · omega
  rcases h.validUntil with htold | htold | htold
  · exact absurd (h.undated htold d hd) (Nat.not_lt.mpr hpassed)
  · have := hopen d (htold.trans hd)
    omega
  · have := hopen 0 htold
    omega

theorem Protected.upsert {raw : Bool} {payload : OrderUpsertPayload}
    (hevent : e = .upsert raw payload) (hold : OldUpsert cutoff deadline now payload)
    (hone : OneDeadline deadline v) (h : Protected cutoff deadline now v)
    (hinactive : v.isActive = false) (hmove : OrderMove id now e v v') : v'.isActive = false := by
  cases hmove with
  | learned _ =>
    simpa [OrderView.isActive, MarketOrderRow.sourceStatus_rememberExpiry] using hinactive
  | rewritten _ hsource => simpa [OrderView.isActive, hsource] using hinactive
  | deactivated hactive => simp [OrderView.isActive, hactive] at hinactive
  | observed hobserve =>
    rw [hevent] at hobserve
    cases hobserve
  | marked => rfl
  | fenced => exact hinactive
  | upserted hevent' _ hadmitted hterminal hfence =>
    rw [hevent] at hevent'
    cases hevent'
    have hlate : TooLate cutoff deadline now := by
      cases h with
      | row hrow => exact absurd hrow (hterminal _ rfl)
      | marker hmarker hfallback =>
        rcases hfence _ rfl with hexpired | hreversible
        · exact tooLate_of_expired hmarker hfallback (fun d hd => hone.marker _ d rfl hd) hexpired
        · simp [isTerminalRetirement, hmarker.reason] at hreversible
      | late hlate => exact hlate
    rw [hold.not_admitted hlate] at hadmitted
    cases hadmitted
  | retired => rfl
  | swept => exact hinactive
  | orphaned => rfl
  | invalidated => exact hinactive

end Invariants

/-! ## 9. Runs -/

theorem run_keep {P : OrderView → Prop} :
    ∀ (events : List (Nat × OrderEvent)) {s : BookState},
      (∀ e ∈ events, ∀ {now v v'}, P v → OrderMove id now e.2 v v' → P v') → P (s.book.view id) →
      P ((s.run events).book.view id)
  | [], _, _, h => h
  | e :: rest, s, hP, h => by
    refine run_keep rest (s := s.step e) (fun e' he' => hP e' (List.mem_cons_of_mem _ he')) ?_
    exact moves_apply.keep (hP e List.mem_cons_self) h

theorem exclusive_run (events : List (Nat × OrderEvent))
    (h : (s.book.view id).Exclusive) : ((s.run events).book.view id).Exclusive :=
  run_keep events (fun _ _ _ _ _ h hmove => h.move hmove) h

theorem oneDeadline_run (events : List (Nat × OrderEvent))
    (htold : ∀ e ∈ events, SaysDeadline deadline (e.2.carries id))
    (h : OneDeadline deadline (s.book.view id)) :
    OneDeadline deadline ((s.run events).book.view id) :=
  run_keep events (fun e he _ _ _ h hmove => h.move (htold e he) hmove) h

theorem now_le_run : ∀ (events : List (Nat × OrderEvent)) (s : BookState), s.now ≤ (s.run events).now
  | [], _ => Nat.le_refl _
  | e :: rest, s => (Nat.le_add_right s.now e.1).trans (now_le_run rest (s.step e))

theorem protected_run {cutoff : Nat} :
    ∀ (events : List (Nat × OrderEvent)) {s : BookState},
      (∀ e ∈ events, SaysDeadline deadline (e.2.carries id)) →
      cutoff ≤ s.now + orderReorgGraceSeconds → OneDeadline deadline (s.book.view id) →
      Protected cutoff deadline s.now (s.book.view id) →
      Protected cutoff deadline (s.run events).now ((s.run events).book.view id)
  | [], _, _, _, _, h => h
  | e :: rest, s, htold, hcutoff, hone, h => by
    have hle : s.now ≤ (s.step e).now := Nat.le_add_right _ _
    have hlater : cutoff ≤ (s.step e).now + orderReorgGraceSeconds :=
      hcutoff.trans (Nat.add_le_add_right hle _)
    have hsaid := htold e List.mem_cons_self
    -- both invariants move together
    have hboth : OneDeadline deadline ((s.step e).book.view id) ∧
        Protected cutoff deadline (s.step e).now ((s.step e).book.view id) :=
      moves_apply.keep (P := fun v => OneDeadline deadline v ∧ Protected cutoff deadline (s.step e).now v)
        (fun h hmove => ⟨h.1.move hsaid hmove, h.2.move hsaid hlater h.1 hmove⟩)
        ⟨hone, h.mono hle⟩
    exact protected_run rest (fun e' he' => htold e' (List.mem_cons_of_mem _ he')) hlater hboth.1 hboth.2

/-- No event of the run finds the evidence lapsed. -/
def BookState.NeverLapses (id : OrderId) : BookState → List (Nat × OrderEvent) → Prop
  | _, [] => True
  | s, e :: rest =>
    (s.book.view id).lapses e.2 id (s.now + e.1) = false ∧ (s.step e).NeverLapses id rest

theorem kept_run : ∀ (events : List (Nat × OrderEvent)) {s : BookState},
    s.NeverLapses id events → Kept (s.book.view id) → Kept ((s.run events).book.view id)
  | [], _, _, h => h
  | e :: rest, s, hlapses, h => by
    refine kept_run rest hlapses.2 ?_
    exact (moves_apply.keep (fun h hmove => Kept.move h hmove) ⟨h, hlapses.1⟩ :
      Kept ((s.step e).book.view id) ∧ _).1

/-! ## 10. The cancellation -/

/-- A source cancellation of the order that is processed: its observation time is accepted, and the
collection is known. -/
structure Cancels (book : OrderBook) (payload : OrderSourceUpdate) (now : Nat) : Prop where
  status : payload.sourceStatus = .cancelled
  accepted : acceptsSourceObservation (payload.observedAt.getD now) now = true
  collection : ∃ c, (((book.orders.get? payload.orderId).map (·.collectionId)) <|>
    payload.collectionId) = some c ∧ book.collections.has c = true

/-- The row that a cancellation leaves. -/
def MarketOrderRow.cancelled (row : MarketOrderRow) (payload : OrderSourceUpdate) (now : Nat) :
    MarketOrderRow :=
  if row.sourceStatus = .cancelled then row.rememberExpiry payload.validUntil
  else (row.rememberExpiry payload.validUntil).observe .cancelled (payload.observedAt.getD now) now

theorem view_cancellation (h : Cancels book payload now) :
    (book.applySourceObservation payload now).view payload.orderId =
      match book.orders.get? payload.orderId with
      | none => ⟨none, keptMarker (mergeOrderRetirement (book.retirement? payload.orderId)
          ⟨.sourceCancelled, payload.observedAt.getD now, payload.validUntil⟩ now) now⟩
      | some row => ⟨some (row.cancelled payload now), book.retirement? payload.orderId⟩ := by
  obtain ⟨c, hc, hhas⟩ := h.collection
  simp only [OrderBook.applySourceObservation, h.accepted, hc, hhas, h.status]
  cases hrow : book.orders.get? payload.orderId with
  | none =>
    simp only [isTerminalSourceStatus, observedRetirementReason, decide_true, Bool.or_true,
      Bool.true_or, if_true, Bool.true_eq_false, if_false]
    rw [view_record, hrow]
  | some row =>
    have hview : (book.rememberOrderExpiry payload.orderId payload.validUntil).view payload.orderId =
        ⟨some (row.rememberExpiry payload.validUntil), book.retirement? payload.orderId⟩ := by
      rw [view_rememberOrderExpiry, hrow, Option.map_some]
    simp only [MarketOrderRow.cancelled]
    by_cases hcancelled : row.sourceStatus = .cancelled
    · simp [hcancelled, hview]
    simp only [Bool.true_eq_false, if_false, hcancelled, decide_false, ne_eq, not_true_eq_false,
      Bool.false_and, Bool.or_self, Bool.false_eq_true, isTerminalSourceStatus, reduceCtorEq,
      decide_true, Bool.or_true]
    rw [view_updateOrder]
    rw [OrderBook.view, OrderView.mk.injEq] at hview
    rw [hview.1, hview.2, Option.map_some]

theorem MarketOrderRow.sourceStatus_cancelled (row : MarketOrderRow) (payload : OrderSourceUpdate)
    (now : Nat) : (row.cancelled payload now).sourceStatus = .cancelled := by
  rw [cancelled]
  split
  · next h => rw [sourceStatus_rememberExpiry, h]
  rw [observe]
  split
  · rfl
  · next h =>
    push Not at h
    exact h.1

theorem MarketOrderRow.cancelled_times (row : MarketOrderRow) (hnew : row.sourceStatus ≠ .cancelled)
    (payload : OrderSourceUpdate) (now : Nat) :
    payload.observedAt.getD now ≤ (row.cancelled payload now).observedAt ∧
      (row.cancelled payload now).updatedAt = now := by
  have hchanges : (row.rememberExpiry payload.validUntil).sourceStatus ≠ .cancelled := by
    rw [sourceStatus_rememberExpiry]
    exact hnew
  rw [cancelled, if_neg hnew, observe, if_pos (Or.inl hchanges)]
  exact ⟨Nat.le_max_right _ _, if_pos hchanges⟩

/-- The observation time up to which upserts stay out for good: that of the cancellation, unless the
order has no row, or was terminal before.  Then the marker is counted from the processing of the
first terminal evidence, and a row that was cancelled already is not observed again. -/
def OrderBook.replayCutoff (book : OrderBook) (payload : OrderSourceUpdate) (now : Nat) : Nat :=
  let observedAt := payload.observedAt.getD now
  match book.orders.get? payload.orderId with
  | some row =>
    if row.sourceStatus = .cancelled then min observedAt (min now row.observedAt) else observedAt
  | none =>
    match terminalMarker (book.retirement? payload.orderId) with
    | some marker => min observedAt (marker.expiresAt - unknownOrderLifetimeSeconds)
    | none => min observedAt now

theorem replayCutoff_le : book.replayCutoff payload now ≤ payload.observedAt.getD now := by
  simp only [OrderBook.replayCutoff]
  split
  · split
    · exact Nat.min_le_left _ _
    · exact Nat.le_refl _
  · split
    · exact Nat.min_le_left _ _
    · exact Nat.min_le_left _ _

theorem Cancels.replayCutoff_le (h : Cancels book payload now) :
    book.replayCutoff payload now ≤ now + futureEventToleranceSeconds := by
  have haccepted := h.accepted
  simp only [acceptsSourceObservation, Bool.and_eq_true, decide_eq_true_eq] at haccepted
  exact Indexer.replayCutoff_le.trans haccepted.2

theorem kept_cancellation
    (h : Cancels book payload now) (hexclusive : (book.view payload.orderId).Exclusive) :
    Kept ((book.applySourceObservation payload now).view payload.orderId) ∨
      book.orders.get? payload.orderId = none ∧ (mergeOrderRetirement (book.retirement? payload.orderId)
          ⟨.sourceCancelled, payload.observedAt.getD now, payload.validUntil⟩ now).expiresAt ≤ now ∧
        (book.applySourceObservation payload now).view payload.orderId = ⟨none, none⟩ := by
  rw [view_cancellation h]
  cases hrow : book.orders.get? payload.orderId with
  | none =>
    simp only [keptMarker]
    split
    · next hexpired => exact Or.inr ⟨trivial, hexpired, rfl⟩
    · exact Or.inl (.marker (sourceMarker_merge (merge_reason_of_observation rfl)))
  | some row =>
    have hnone : book.retirement? payload.orderId = none :=
      hexclusive.resolve_left (by simp [OrderBook.view, hrow])
    rw [hnone]
    exact Or.inl (.row (row.sourceStatus_cancelled payload now))

theorem protected_cancellation (h : Cancels book payload now)
    (hexclusive : (book.view payload.orderId).Exclusive)
    (hone : OneDeadline deadline (book.view payload.orderId))
    (htold : SaysDeadline deadline payload.validUntil) :
    Protected (book.replayCutoff payload now) deadline now
      ((book.applySourceObservation payload now).view payload.orderId) := by
  rw [view_cancellation h]
  cases hrow : book.orders.get? payload.orderId with
  | none =>
    by_cases hzero : book.replayCutoff payload now = 0
    · exact .late (Or.inl hzero)
    have hreason : (mergeOrderRetirement (book.retirement? payload.orderId)
        ⟨.sourceCancelled, payload.observedAt.getD now, payload.validUntil⟩ now).reason =
        .sourceCancelled := merge_reason_of_observation rfl
    refine protected_keptMarker (sourceMarker_merge hreason) ?_ ?_
    · intro hundated
      rw [merge_expiresAt hreason, hundated]
      simp only [OrderBook.replayCutoff, hrow] at hzero ⊢
      cases hterminal : terminalMarker (book.retirement? payload.orderId) with
      | none =>
        simp only [Option.map_none, Option.getD_none]
        exact Nat.add_le_add_right (Nat.min_le_right _ _) _
      | some marker =>
        simp only [hterminal, Option.map_some, Option.getD_some] at hzero ⊢
        omega
    · intro d hd
      obtain ⟨hfrom | hfrom, hknown⟩ := merge_validUntil_eq_some hd
      · cases hm : book.retirement? payload.orderId with
        | none =>
          rw [hm] at hfrom
          cases hfrom
        | some marker =>
          rw [hm] at hfrom
          exact hone.marker marker d hm hfrom
      · exact htold.known hfrom (knownOrderExpiry_eq_some hknown).2
  | some row =>
    have hnone : book.retirement? payload.orderId = none :=
      hexclusive.resolve_left (by simp [OrderBook.view, hrow])
    have hcutoff := h.replayCutoff_le
    simp only [hnone]
    by_cases hcancelled : row.sourceStatus = .cancelled
    · have hsame : (row.cancelled payload now).observedAt = row.observedAt := by
        rw [MarketOrderRow.cancelled, if_pos hcancelled, MarketOrderRow.observedAt_rememberExpiry]
      have hmin : book.replayCutoff payload now =
          min (payload.observedAt.getD now) (min now row.observedAt) := by
        simp only [OrderBook.replayCutoff, hrow, if_pos hcancelled]
      refine .row (row.sourceStatus_cancelled payload now) ?_ (Or.inl ?_)
      · rw [hsame, hmin]
        exact (Nat.min_le_right _ _).trans (Nat.min_le_right _ _)
      · rw [hmin]
        exact (Nat.min_le_right _ _).trans (Nat.min_le_left _ _)
    · obtain ⟨hobserved, hupdated⟩ := row.cancelled_times hcancelled payload now
      refine .row (row.sourceStatus_cancelled payload now) (replayCutoff_le.trans hobserved) (Or.inr ?_)
      rw [hupdated]
      exact hcutoff.trans (Nat.add_le_add_left (by decide) _)

/-! ## 11. Rollbacks -/

theorem Kept.sourceCancelled (h : Kept v) : v.sourceCancelled = true := by
  cases h with
  | row hrow => simp [OrderView.sourceCancelled, hrow]
  | marker hmarker => simp [OrderView.sourceCancelled, hmarker.reason]

theorem Kept.not_active (h : Kept v) : v.isActive = false := by
  cases h with
  | row hrow => simp [OrderView.isActive, hrow]
  | marker hmarker => rfl

/-- **A rollback keeps the evidence of every source cancellation.** -/
theorem sourceCancelled_rollbackFromBlock {fromBlock : Nat}
    {reversed : List TransferRow} (h : (book.view id).sourceCancelled = true) :
    ((book.rollbackFromBlock fromBlock reversed now).view id).sourceCancelled = true := by
  have hreset : ∀ (rows : List TransferRow) (b : OrderBook), (b.view id).sourceCancelled = true →
      ((rows.foldl (OrderBook.resetOrderFromTransfer now) b).view id).sourceCancelled = true := by
    intro rows
    induction rows with
    | nil => exact fun _ hb => hb
    | cons r rest ih =>
      intro b hb
      refine ih _ ?_
      rw [OrderBook.resetOrderFromTransfer]
      split
      · exact hb
      rw [view_updateOrders]
      simp only [OrderView.sourceCancelled, OrderBook.view, Bool.or_eq_true] at hb ⊢
      refine hb.imp_left (fun hrow => ?_)
      cases hget : b.orders.get? id with
      | none => simp [hget] at hrow
      | some o =>
        rw [hget, Option.any_some] at hrow
        rw [Option.map_some, Option.any_some]
        split
        · exact hrow
        · exact hrow
  have hstart := hreset reversed book h
  rw [OrderBook.rollbackFromBlock]
  generalize reversed.foldl (OrderBook.resetOrderFromTransfer now) book = reset at hstart ⊢
  simp only [OrderView.sourceCancelled, OrderBook.view, OrderBook.retirement?, Bool.or_eq_true,
    OrderBook.invalidateFromBlock, OrderBook.deleteOrdersFromBlock, Table.get?_deleteWhere]
    at hstart ⊢
  rcases hstart with hrow | hmarker
  · left
    cases hget : reset.orders.get? id with
    | none => simp [hget] at hrow
    | some o =>
      have hcancelled : o.sourceStatus = .cancelled := by simpa [hget] using hrow
      simp [isOrphanOrder, hcancelled]
  · right
    cases hget : reset.retirements.get? id with
    | none => simp [hget] at hmarker
    | some m =>
      have hreason : m.retirement.reason = .sourceCancelled := by simpa [hget] using hmarker
      simp [Option.filter_some, hreason]

/-! ## 12. The promise -/

/-- **A source cancellation, over whole runs.**  Take any run of the order book, a source
cancellation that is processed then, and any events after it.

* The cancellation leaves a cancelled row or a marker, unless the marker would have expired already.
* While the evidence does not lapse, it is there, and the order is not active.
* An upsert observed up to the cutoff does not make the order active at any later time, if messages
  about the order agree on its deadline, and one without a deadline comes before it.
* A rollback at any time keeps the evidence. -/
theorem source_cancellation_definitive (collections : Table CollectionRecord.id) (start : Nat)
    (history : List (Nat × OrderEvent)) (delay : Nat) (cancellation : OrderSourceUpdate)
    (later : List (Nat × OrderEvent)) {before after : BookState}
    (hbefore : before = BookState.run ⟨.fresh collections, start⟩ history)
    (hcancels : Cancels before.book cancellation (before.now + delay))
    (hafter : after = before.step (delay, .observe cancellation)) :
    ((after.book.view cancellation.orderId).sourceCancelled = true ∨
      (mergeOrderRetirement (before.book.retirement? cancellation.orderId)
        ⟨.sourceCancelled, cancellation.observedAt.getD after.now, cancellation.validUntil⟩
        after.now).expiresAt ≤ after.now) ∧
    ((after.book.view cancellation.orderId).sourceCancelled = true →
      after.NeverLapses cancellation.orderId later →
      ((after.run later).book.view cancellation.orderId).sourceCancelled = true ∧
        ((after.run later).book.view cancellation.orderId).isActive = false) ∧
    (∀ deadline, (∀ e ∈ history ++ (delay, .observe cancellation) :: later,
        SaysDeadline deadline (e.2.carries cancellation.orderId)) →
      ∀ (wait : Nat) (raw : Bool) (upsert : OrderUpsertPayload), upsert.orderId = cancellation.orderId →
        OldUpsert (before.book.replayCutoff cancellation after.now) deadline
          ((after.run later).now + wait) upsert →
        ((after.run later).book.view cancellation.orderId).isActive = false →
        (((after.run later).step (wait, .upsert raw upsert)).book.view
          cancellation.orderId).isActive = false) ∧
    ∀ (wait fromBlock : Nat) (reversed : List TransferRow),
      ((after.run later).book.view cancellation.orderId).sourceCancelled = true →
      (((after.run later).step (wait, .rollback fromBlock reversed)).book.view
        cancellation.orderId).sourceCancelled = true := by
  have hexclusive : (before.book.view cancellation.orderId).Exclusive := by
    rw [hbefore]
    exact exclusive_run history (Or.inl rfl)
  have hnow : after.now = before.now + delay := by rw [hafter, BookState.step]
  have hbook : after.book = before.book.applySourceObservation cancellation after.now := by
    rw [hnow, hafter]
    rfl
  rw [← hnow] at hcancels
  refine ⟨?_, ?_, ?_, ?_⟩
  · rw [hbook]
    exact (kept_cancellation hcancels hexclusive).imp Kept.sourceCancelled (fun h => h.2.1)
  · intro hevidence hlapses
    have hkept : Kept (after.book.view cancellation.orderId) := by
      rw [hbook] at hevidence ⊢
      refine (kept_cancellation hcancels hexclusive).resolve_right (fun h => ?_)
      rw [h.2.2] at hevidence
      cases hevidence
    have hend := kept_run later hlapses hkept
    exact ⟨hend.sourceCancelled, hend.not_active⟩
  · intro deadline htold wait raw upsert hid hold hinactive
    have hsaysHistory : ∀ e ∈ history, SaysDeadline deadline (e.2.carries cancellation.orderId) :=
      fun e he => htold e (List.mem_append_left _ he)
    have hsaysLater : ∀ e ∈ later, SaysDeadline deadline (e.2.carries cancellation.orderId) :=
      fun e he => htold e (List.mem_append_right _ (List.mem_cons_of_mem _ he))
    have hsaysCancellation : SaysDeadline deadline cancellation.validUntil := by
      have := htold (delay, .observe cancellation) (List.mem_append_right _ List.mem_cons_self)
      simpa only [OrderEvent.carries, if_pos] using this
    have honeBefore : OneDeadline deadline (before.book.view cancellation.orderId) := by
      rw [hbefore]
      exact oneDeadline_run history hsaysHistory ⟨fun _ h => (by cases h), fun _ _ h => (by cases h)⟩
    have hprotected : Protected (before.book.replayCutoff cancellation after.now) deadline after.now
        (after.book.view cancellation.orderId) := by
      rw [hbook]
      exact protected_cancellation hcancels hexclusive honeBefore hsaysCancellation
    have hone : OneDeadline deadline (after.book.view cancellation.orderId) := by
      rw [hafter]
      exact oneDeadline_run [(delay, .observe cancellation)] (fun e he => by
          rw [List.mem_singleton.mp he]
          exact htold _ (List.mem_append_right _ List.mem_cons_self)) honeBefore
    have hcutoff : before.book.replayCutoff cancellation after.now ≤ after.now + orderReorgGraceSeconds :=
      hcancels.replayCutoff_le.trans (Nat.add_le_add_left (by decide) _)
    have hprotectedLater := protected_run later hsaysLater hcutoff hone hprotected
    have honeLater := oneDeadline_run later hsaysLater hone
    have hle : after.now ≤ (after.run later).now + wait :=
      (now_le_run later after).trans (Nat.le_add_right _ _)
    have hsaysUpsert : SaysDeadline deadline
        ((OrderEvent.upsert raw upsert).carries cancellation.orderId) := by
      simpa only [OrderEvent.carries, if_pos hid] using hold.validUntil
    exact (moves_apply.keep (P := fun v => OneDeadline deadline v ∧
        Protected (before.book.replayCutoff cancellation after.now) deadline
          ((after.run later).now + wait) v ∧ v.isActive = false)
      (fun h hmove => ⟨h.1.move hsaysUpsert hmove,
        h.2.1.move hsaysUpsert (hcutoff.trans (Nat.add_le_add_right hle _)) h.1 hmove,
        h.2.1.upsert rfl hold h.1 h.2.2 hmove⟩)
      ⟨honeLater, hprotectedLater.mono (Nat.le_add_right _ _), hinactive⟩).2.2
  · intro wait fromBlock reversed hevidence
    exact sourceCancelled_rollbackFromBlock hevidence

/-- An undated upsert of order `o`, observed at the given time. -/
def undatedUpsert (observedAt : Nat) : OrderUpsertPayload where
  orderId := "o"
  collectionId := 1
  observedAt := some observedAt
  kind := "seaport"
  side := .sell
  maker := 7
  taker := none
  contract := 9
  tokenId := some "1"
  sourceScopeKind := some .token
  sourceCriteriaRoot := none
  sourceEncodedTokenIds := none
  sourceSchema := none
  localTokenSetStatus := none
  tokenSetId := none
  tokenSetSchemaHash := none
  quantity := none
  price := some "1"
  currency := none
  validFrom := none
  validUntil := none
  source := "opensea"
  sourceStatus := some .active
  rawSourceKind := some .stream
  rawPayload := none
  seaportData := none

/-- A cancellation of order `o` without a deadline. -/
def undatedCancellation (observedAt : Nat) : OrderSourceUpdate :=
  ⟨"o", some 1, some observedAt, none, .cancelled⟩

def oneCollection : Table CollectionRecord.id :=
  Table.empty.insertOrIgnore ⟨1, 9, .erc721, .live, none⟩

/-- A day after a cancellation that came before its order, the marker is gone; the create that it
cancelled arrives and is rejected for its age. -/
theorem source_cancellation_definitive_delayedCreate : ((BookState.run ⟨.fresh oneCollection, 1000000⟩
      [(0, .observe (undatedCancellation 1000000)), (86400, .maintain [] ["o"]),
        (10, .upsert false (undatedUpsert 1000000))]).book.view "o").isActive = false :=
  (source_cancellation_definitive oneCollection 1000000 [] 0 (undatedCancellation 1000000)
    [(86400, .maintain [] ["o"])] rfl ⟨rfl, by decide, 1, by decide, by decide⟩ rfl).2.2.1 none
    (by
      intro e he
      simp only [List.nil_append, List.mem_cons, List.not_mem_nil, or_false] at he
      rcases he with rfl | rfl
      · exact Or.inl rfl
      · exact Or.inl rfl)
    10 false (undatedUpsert 1000000) rfl
    ⟨by decide, Or.inl rfl, fun _ _ h => (by cases h)⟩ (by decide)

/-- How an order comes back although each upsert below was observed no later than its cancellation,
or before any marker of it has expired.

* The cancellation of an unknown order is observed five minutes in the future, which is accepted.
  Its marker lasts a day from now; then an upsert of the same instant is still admitted.
* A second cancellation does not extend the marker of the first, which expires before upserts that
  are older than the second are too old.
* The deadline of the order passes, its cancelled row is deleted without a marker, and an upsert
  that lacks the deadline arrives.
* A cancelled row without a deadline was not observed for a day, and is deleted without a marker
  within the hour in which it changed. -/
theorem cancellation_forgotten : (acceptsSourceObservation 1000300 1000000 = true ∧
      ((BookState.run ⟨.fresh oneCollection, 1000000⟩
        [(0, .observe (undatedCancellation 1000300))]).book.view "o").sourceCancelled = true ∧
      ((BookState.run ⟨.fresh oneCollection, 1000000⟩ [(0, .observe (undatedCancellation 1000300)),
          (86400, .upsert false (undatedUpsert 1000300))]).book.view "o").isActive = true) ∧
    ((BookState.run ⟨.fresh oneCollection, 1000000⟩
      [(0, .observe (undatedCancellation 1000000)), (86000, .observe (undatedCancellation 1086000)),
        (400, .upsert false (undatedUpsert 1085000))]).book.view "o").isActive = true ∧
    ((BookState.run ⟨.fresh oneCollection, 1000000⟩
      [(0, .upsert false { undatedUpsert 1000000 with validUntil := some 1000100 }),
        (10, .observe (undatedCancellation 1000010)), (90, .maintain ["o"] []),
        (1, .upsert false (undatedUpsert 1000005))]).book.view "o").isActive = true ∧
    ((BookState.run ⟨.fresh oneCollection, 1000000⟩
      [(0, .upsert false (undatedUpsert 1000000)), (86300, .observe (undatedCancellation 1000010)),
        (110, .maintain ["o"] []), (1, .upsert false (undatedUpsert 1086411))]).book.view
          "o").isActive = true := by
  decide

end Artgod.Indexer
