/-
# No validation demand is lost

Executors claim due rows, read chain snapshots outside any transaction, and complete, release or fail what they
claimed, while requests arrive and the chain is rolled back.  A world keeps beside the database the claims that
were handed out, the lease owners in use and the outstanding requests; `DemandInv` ties them to the rows.
-/
import Artgod.Indexer.Demand

namespace Artgod.Indexer

open Store

/-! ## 1. Claims -/

/-- What `claimBatch` does to the demand of one order. -/
inductive ClaimEffect (owner : String) (now nowSeconds : Nat)
    (claims : List ClaimedOrderValidation) (db db' : Db) (id : OrderId) : Prop
  | same (hrow' : db'.demands.get? id = db.demands.get? id)
      (hclaims : ∀ claim ∈ claims, claim.demand.orderId ≠ id)
  | unneeded {row : DemandRow} (hrow : db.demands.get? id = some row)
      (hcandidate : validationCandidate db id row.gate nowSeconds = none)
      (hrow' : db'.demands.get? id = some (row.unneeded now))
      (hclaims : ∀ claim ∈ claims, claim.demand.orderId ≠ id)
  | claimed {row : DemandRow} {candidate : OrderValidationCandidate}
      (hrow : db.demands.get? id = some row)
      (hrow' : db'.demands.get? id = some (row.claimed candidate.revision owner now))
      (hclaims : ∀ claim ∈ claims, claim.demand.orderId = id →
        claim = ⟨row.claimed candidate.revision owner now, candidate⟩)

theorem claimRow_effect {owner : String} {now nowSeconds : Nat} {db : Db} {row : DemandRow}
    (hrow : db.demands.get? row.orderId = some row) :
    ClaimEffect owner now nowSeconds (claimRow owner now nowSeconds db row).1.toList db
      (claimRow owner now nowSeconds db row).2 row.orderId := by
  rw [claimRow]
  cases hcandidate : validationCandidate db row.orderId row.gate nowSeconds with
  | none =>
    refine .unneeded hrow hcandidate ?_ (by simp)
    rw [get?_updateDemand_self, hrow]
    rfl
  | some candidate =>
    simp only [get?_updateDemand_self, hrow, Option.map_some]
    refine @ClaimEffect.claimed _ _ _ _ _ _ _ row candidate hrow ?_ ?_
    · rw [get?_updateDemand_self, hrow]
      rfl
    · intro claim hclaim _
      exact List.mem_singleton.mp hclaim

theorem claimRow_frame {owner : String} {now nowSeconds : Nat} (db : Db) (row : DemandRow) :
    (claimRow owner now nowSeconds db row).2 =
        { db with demands := (claimRow owner now nowSeconds db row).2.demands } ∧
      (∀ id ≠ row.orderId,
        (claimRow owner now nowSeconds db row).2.demands.get? id = db.demands.get? id) ∧
      ∀ claim ∈ (claimRow owner now nowSeconds db row).1, claim.demand.orderId = row.orderId := by
  rw [claimRow]
  cases validationCandidate db row.orderId row.gate nowSeconds with
  | none => exact ⟨rfl, fun id hne => get?_updateDemand_of_ne hne, by simp⟩
  | some candidate =>
    refine ⟨rfl, fun id hne => get?_updateDemand_of_ne hne, fun claim hclaim => ?_⟩
    obtain ⟨demand, hdemand, rfl⟩ := Option.map_eq_some_iff.mp hclaim
    exact (Table.get?_eq_some.mp hdemand).2

variable {db db' : Db} {now nowSeconds : Nat} {event : DemandEvent} {afterId id : OrderId}
  {w : DemandWorld} {row : DemandRow} {claims : List ClaimedOrderValidation} {pass : MakerPass}
  {evidence : Option OrderValidationEvidence} {request : OrderValidationRequest} {owner : String}
  {resolutions : List MakerValidationCheckpointEntry}

theorem ClaimEffect.congr {claims' : List ClaimedOrderValidation} {db₁ db₂ : Db}
    (h : ClaimEffect owner now nowSeconds claims db₁ db₂ id)
    (honly : db₁ = { db with demands := db₁.demands })
    (hbefore : db₁.demands.get? id = db.demands.get? id)
    (hafter : db'.demands.get? id = db₂.demands.get? id)
    (hsub : ∀ claim ∈ claims', claim.demand.orderId = id → claim ∈ claims) :
    ClaimEffect owner now nowSeconds claims' db db' id := by
  cases h with
  | same hrow' hclaims =>
    exact .same (hafter.trans (hrow'.trans hbefore))
      (fun claim hmem hid => hclaims claim (hsub claim hmem hid) hid)
  | unneeded hrow hcandidate hrow' hclaims =>
    refine .unneeded (hbefore ▸ hrow) ?_ (hafter.trans hrow')
      (fun claim hmem hid => hclaims claim (hsub claim hmem hid) hid)
    rw [← hcandidate]
    exact (validationCandidate_congr (by rw [honly]) (by rw [honly])).symm
  | claimed hrow hrow' hclaims =>
    exact .claimed (hbefore ▸ hrow) (hafter.trans hrow')
      (fun claim hmem hid => hclaims claim (hsub claim hmem hid) hid)

/-- **Every order of a batch is claimed once**, and the others keep their demand. -/
theorem claimRows_effect {owner : String} {now nowSeconds : Nat} :
    ∀ {rows : List DemandRow} {db : Db}, (rows.map (·.orderId)).Nodup →
      (∀ row ∈ rows, db.demands.get? row.orderId = some row) →
      (claimRows owner now nowSeconds rows db).2 =
          { db with demands := (claimRows owner now nowSeconds rows db).2.demands } ∧
        (∀ claim ∈ (claimRows owner now nowSeconds rows db).1,
          claim.demand.orderId ∈ rows.map (·.orderId)) ∧
        (∀ id ∉ rows.map (·.orderId),
          (claimRows owner now nowSeconds rows db).2.demands.get? id = db.demands.get? id) ∧
        ∀ id, ClaimEffect owner now nowSeconds (claimRows owner now nowSeconds rows db).1 db
          (claimRows owner now nowSeconds rows db).2 id
  | [], db, _, _ =>
    ⟨rfl, by simp [claimRows], fun _ _ => rfl, fun id => .same rfl (by simp [claimRows])⟩
  | row :: rest, db, hnodup, hrows => by
    rw [List.map_cons, List.nodup_cons] at hnodup
    have heffect := @claimRow_effect owner now nowSeconds db row (hrows row (by simp))
    obtain ⟨honly, hframe, hclaim⟩ := @claimRow_frame owner now nowSeconds db row
    simp only [claimRows]
    generalize claimRow owner now nowSeconds db row = step at heffect honly hframe hclaim
    have hrest : ∀ r ∈ rest, step.2.demands.get? r.orderId = some r := by
      intro r hr
      rw [hframe r.orderId (fun heq => hnodup.1 (heq ▸ List.mem_map_of_mem hr))]
      exact hrows r (List.mem_cons_of_mem _ hr)
    obtain ⟨honly', hids, hframe', heffects⟩ :=
      @claimRows_effect owner now nowSeconds rest step.2 hnodup.2 hrest
    generalize claimRows owner now nowSeconds rest step.2 = out at honly' hids hframe' heffects
    refine ⟨by rw [honly', honly], ?_, ?_, ?_⟩
    · intro claim hmem
      rcases List.mem_append.mp hmem with hmem | hmem
      · rw [hclaim claim (Option.mem_toList.mp hmem)]
        exact List.mem_cons_self
      · exact List.mem_cons_of_mem _ (hids claim hmem)
    · intro id hid
      rw [List.map_cons, List.mem_cons, not_or] at hid
      exact (hframe' id hid.2).trans (hframe id hid.1)
    · intro id
      by_cases hid : id = row.orderId
      · -- the rows that follow are of other orders
        subst hid
        refine heffect.congr rfl rfl (hframe' _ hnodup.1) (fun claim hmem heq => ?_)
        rcases List.mem_append.mp hmem with hmem | hmem
        · exact hmem
        · exact absurd (heq ▸ hids claim hmem) hnodup.1
      · refine (heffects id).congr honly (hframe id hid) rfl (fun claim hmem heq => ?_)
        rcases List.mem_append.mp hmem with hmem | hmem
        · exact absurd (heq.symm.trans (hclaim claim (Option.mem_toList.mp hmem))) hid
        · exact hmem

theorem dueRows_sublist (db : Db) (now : Nat) :
    (dueRows db now).Sublist
      ((db.demands.select (fun r => r.pending && r.nextAttemptAt ≤ now && r.leaseUntil ≤
        now)).insertionSort (fun r s => r.duePosition ≤ s.duePosition)) := by
  rw [dueRows]
  split
  · exact List.take_sublist _ _
  · exact (List.take_sublist _ _).trans (List.take_sublist _ _)

theorem dueRows_get? (h : row ∈ dueRows db now) :
    db.demands.get? row.orderId = some row := by
  have hmem := (dueRows_sublist db now).subset h
  rw [List.mem_insertionSort, Table.mem_select] at hmem
  exact Table.get?_of_mem hmem.1

theorem dueRows_nodup (db : Db) (now : Nat) : ((dueRows db now).map (·.orderId)).Nodup := by
  refine ((dueRows_sublist db now).map _).nodup ?_
  refine ((List.perm_insertionSort _ _).map _).nodup_iff.mpr ?_
  exact (List.filter_sublist.map _).nodup db.demands.keyed

theorem claimBatch_effect {batch : OrderValidationClaimBatch}
    (h : Tx.Returns (claimBatch owner now nowSeconds) db batch db') :
    db' = { db with demands := db'.demands } ∧
      ∀ id, ClaimEffect owner now nowSeconds batch.claims db db' id := by
  rw [claimBatch, Tx.returns_writeTransaction, Tx.returns_modifyGet, Prod.mk.injEq] at h
  obtain ⟨rfl, rfl⟩ := h
  obtain ⟨honly, -, -, heffects⟩ := @claimRows_effect owner now nowSeconds (dueRows db now) db
    (dueRows_nodup db now) (fun row hrow => dueRows_get? hrow)
  exact ⟨honly, heffects⟩

/-! ## 2. Interleavings -/

/-- One transaction, of whichever process. -/
inductive DemandEvent where
  | request (request : OrderValidationRequest) (now nowSeconds : Nat)
  | defer (request : OrderValidationRequest) (error : String) (now nowSeconds : Nat)
  | claimBatch (owner : String) (now nowSeconds : Nat)
  | renew (claim : ClaimedOrderValidation) (now : Nat)
  | completeBatch (completions : List OrderValidationCompletion) (proof : OrderValidationEvidence)
      (now nowSeconds : Nat)
  | release (claims : List ClaimedOrderValidation) (now : Nat)
  | fail (claims : List ClaimedOrderValidation) (error : String) (now : Nat)
  /-- A maker checkpoint; it records validations of its own. -/
  | checkpoint (pass : MakerPass) (afterId : OrderId)
      (resolutions : List MakerValidationCheckpointEntry)
      (evidence : Option OrderValidationEvidence) (now nowSeconds : Nat)
  | rollback (plan : ReorgRollbackPlan) (snapshot : Erc721RollbackSnapshot)
  /-- Any other change of orders: new ones, state revisions, retention. -/
  | reviseOrders (orders : Table OrderRow.id)
  /-- A write of anything but orders and demands. -/
  | writeOther (db : Db)

structure DemandWorld where
  db : Db
  claims : List ClaimedOrderValidation
  owners : List String
  outstanding : List OrderValidationRequest

/-- A stored database when nobody works on it yet. -/
def DemandWorld.start (db : Db) : DemandWorld where
  db := db
  claims := []
  owners := db.demands.rows.filterMap (·.leaseOwner)
  outstanding := []

/-- The demand of the order is pending. -/
def Db.isPending (db : Db) (orderId : OrderId) : Bool :=
  (db.demands.get? orderId).any (·.pending)

/-- The world after a transaction; a request leaves `outstanding` when its row is not pending. -/
def DemandWorld.next (w : DemandWorld) (db : Db) (claims : List ClaimedOrderValidation)
    (owners : List String) (reported : List OrderValidationRequest) : DemandWorld where
  db := db
  claims := claims ++ w.claims
  owners := owners ++ w.owners
  outstanding := (reported ++ w.outstanding).filter (fun r => db.isPending r.orderId)

/-- The request, if the transaction reported it pending. -/
def reportedPending (request : OrderValidationRequest) :
    Except SyncError OrderValidationOutcome → List OrderValidationRequest
  | .ok .pending => [request]
  | _ => []

/-- The claims a transaction handed out. -/
def batchClaims : Except SyncError OrderValidationClaimBatch → List ClaimedOrderValidation
  | .ok batch => batch.claims
  | .error _ => []

/-- The requests that a checkpoint handed to demand. -/
def handedToDemand (pass : MakerPass) (resolutions : List MakerValidationCheckpointEntry) :
    Except SyncError (OrderId × Nat) → List OrderValidationRequest
  | .ok (_, handed) =>
    if handed = 0 then []
    else resolutions.filterMap (fun
      | .deferred candidate _ => some (pass.validationRequest candidate.order.id)
      | _ => none)
  | .error _ => []

/-- Orders are replaced, and the demands of deleted ones go with them. -/
def Db.replaceOrders (db : Db) (orders : Table OrderRow.id) : Db :=
  { db with
    orders := orders
    demands := db.demands.deleteWhere (fun d => !orders.has d.orderId) }

/-- The transaction of an event, what it handed out and what it reported.  An owner that is not
fresh and a claim that was never handed out are impossible, and change nothing. -/
def demandStep (w : DemandWorld) : DemandEvent → DemandWorld
  | .request request now nowSeconds =>
    let out := (admitRequest request now nowSeconds).exec w.db
    w.next out.2 [] [] (reportedPending request out.1)
  | .defer request error now nowSeconds =>
    let out := (defer request error now nowSeconds).exec w.db
    w.next out.2 [] [] (reportedPending request out.1)
  | .claimBatch owner now nowSeconds =>
    if owner ∈ w.owners then w
    else
      let out := (claimBatch owner now nowSeconds).exec w.db
      w.next out.2 (batchClaims out.1) [owner] []
  | .renew claim now => w.next ((renew claim now).exec w.db).2 [] [] []
  | .completeBatch completions proof now nowSeconds =>
    if ∀ c ∈ completions, c.claim ∈ w.claims then
      w.next ((completeBatch completions proof now nowSeconds).exec w.db).2 [] [] []
    else w
  | .release claims now => w.next ((release claims now).exec w.db).2 [] [] []
  | .fail claims error now => w.next ((fail claims error now).exec w.db).2 [] [] []
  | .checkpoint pass afterId resolutions evidence now nowSeconds =>
    let out := (Tx.writeTransaction
      (applyCheckpoint pass afterId resolutions evidence now nowSeconds)).exec w.db
    w.next out.2 [] [] (handedToDemand pass resolutions out.1)
  | .rollback plan snapshot => w.next ((rollbackFromBlock plan snapshot).exec w.db).2 [] [] []
  | .reviseOrders orders => w.next (w.db.replaceOrders orders) [] [] []
  | .writeOther db => w.next { db with orders := w.db.orders, demands := w.db.demands } [] [] []

/-- A run: any events in any order. -/
def demandRun (w : DemandWorld) (events : List DemandEvent) : DemandWorld :=
  events.foldl demandStep w

/-! ## 3. What an event does to one order -/

/-- The event brings this validation result for this revision of the order. -/
inductive DemandEvent.Supplies (id : OrderId) (revision : Nat) (status : OrderStatus)
    (proof : OrderValidationEvidence) (nowSeconds : Nat) : DemandEvent → Prop
  | completion {completions : List OrderValidationCompletion} {now : Nat}
      {completion : OrderValidationCompletion} (hmem : completion ∈ completions)
      (hid : completion.claim.demand.orderId = id)
      (hrevision : completion.claim.candidate.revision = revision)
      (hstatus : completion.status = status) :
      Supplies id revision status proof nowSeconds (.completeBatch completions proof now nowSeconds)
  | resolution {pass : MakerPass} {afterId : OrderId}
      {resolutions : List MakerValidationCheckpointEntry} {now : Nat}
      {candidate : MakerValidationCandidate}
      (hmem : .resolved candidate (some status) ∈ resolutions) (hid : candidate.order.id = id)
      (hrevision : candidate.revision = revision) :
      Supplies id revision status proof nowSeconds
        (.checkpoint pass afterId resolutions (some proof) now nowSeconds)

/-- The clock by which the event decides which orders need validation. -/
def DemandEvent.clock : DemandEvent → Option Nat
  | .claimBatch _ _ nowSeconds => some nowSeconds
  | .completeBatch _ _ _ nowSeconds => some nowSeconds
  | _ => none

/-- The event may delete orders. -/
def DemandEvent.deletesOrders : DemandEvent → Bool
  | .rollback _ _ => true
  | .reviseOrders _ => true
  | _ => false

/-- What an event that claims nothing does to the order `id` and its demand. -/
inductive DemandEffect (event : DemandEvent) (db db' : Db) (id : OrderId) : Prop
  | kept (hkeeps : Keeps (db.demands.get? id) (db'.demands.get? id))
  | unneeded {row row' : DemandRow} {nowSeconds : Nat} (hclock : event.clock = some nowSeconds)
      (hrow : db.demands.get? id = some row)
      (hcandidate : validationCandidate db id row.gate nowSeconds = none)
      (hrow' : db'.demands.get? id = some row') (hpending : row'.pending = false)
      (hlease : row'.leaseOwner = none)
  | validated {order : OrderRow} {status : OrderStatus} {proof : OrderValidationEvidence}
      {nowSeconds : Nat}
      (hresult : event.Supplies id order.stateRevision status proof nowSeconds)
      (horder : db.orders.get? id = some order)
      (hchain : db.revision = proof.checkpoint.revision)
      (horder' : db'.orders.get? id = some (order.withValidation status nowSeconds))
      (hlease : ∀ row' ∈ db'.demands.get? id, row'.leaseOwner = none)
      (hrow' : ∀ row ∈ db.demands.get? id, ∃ row' ∈ db'.demands.get? id, row.Requires row' ∧
        (row.pending = true → row'.pending = false →
          validationProofSatisfies proof row.requiredAt row.minimumBlock = true))
  | deleted (hevent : event.deletesOrders = true) (horder' : db'.orders.get? id = none)
      (hrow' : db'.demands.get? id = none)

variable {α : Type} {alone : Bool} {candidate : MakerValidationCandidate} {error : String}
  {row' : DemandRow}

theorem effect_of_returns {x : StoreM α} (hx : Tx.Atomic x)
    (h : ∀ a db', Tx.Returns x db a db' → ∀ id, DemandEffect event db db' id)
    (id : OrderId) : DemandEffect event db (x.exec db).2 id := by
  rcases hx.cases db with ⟨a, ha⟩ | heq
  · exact h a _ ha id
  · rw [heq]
    exact .kept (.refl _)

theorem KeepsDemands.effect (h : KeepsDemands db db')
    (id : OrderId) : DemandEffect event db db' id :=
  .kept (h.2 id)

/-- The fence: a claim that matches the lease of a row was made under a generation the row had,
and under the same generation the row requires what was claimed. -/
def Fenced (claims : List ClaimedOrderValidation) (db : Db) : Prop :=
  ∀ claim ∈ claims, ∀ row ∈ db.demands.get? claim.demand.orderId,
    row.leaseOwner = claim.demand.leaseOwner → row.leaseVersion = claim.demand.leaseVersion →
    claim.demand.generation ≤ row.generation ∧
      (row.generation = claim.demand.generation →
        row.requiredAt = claim.demand.requiredAt ∧ row.minimumBlock = claim.demand.minimumBlock)

theorem owns_lease {claim : ClaimedOrderValidation}
    (h : owns row claim now = true) :
    row.pending = true ∧ row.leaseOwner = claim.demand.leaseOwner ∧
      row.leaseVersion = claim.demand.leaseVersion ∧ now < row.leaseUntil := by
  simpa [owns, and_assoc] using h

theorem Completes.effect {completions : List OrderValidationCompletion}
    {completion : OrderValidationCompletion} {proof : OrderValidationEvidence}
    (h : Completes proof now nowSeconds completion db db') (hmem : completion ∈ completions)
    (hchain : db.revision = proof.checkpoint.revision) (hfenced : Fenced claims db)
    (hclaim : completion.claim ∈ claims) :
    DemandEffect (.completeBatch completions proof now nowSeconds) db db'
      completion.claim.demand.orderId := by
  cases h with
  | @applied row order hrow howns hproof horder hrevision horder' hrow' =>
    refine .validated (.completion hmem rfl hrevision.symm rfl) horder hchain horder' ?_ ?_
    · intro row' hmem'
      rw [hrow', Option.mem_some_iff] at hmem'
      rw [← hmem']
      rfl
    · intro stored hstored
      rw [hrow, Option.mem_some_iff] at hstored
      subst hstored
      refine ⟨_, hrow', .of_eq rfl rfl rfl, fun _ hdone => ?_⟩
      -- the row is done only under the generation that was claimed
      have hgeneration : row.generation = completion.claim.demand.generation := by
        simpa [DemandRow.completed] using hdone
      obtain ⟨-, howner, hversion, -⟩ := owns_lease howns
      obtain ⟨-, hsame⟩ := hfenced completion.claim hclaim row hrow howner hversion
      obtain ⟨ht, hb⟩ := hsame hgeneration
      rw [ht, hb]
      exact hproof
  | @skipped row hrow howns horder' hrow' =>
    cases hcandidate : validationCandidate db completion.claim.demand.orderId row.gate
        nowSeconds with
    | none =>
      rw [hcandidate] at hrow'
      exact .unneeded rfl hrow hcandidate hrow' rfl rfl
    | some candidate =>
      rw [hcandidate] at hrow'
      refine .kept ⟨fun stored hstored => ?_, fun hnone => ?_⟩
      · rw [hrow, Option.mem_some_iff] at hstored
        subst hstored
        exact ⟨_, hrow', .of_eq (Or.inl rfl) rfl rfl rfl rfl, fun _ => rfl⟩
      · rw [hrow] at hnone
        cases hnone

theorem EntryEffect.effect {entry : MakerValidationCheckpointEntry}
    (h : EntryEffect pass evidence now nowSeconds entry db db') (hmem : entry ∈ resolutions) :
    DemandEffect (.checkpoint pass afterId resolutions evidence now nowSeconds) db db'
      entry.candidate.order.id := by
  cases h with
  | kept horder hkeeps => exact .kept hkeeps
  | @recorded candidate status e hentry hevidence hchain hrecords =>
    subst hentry hevidence
    cases hrecords with
    | @mk order row' horder hrevision horder' hrow' hstored hinserted =>
      refine .validated (.resolution hmem rfl hrevision.symm) horder hchain horder' ?_ ?_
      · intro stored' hmem'
        rw [Option.mem_def] at hmem'
        have heq : row' = stored' := Option.some.inj (hrow'.symm.trans hmem')
        rw [← heq]
        cases hdemand : db.demands.get? candidate.order.id with
        | none => exact hinserted hdemand
        | some row =>
          rw [hstored row hdemand]
          rfl
      · intro row hrow
        refine ⟨row', hrow', ?_, fun hpending hdone => ?_⟩
        · rw [hstored row hrow]
          exact .of_eq rfl rfl rfl
        · rw [hstored row hrow] at hdone
          simpa [DemandRow.recorded, hpending] using hdone

theorem deleteWhere_effect {p : DemandRow → Bool}
    (hevent : event.deletesOrders = true) (hdemands : db'.demands = db.demands.deleteWhere p)
    (hp : ∀ row, p row = true → db'.orders.get? row.orderId = none) (id : OrderId) :
    DemandEffect event db db' id := by
  cases hrow : db.demands.get? id with
  | none =>
    refine .kept ?_
    rw [hdemands, Table.get?_deleteWhere, hrow]
    exact .refl _
  | some row =>
    cases hdeleted : p row with
    | false =>
      refine .kept ?_
      rw [hdemands, Table.get?_deleteWhere, hrow, Option.filter_some, hdeleted]
      exact .refl _
    | true =>
      refine .deleted hevent ?_ ?_
      · rw [← (Table.get?_eq_some.mp hrow).2]
        exact hp row hdeleted
      · rw [hdemands, Table.get?_deleteWhere, hrow, Option.filter_some, hdeleted]
        rfl

theorem replaceOrders_effect {orders : Table OrderRow.id} (db : Db) (id : OrderId) :
    DemandEffect (.reviseOrders orders) db (db.replaceOrders orders) id := by
  refine deleteWhere_effect rfl rfl (fun row hp => ?_) id
  rw [Bool.not_eq_true', Table.has, Option.isSome_eq_false_iff, Option.isNone_iff_eq_none] at hp
  exact hp

theorem RollbackEffect.demandEffect {plan : ReorgRollbackPlan} {snapshot : Erc721RollbackSnapshot}
    (h : RollbackEffect plan snapshot db db') (id : OrderId) :
    DemandEffect (.rollback plan snapshot) db db' id := by
  obtain ⟨orders, horders, hdemands⟩ : ∃ orders : Table OrderRow.id,
      db'.orders = orders.deleteWhere (isOrphanOrder plan.fromBlock) ∧
        db'.demands = db.demands.deleteWhere (fun d =>
          (orders.get? d.orderId).any (isOrphanOrder plan.fromBlock)) := by
    rw [h.facts]
    exact ⟨_, rfl, rfl⟩
  refine deleteWhere_effect rfl hdemands (fun row hp => ?_) id
  rw [horders, Table.get?_deleteWhere]
  cases horder : orders.get? row.orderId with
  | none => rfl
  | some order =>
    rw [horder, Option.any_some] at hp
    rw [Option.filter_some, hp]
    rfl

theorem checkpointEntry_deferred {n : Nat}
    (h : Tx.Returns (checkpointEntry pass alone evidence now nowSeconds (.deferred candidate error))
      db n db') :
    alone = true ∧ (n ≠ 0 → ∃ row ∈ db'.demands.get? candidate.order.id, row.pending = true ∧
      row.Covers (pass.validationRequest candidate.order.id)) := by
  simp only [checkpointEntry, Tx.returns_bind, Tx.returns_throwIf, Tx.returns_pure] at h
  obtain ⟨_, _, ⟨hguard, rfl⟩, outcome, _, hdefer, hn, rfl⟩ := h
  obtain ⟨-, -, hcovers⟩ := defer_effect hdefer
  rw [pass.validationRequest_orderId] at hcovers
  refine ⟨by simpa using fun h => hguard (Or.inl h), fun hne => hcovers ?_⟩
  by_contra hnot
  exact hne (hn.symm.trans (if_neg hnot))

theorem checkpointEntries_mem :
    ∀ {entries : List MakerValidationCheckpointEntry} {afterId : OrderId} {deferred : Nat}
      {out : OrderId × Nat} {db db' : Db} {entry : MakerValidationCheckpointEntry},
      Tx.Returns (checkpointEntries pass alone evidence now nowSeconds afterId deferred entries) db
        out db' → entry ∈ entries →
      ∃ n db₁ db₂, Tx.Returns (checkpointEntry pass alone evidence now nowSeconds entry) db₁ n db₂
  | [], _, _, _, _, _, _, _, hmem => absurd hmem List.not_mem_nil
  | first :: rest, afterId, deferred, out, db, db', entry, h, hmem => by
    simp only [checkpointEntries, Tx.returns_bind, Tx.returns_throwIf] at h
    obtain ⟨_, _, ⟨-, rfl⟩, handed, db₁, hfirst, hrest⟩ := h
    rcases List.mem_cons.mp hmem with rfl | hmem
    · exact ⟨handed, db, db₁, hfirst⟩
    · exact checkpointEntries_mem hrest hmem

theorem applyCheckpoint_deferred {out : OrderId × Nat}
    (h : Tx.Returns (applyCheckpoint pass afterId resolutions evidence now nowSeconds) db out db')
    (hhanded : out.2 ≠ 0)
    (hmem : .deferred candidate error ∈ resolutions) :
    ∃ row ∈ db'.demands.get? candidate.order.id, row.pending = true ∧
      row.Covers (pass.validationRequest candidate.order.id) := by
  have hentries := applyCheckpoint_entries h
  obtain ⟨n, db₁, db₂, hentry⟩ := checkpointEntries_mem hentries hmem
  -- a deferred order is the only one of its checkpoint
  obtain ⟨halone, -⟩ := checkpointEntry_deferred hentry
  obtain ⟨entry, rfl⟩ := List.length_eq_one_iff.mp (of_decide_eq_true halone)
  obtain rfl := List.mem_singleton.mp hmem
  simp only [checkpointEntries, Tx.returns_bind, Tx.returns_throwIf, Tx.returns_pure] at hentries
  obtain ⟨_, _, ⟨-, rfl⟩, handed, _, hentry, rfl, rfl⟩ := hentries
  refine (checkpointEntry_deferred hentry).2 (fun hzero => hhanded ?_)
  rw [hzero]

/-! ## 4. The invariant -/

/-- What holds between the database and the ghosts at every point of a run. -/
structure DemandInv (w : DemandWorld) : Prop where
  /-- What is outstanding is asked for by a pending row. -/
  covered : ∀ request ∈ w.outstanding, ∃ row ∈ w.db.demands.get? request.orderId,
    row.pending = true ∧ row.Covers request
  fenced : Fenced w.claims w.db
  /-- Claims and leases have owners that were drawn. -/
  owned : ∀ claim ∈ w.claims, ∃ owner ∈ w.owners, claim.demand.leaseOwner = some owner
  leased : ∀ id, ∀ row ∈ w.db.demands.get? id, ∀ owner ∈ row.leaseOwner, owner ∈ w.owners
  /-- The owner of a lease made the newest claim of the order. -/
  newest : ∀ claim ∈ w.claims, ∀ row ∈ w.db.demands.get? claim.demand.orderId,
    row.leaseOwner = claim.demand.leaseOwner →
      w.claims.find? (fun c => c.demand.orderId = claim.demand.orderId) = some claim

theorem DemandInv.start (db : Db) : DemandInv (.start db) where
  covered := by simp [DemandWorld.start]
  fenced := by simp [Fenced, DemandWorld.start]
  owned := by simp [DemandWorld.start]
  leased id row hrow owner howner :=
    List.mem_filterMap.mpr ⟨row, (Table.get?_eq_some.mp hrow).1, howner⟩
  newest := by simp [DemandWorld.start]

theorem DemandEffect.lease
    (h : DemandEffect event db db' id) (hrow' : db'.demands.get? id = some row') :
    row'.leaseOwner = none ∨ ∃ row, db.demands.get? id = some row ∧ row.Follows row' ∧
      row'.leaseOwner = row.leaseOwner ∧ row'.leaseVersion = row.leaseVersion := by
  cases h with
  | kept hkeeps =>
    cases hrow : db.demands.get? id with
    | none => exact Or.inl (hkeeps.inserted hrow row' hrow')
    | some row =>
      obtain ⟨stored, hstored, hfollows, -⟩ := hkeeps.kept row hrow
      obtain rfl : row' = stored := Option.mem_unique hrow' hstored
      rcases hfollows.lease with hnone | hlease
      · exact Or.inl hnone
      · exact Or.inr ⟨row, rfl, hfollows, hlease⟩
  | unneeded _ _ _ hstored _ hlease =>
    rw [hrow', Option.some.injEq] at hstored
    exact Or.inl (hstored ▸ hlease)
  | validated _ _ _ _ hlease _ => exact Or.inl (hlease row' hrow')
  | deleted _ _ hnone =>
    rw [hrow'] at hnone
    cases hnone

theorem DemandEffect.requires (h : DemandEffect event db db' id)
    (hrow : db.demands.get? id = some row) (hrow' : db'.demands.get? id = some row')
    (hpending : row.pending = true) (hpending' : row'.pending = true) : row.Requires row' := by
  cases h with
  | kept hkeeps =>
    obtain ⟨stored, hstored, hfollows, -⟩ := hkeeps.kept row hrow
    obtain rfl : row' = stored := Option.mem_unique hrow' hstored
    exact hfollows.requires hpending hpending'
  | unneeded _ _ _ hstored hnot _ =>
    rw [hrow', Option.some.injEq] at hstored
    rw [hstored, hnot] at hpending'
    cases hpending'
  | validated _ _ _ _ _ hstored =>
    obtain ⟨stored, hstored, hrequires, -⟩ := hstored row hrow
    obtain rfl : row' = stored := Option.mem_unique hrow' hstored
    exact hrequires
  | deleted _ _ hnone =>
    rw [hrow'] at hnone
    cases hnone

theorem isPending_iff :
    db.isPending id = true ↔ ∃ row, db.demands.get? id = some row ∧ row.pending = true := by
  rw [Db.isPending, Option.any_eq_true]

theorem DemandInv.of_effect {reported : List OrderValidationRequest} (h : DemandInv w)
    (heffect : ∀ id, DemandEffect event w.db db' id)
    (hreported : ∀ request ∈ reported, ∃ row ∈ db'.demands.get? request.orderId,
      row.pending = true ∧ row.Covers request) :
    DemandInv (w.next db' [] [] reported) where
  covered request hmem := by
    obtain ⟨hmem, hpending'⟩ := List.mem_filter.mp hmem
    rcases List.mem_append.mp hmem with hmem | hmem
    · exact hreported request hmem
    obtain ⟨row, hrow, hpending, hcovers⟩ := h.covered request hmem
    obtain ⟨row', hrow', hpending'⟩ := isPending_iff.mp hpending'
    exact ⟨row', hrow', hpending',
      hcovers.mono ((heffect _).requires hrow hrow' hpending hpending')⟩
  fenced claim hclaim row' hrow' howner hversion := by
    rcases (heffect _).lease hrow' with hnone | ⟨row, hrow, hfollows, howner', hversion'⟩
    · obtain ⟨owner, -, hclaimed⟩ := h.owned claim hclaim
      rw [hnone, hclaimed] at howner
      cases howner
    · obtain ⟨hle, hsame⟩ := h.fenced claim hclaim row hrow (howner' ▸ howner)
        (hversion' ▸ hversion)
      have hgeneration := hfollows.generation
      refine ⟨Nat.le_trans hle hgeneration, fun heq => ?_⟩
      obtain ⟨ht, hb⟩ := hfollows.unchanged (by omega)
      rw [ht, hb]
      exact hsame (by omega)
  owned := h.owned
  leased id row' hrow' owner howner := by
    rcases (heffect _).lease hrow' with hnone | ⟨row, hrow, -, howner', -⟩
    · rw [hnone] at howner
      cases howner
    · exact h.leased id row hrow owner (howner' ▸ howner)
  newest claim hclaim row' hrow' howner := by
    rcases (heffect _).lease hrow' with hnone | ⟨row, hrow, -, howner', -⟩
    · obtain ⟨owner, -, hclaimed⟩ := h.owned claim hclaim
      rw [hnone, hclaimed] at howner
      cases howner
    · exact h.newest claim hclaim row hrow (howner' ▸ howner)

/-- **A batch keeps the invariant**: its owner is fresh, so no earlier claim matches a lease it
takes. -/
theorem DemandInv.claim (h : DemandInv w) (hfresh : owner ∉ w.owners)
    (heffect : ∀ id, ClaimEffect owner now nowSeconds claims w.db db' id) :
    DemandInv (w.next db' claims [owner] []) := by
  -- an earlier claim has another owner
  have hold : ∀ claim ∈ w.claims, claim.demand.leaseOwner ≠ some owner ∧
      claim.demand.leaseOwner ≠ none := by
    intro claim hclaim
    obtain ⟨owner', howner', heq⟩ := h.owned claim hclaim
    rw [heq]
    refine ⟨fun hsame => ?_, by simp⟩
    rw [Option.some.injEq] at hsame
    exact hfresh (hsame ▸ howner')
  have hnew : ∀ claim ∈ claims, db'.demands.get? claim.demand.orderId = some claim.demand ∧
      claim.demand.leaseOwner = some owner := by
    intro claim hclaim
    cases heffect claim.demand.orderId with
    | same _ hclaims => exact absurd rfl (hclaims claim hclaim)
    | unneeded _ _ _ hclaims => exact absurd rfl (hclaims claim hclaim)
    | claimed _ hrow' hclaims =>
      have heq := hclaims claim hclaim rfl
      rw [hrow', heq]
      exact ⟨rfl, rfl⟩
  refine ⟨?_, ?_, ?_, ?_, ?_⟩
  · intro request hmem
    obtain ⟨hmem, hpending'⟩ := List.mem_filter.mp hmem
    obtain ⟨row, hrow, hpending, hcovers⟩ := h.covered request hmem
    obtain ⟨row', hrow', hpending'⟩ := isPending_iff.mp hpending'
    refine ⟨row', hrow', hpending', ?_⟩
    cases heffect request.orderId with
    | same hsame _ =>
      rw [hsame, Option.mem_def.mp hrow, Option.some.injEq] at hrow'
      exact hrow' ▸ hcovers
    | unneeded _ _ hstored _ =>
      rw [hstored, Option.some.injEq] at hrow'
      rw [← hrow'] at hpending'
      cases hpending'
    | claimed hrow₀ hstored _ =>
      rw [Option.mem_def.mp hrow, Option.some.injEq] at hrow₀
      rw [hstored, Option.some.injEq] at hrow'
      subst hrow₀ hrow'
      exact hcovers.mono (.of_eq rfl rfl rfl)
  · intro claim hclaim row' hrow' howner hversion
    rcases List.mem_append.mp hclaim with hclaim | hclaim
    · obtain rfl : claim.demand = row' :=
        Option.some.inj ((hnew claim hclaim).1.symm.trans hrow')
      exact ⟨Nat.le_refl _, fun _ => ⟨rfl, rfl⟩⟩
    · cases heffect claim.demand.orderId with
      | same hsame _ => exact h.fenced claim hclaim row' (hsame ▸ hrow') howner hversion
      | unneeded _ _ hstored _ =>
        obtain rfl := Option.mem_unique hrow' hstored
        exact absurd howner.symm (hold claim hclaim).2
      | claimed _ hstored _ =>
        obtain rfl := Option.mem_unique hrow' hstored
        exact absurd howner.symm (hold claim hclaim).1
  · intro claim hclaim
    rcases List.mem_append.mp hclaim with hclaim | hclaim
    · exact ⟨owner, by simp [DemandWorld.next], (hnew claim hclaim).2⟩
    · obtain ⟨owner', howner', heq⟩ := h.owned claim hclaim
      exact ⟨owner', List.mem_append_right _ howner', heq⟩
  · intro id row' hrow' owner' howner'
    cases heffect id with
    | same hsame _ => exact List.mem_append_right _ (h.leased id row' (hsame ▸ hrow') owner' howner')
    | unneeded _ _ hstored _ =>
      obtain rfl := Option.mem_unique hrow' hstored
      cases howner'
    | claimed _ hstored _ =>
      obtain rfl := Option.mem_unique hrow' hstored
      rw [← Option.some.inj howner']
      simp [DemandWorld.next]
  · intro claim hclaim row' hrow' howner
    change (claims ++ w.claims).find? _ = _
    rw [List.find?_append]
    rcases List.mem_append.mp hclaim with hclaim | hclaim
    · -- the batch has one claim of the order
      cases heffect claim.demand.orderId with
      | same _ hclaims => exact absurd rfl (hclaims claim hclaim)
      | unneeded _ _ _ hclaims => exact absurd rfl (hclaims claim hclaim)
      | claimed _ _ hclaims =>
        cases hfind : claims.find? (fun c => c.demand.orderId = claim.demand.orderId) with
        | none => exact absurd (List.find?_eq_none.mp hfind claim hclaim) (by simp)
        | some found =>
          have hid : found.demand.orderId = claim.demand.orderId := by
            simpa using List.find?_some hfind
          rw [hclaims found (List.mem_of_find?_eq_some hfind) hid, ← hclaims claim hclaim rfl]
          rfl
    · cases heffect claim.demand.orderId with
      | same hsame hclaims =>
        have hnone : claims.find? (fun c => c.demand.orderId = claim.demand.orderId) = none :=
          List.find?_eq_none.mpr (fun c hc => by simpa using hclaims c hc)
        rw [hnone, Option.none_or]
        exact h.newest claim hclaim row' (hsame ▸ hrow') howner
      | unneeded _ _ hstored _ =>
        obtain rfl := Option.mem_unique hrow' hstored
        exact absurd howner.symm (hold claim hclaim).2
      | claimed _ hstored _ =>
        obtain rfl := Option.mem_unique hrow' hstored
        exact absurd howner.symm (hold claim hclaim).1

/-! ## 5. Steps and runs -/

theorem atomic_admitRequest (request : OrderValidationRequest) (now nowSeconds : Nat) :
    Tx.Atomic (admitRequest request now nowSeconds) :=
  .check_bind (fun _ => Tx.atomic_writeTransaction _)

theorem reportedPending_covered {x : StoreM OrderValidationOutcome}
    (h : ∀ db', Tx.Returns x db .pending db' → ∃ row ∈ db'.demands.get? request.orderId,
      row.pending = true ∧ row.Covers request) :
    ∀ r ∈ reportedPending request (x.exec db).1, ∃ row ∈ (x.exec db).2.demands.get? r.orderId,
      row.pending = true ∧ row.Covers r := by
  intro r hr
  rw [reportedPending.eq_def] at hr
  split at hr
  · next hok =>
    obtain rfl := List.mem_singleton.mp hr
    exact h _ (Prod.ext hok rfl)
  · cases hr

theorem handedToDemand_covered :
    ∀ r ∈ handedToDemand pass resolutions ((Tx.writeTransaction
        (applyCheckpoint pass afterId resolutions evidence now nowSeconds)).exec db).1,
      ∃ row ∈ ((Tx.writeTransaction (applyCheckpoint pass afterId resolutions evidence now
          nowSeconds)).exec db).2.demands.get? r.orderId, row.pending = true ∧ row.Covers r := by
  intro r hr
  rw [handedToDemand.eq_def] at hr
  split at hr
  · next last handed hok =>
    split at hr
    · cases hr
    next hhanded =>
    obtain ⟨entry, hmem, hentry⟩ := List.mem_filterMap.mp hr
    cases entry with
    | deferred candidate error =>
      obtain rfl := Option.some.inj hentry
      rw [pass.validationRequest_orderId]
      exact applyCheckpoint_deferred (Tx.returns_writeTransaction.mp (Prod.ext hok rfl)) hhanded
        hmem
    | resolved candidate validation => cases hentry
    | covered candidate => cases hentry
  · cases hr

/-- The three things a step can be. -/
inductive DemandStepCases (w : DemandWorld) (event : DemandEvent) (w' : DemandWorld) : Prop
  | idle (hw : w' = w)
  | effect {db' : Db} {reported : List OrderValidationRequest}
      (hw : w' = w.next db' [] [] reported)
      (heffect : ∀ id, DemandEffect event w.db db' id)
      (hreported : ∀ request ∈ reported, ∃ row ∈ db'.demands.get? request.orderId,
        row.pending = true ∧ row.Covers request)
  | claim {owner : String} {now nowSeconds : Nat} {claims : List ClaimedOrderValidation} {db' : Db}
      (hevent : event = .claimBatch owner now nowSeconds) (hfresh : owner ∉ w.owners)
      (hw : w' = w.next db' claims [owner] [])
      (heffect : ∀ id, ClaimEffect owner now nowSeconds claims w.db db' id)

theorem demandStep_cases (h : DemandInv w) (event : DemandEvent) :
    DemandStepCases w event (demandStep w event) := by
  cases event with
  | request request now nowSeconds =>
    refine .effect rfl (effect_of_returns (atomic_admitRequest _ _ _) ?_)
      (reportedPending_covered ?_)
    · exact fun _ _ hret => (admitRequest_effect hret).1.effect
    · exact fun _ hret => (admitRequest_effect hret).2.2 rfl
  | defer request error now nowSeconds =>
    refine .effect rfl (effect_of_returns (Tx.atomic_writeTransaction _) ?_)
      (reportedPending_covered ?_)
    · exact fun _ _ hret => (defer_effect hret).1.effect
    · exact fun _ hret => (defer_effect hret).2.2 rfl
  | claimBatch owner now nowSeconds =>
    by_cases hfresh : owner ∈ w.owners
    · exact .idle (if_pos hfresh)
    refine .claim rfl hfresh (if_neg hfresh) (fun id => ?_)
    rcases hrun : (Artgod.Indexer.claimBatch owner now nowSeconds).exec w.db with ⟨r, db'⟩
    cases r with
    | ok batch => exact (claimBatch_effect hrun).2 id
    | error e =>
      obtain rfl := Tx.writeTransaction_error hrun
      exact .same rfl (by simp [batchClaims])
  | renew claim now =>
    refine .effect rfl (effect_of_returns (Tx.atomic_modifyGet _) ?_) (by simp)
    exact fun _ _ hret => (renew_effect hret).effect
  | completeBatch completions proof now nowSeconds =>
    by_cases hclaims : ∀ c ∈ completions, c.claim ∈ w.claims
    · rw [demandStep, if_pos hclaims]
      refine .effect rfl (effect_of_returns (Tx.atomic_writeTransaction _) ?_) (by simp)
      intro _ db' hret id
      obtain ⟨hchain, -, hids⟩ := completeBatch_effect hret
      rcases hids id with hsame | ⟨completion, hmem, rfl, hcompletes⟩
      · exact .kept (by rw [hsame.2]; exact .refl _)
      · exact hcompletes.effect hmem hchain h.fenced (hclaims completion hmem)
    · exact .idle (if_neg hclaims)
  | release claims now =>
    refine .effect rfl (effect_of_returns (Tx.atomic_writeTransaction _) ?_) (by simp)
    exact fun _ _ hret => (release_effect hret).effect
  | fail claims error now =>
    refine .effect rfl (effect_of_returns (Tx.atomic_writeTransaction _) ?_) (by simp)
    exact fun _ _ hret => (fail_effect hret).effect
  | checkpoint pass afterId resolutions evidence now nowSeconds =>
    refine .effect rfl (effect_of_returns (Tx.atomic_writeTransaction _) ?_) handedToDemand_covered
    intro _ db' hret id
    obtain ⟨-, -, -, hids⟩ := applyCheckpoint_effect (Tx.returns_writeTransaction.mp hret)
    rcases hids id with hsame | ⟨entry, hmem, rfl, hentry⟩
    · exact .kept (by rw [hsame.2]; exact .refl _)
    · exact hentry.effect hmem
  | rollback plan snapshot =>
    refine .effect rfl (effect_of_returns (Tx.atomic_writeTransaction _) ?_) (by simp)
    exact fun _ _ hret => (rollbackFromBlock_effect hret).demandEffect
  | reviseOrders orders => exact .effect rfl (replaceOrders_effect w.db) (by simp)
  | writeOther db => exact .effect rfl (fun _ => .kept (.refl _)) (by simp)

theorem DemandInv.step (h : DemandInv w) (event : DemandEvent) :
    DemandInv (demandStep w event) := by
  cases demandStep_cases h event with
  | idle hw =>
    rw [hw]
    exact h
  | effect hw heffect hreported =>
    rw [hw]
    exact h.of_effect heffect hreported
  | claim _ hfresh hw heffect =>
    rw [hw]
    exact h.claim hfresh heffect

theorem DemandInv.run : ∀ {w : DemandWorld} (events : List DemandEvent), DemandInv w →
    DemandInv (demandRun w events)
  | _, [], h => h
  | _, event :: rest, h => DemandInv.run rest (h.step event)

/-! ## 6. How a demand ends -/

/-- Why the row of a request may stop being pending. -/
inductive Discharged (event : DemandEvent) (request : OrderValidationRequest) (db db' : Db) : Prop
  /-- A result was applied to the revision the order has, on the chain the proof was read from,
  and the proof satisfies the request. -/
  | validated {order : OrderRow} {status : OrderStatus} {proof : OrderValidationEvidence}
      {nowSeconds : Nat}
      (hresult : event.Supplies request.orderId order.stateRevision status proof nowSeconds)
      (horder : db.orders.get? request.orderId = some order)
      (hchain : db.revision = proof.checkpoint.revision)
      (hproof : validationProofSatisfies proof request.requiredAt request.minimumBlock = true)
      (horder' : db'.orders.get? request.orderId = some (order.withValidation status nowSeconds))
  | unneeded {nowSeconds : Nat} (hclock : event.clock = some nowSeconds)
      (hcandidate : validationCandidate db request.orderId request.minimumBlock nowSeconds = none)
  | deleted (hevent : event.deletesOrders = true)
      (horder' : db'.orders.get? request.orderId = none)

theorem isPending_of_get? (h : db.demands.get? id = some row) : db.isPending id = row.pending := by
  rw [Db.isPending, h, Option.any_some]

theorem DemandEffect.discharged (h : DemandEffect event db db' request.orderId)
    (hrow : db.demands.get? request.orderId = some row) (hpending : row.pending = true)
    (hcovers : row.Covers request) (hdone : db'.isPending request.orderId = false) :
    Discharged event request db db' := by
  cases h with
  | kept hkeeps =>
    obtain ⟨row', hrow', -, hkept⟩ := hkeeps.kept row hrow
    rw [isPending_of_get? hrow', hkept hpending] at hdone
    cases hdone
  | unneeded hclock hstored hcandidate _ _ _ =>
    rw [hrow, Option.some.injEq] at hstored
    subst hstored
    exact .unneeded hclock (hcovers.unneeded hcandidate)
  | validated hresult horder hchain horder' _ hstored =>
    obtain ⟨row', hrow', -, hproof⟩ := hstored row hrow
    rw [isPending_of_get? hrow'] at hdone
    exact .validated hresult horder hchain (hcovers.satisfied (hproof hpending hdone)) horder'
  | deleted hevent horder' _ => exact .deleted hevent horder'

theorem ClaimEffect.discharged (h : ClaimEffect owner now nowSeconds claims db db' request.orderId)
    (hrow : db.demands.get? request.orderId = some row) (hpending : row.pending = true)
    (hcovers : row.Covers request) (hdone : db'.isPending request.orderId = false) :
    Discharged (.claimBatch owner now nowSeconds) request db db' := by
  cases h with
  | same hrow' _ =>
    rw [isPending_of_get? (hrow'.trans hrow), hpending] at hdone
    cases hdone
  | unneeded hstored hcandidate _ _ =>
    rw [hrow, Option.some.injEq] at hstored
    subst hstored
    exact .unneeded rfl (hcovers.unneeded hcandidate)
  | claimed hstored hrow' _ =>
    rw [hrow, Option.some.injEq] at hstored
    subst hstored
    rw [isPending_of_get? hrow'] at hdone
    exact absurd (hdone.symm.trans hpending) (by simp)

theorem outstanding_step (h : DemandInv w) (event : DemandEvent)
    (hmem : request ∈ w.outstanding) :
    request ∈ (demandStep w event).outstanding ∨
      (demandStep w event).db.isPending request.orderId = false ∧
        Discharged event request w.db (demandStep w event).db := by
  obtain ⟨row, hrow, hpending, hcovers⟩ := h.covered request hmem
  cases demandStep_cases h event with
  | idle hw =>
    rw [hw]
    exact Or.inl hmem
  | effect hw heffect hreported =>
    rw [hw]
    rename_i db' reported
    cases hdone : db'.isPending request.orderId with
    | true => exact Or.inl (List.mem_filter.mpr ⟨List.mem_append_right _ hmem, hdone⟩)
    | false => exact Or.inr ⟨hdone, (heffect _).discharged hrow hpending hcovers hdone⟩
  | claim hevent hfresh hw heffect =>
    rw [hw]
    subst hevent
    rename_i db'
    cases hdone : db'.isPending request.orderId with
    | true => exact Or.inl (List.mem_filter.mpr ⟨List.mem_append_right _ hmem, hdone⟩)
    | false => exact Or.inr ⟨hdone, (heffect _).discharged hrow hpending hcovers hdone⟩

theorem outstanding_reported
    (hok : ((admitRequest request now nowSeconds).exec w.db).1 = .ok .pending) :
    request ∈ (demandStep w (.request request now nowSeconds)).outstanding := by
  obtain ⟨row, hrow, hpending, -⟩ := (admitRequest_effect (Prod.ext hok rfl)).2.2 rfl
  refine List.mem_filter.mpr ⟨List.mem_append_left _ ?_, isPending_iff.mpr ⟨row, hrow, hpending⟩⟩
  rw [hok]
  exact List.mem_singleton_self _

/-! ## 7. Who may write -/

/-- The claims an executor presents, and its time. -/
def DemandEvent.presents : DemandEvent → Option (List ClaimedOrderValidation × Nat)
  | .renew claim now => some ([claim], now)
  | .completeBatch completions _ now _ => some (completions.map (·.claim), now)
  | .release claims now => some (claims, now)
  | .fail claims _ now => some (claims, now)
  | _ => none

/-- The claim is the last one made of its order, and its lease has not ended. -/
def HoldsLease (w : DemandWorld) (claim : ClaimedOrderValidation) (now : Nat) : Prop :=
  w.claims.find? (fun c => c.demand.orderId = claim.demand.orderId) = some claim ∧
    ∃ row, w.db.demands.get? claim.demand.orderId = some row ∧ owns row claim now = true

/-- The order is the same, and its demand is pending if it was. -/
def Untouched (db db' : Db) (id : OrderId) : Prop :=
  db'.orders.get? id = db.orders.get? id ∧ (db.isPending id = true → db'.isPending id = true)

theorem KeepsDemands.untouched (h : KeepsDemands db db') (id : OrderId) :
    Untouched db db' id := by
  refine ⟨by rw [h.1], fun hpending => ?_⟩
  obtain ⟨row, hrow, hrowPending⟩ := isPending_iff.mp hpending
  obtain ⟨row', hrow', -, hkept⟩ := (h.2 id).kept row hrow
  exact isPending_iff.mpr ⟨row', hrow', hkept hrowPending⟩

theorem SameOrder.untouched (h : SameOrder db db' id) :
    Untouched db db' id := by
  refine ⟨h.1, fun hpending => ?_⟩
  rw [Db.isPending, h.2]
  exact hpending

theorem untouched_of_returns {x : StoreM α} (hx : Tx.Atomic x)
    (h : ∀ a db', Tx.Returns x db a db' → Untouched db db' id) :
    Untouched db (x.exec db).2 id := by
  rcases hx.cases db with ⟨a, ha⟩ | heq
  · exact h a _ ha
  · rw [heq]
    exact ⟨rfl, fun hp => hp⟩

/-- **Only the holder of the lease changes the order or completes its demand.** -/
theorem holdsLease_of_touched (h : DemandInv w)
    (hpresents : event.presents = some (claims, now)) (id : OrderId) :
    Untouched w.db (demandStep w event).db id ∨
      ∃ claim ∈ claims, claim.demand.orderId = id ∧ HoldsLease w claim now := by
  cases event with
  | renew claim now =>
    exact Or.inl (untouched_of_returns (x := renew claim now) (Tx.atomic_modifyGet _)
      (fun _ _ hret => (renew_effect hret).untouched id))
  | release claims now =>
    exact Or.inl (untouched_of_returns (Tx.atomic_writeTransaction _)
      (fun _ _ hret => (release_effect hret).untouched id))
  | fail claims error now =>
    exact Or.inl (untouched_of_returns (Tx.atomic_writeTransaction _)
      (fun _ _ hret => (fail_effect hret).untouched id))
  | completeBatch completions proof now' nowSeconds =>
    obtain ⟨rfl, rfl⟩ : completions.map (·.claim) = claims ∧ now' = now := by
      simpa [DemandEvent.presents] using hpresents
    by_cases hclaims : ∀ c ∈ completions, c.claim ∈ w.claims
    · rw [demandStep, if_pos hclaims]
      rcases hrun : (completeBatch completions proof now' nowSeconds).exec w.db with ⟨r, db'⟩
      cases r with
      | ok counts =>
        obtain ⟨-, -, hids⟩ := completeBatch_effect hrun
        rcases hids id with hsame | ⟨completion, hmem, hid, hcompletes⟩
        · exact Or.inl hsame.untouched
        right
        obtain ⟨row, hrow, howns⟩ := hcompletes.owned
        exact ⟨completion.claim, List.mem_map_of_mem hmem, hid,
          h.newest _ (hclaims completion hmem) row hrow (owns_lease howns).2.1, row, hrow, howns⟩
      | error e =>
        obtain rfl := Tx.writeTransaction_error hrun
        exact Or.inl ⟨rfl, fun hp => hp⟩
    · rw [demandStep, if_neg hclaims]
      exact Or.inl ⟨rfl, fun hp => hp⟩
  | request request now nowSeconds => cases hpresents
  | defer request error now nowSeconds => cases hpresents
  | claimBatch owner now nowSeconds => cases hpresents
  | checkpoint pass afterId resolutions evidence now nowSeconds => cases hpresents
  | rollback plan snapshot => cases hpresents
  | reviseOrders orders => cases hpresents
  | writeOther db => cases hpresents

/-! ## 8. Every run -/

/-- **No validation demand is lost.**  After any run, a request that is reported pending becomes
outstanding, an outstanding one has a pending row, and the next event leaves it outstanding or
discharges it; and an executor changes an order or completes its demand only while it holds the
lease. -/
theorem validation_demand_discharged (db : Db) (events : List DemandEvent) (event : DemandEvent) :
    let w := demandRun (.start db) events
    let w' := demandStep w event
    (∀ request now nowSeconds, event = .request request now nowSeconds →
      ((admitRequest request now nowSeconds).exec w.db).1 = .ok .pending →
      request ∈ w'.outstanding) ∧
    (∀ request ∈ w.outstanding, w.db.isPending request.orderId = true ∧
      (request ∈ w'.outstanding ∨
        w'.db.isPending request.orderId = false ∧ Discharged event request w.db w'.db)) ∧
    (∀ claims now, event.presents = some (claims, now) → ∀ id,
      Untouched w.db w'.db id ∨
        ∃ claim ∈ claims, claim.demand.orderId = id ∧ HoldsLease w claim now) := by
  intro w w'
  have hinv : DemandInv w := .run events (.start db)
  refine ⟨?_, fun request hmem => ⟨?_, outstanding_step hinv event hmem⟩, ?_⟩
  · rintro request now nowSeconds rfl hok
    exact outstanding_reported hok
  · obtain ⟨row, hrow, hpending, -⟩ := hinv.covered request hmem
    exact isPending_iff.mpr ⟨row, hrow, hpending⟩
  · intro claims now hpresents id
    exact holdsLease_of_touched hinv hpresents id

/-- One order of block 8, in a collection anchored at block 3. -/
def orderedDb : Db :=
  { Db.fresh (Table.empty.insertOrIgnore ⟨1, 9, .erc721, .live, some 3⟩) with
    orders := Table.empty.insertOrIgnore
      ⟨"a", 1, "seaport", 7, 9, some "4", none, .fillable, .active, some 8, 0, 0⟩ }

def observation : OrderValidationRequest := ⟨"a", 5, none⟩

def completedEvents : List DemandEvent := [.request observation 10 0, .claimBatch "x" 20 0]

/-- The executor that claimed the order completes it with a snapshot read at 21. -/
def completionEvent : DemandEvent :=
  .completeBatch ((demandRun (.start orderedDb) completedEvents).claims.map (⟨·, .noBalance⟩))
    ⟨21, 8, ⟨0⟩⟩ 30 0

theorem validation_demand_discharged_completed :
    observation ∈ (demandRun (.start orderedDb) completedEvents).outstanding ∧
      Discharged completionEvent observation (demandRun (.start orderedDb) completedEvents).db
        (demandStep (demandRun (.start orderedDb) completedEvents) completionEvent).db := by
  obtain ⟨-, houtstanding, -⟩ :=
    validation_demand_discharged orderedDb completedEvents completionEvent
  have hmem : observation ∈ (demandRun (.start orderedDb) completedEvents).outstanding := by
    decide +kernel
  refine ⟨hmem, ?_⟩
  rcases (houtstanding observation hmem).2 with hstill | hdone
  · exact absurd hstill (by decide +kernel)
  · exact hdone.2

def orphaningEvent : DemandEvent := .rollback ⟨⟨0⟩, 8, []⟩ ⟨⟨7, 70, 60, 0⟩, []⟩

/-- **A rollback deletes an order with its pending demand**, although the order still needs
validation and no result came. -/
theorem rollback_drops_pending_demand :
    observation ∈ (demandRun (.start orderedDb) [.request observation 10 0]).outstanding ∧
      (demandStep (demandRun (.start orderedDb) [.request observation 10 0])
        orphaningEvent).db.isPending observation.orderId = false ∧
      (∀ nowSeconds, (validationCandidate
        (demandRun (.start orderedDb) [.request observation 10 0]).db observation.orderId
        observation.minimumBlock nowSeconds).isSome = true) ∧
      ∀ revision status proof nowSeconds,
        ¬ orphaningEvent.Supplies observation.orderId revision status proof nowSeconds := by
  refine ⟨by decide +kernel, by decide +kernel, fun nowSeconds => by rfl, ?_⟩
  rintro revision status proof nowSeconds ⟨⟩

end Artgod.Indexer
