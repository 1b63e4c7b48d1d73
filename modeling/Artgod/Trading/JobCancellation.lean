/-
# Taking down the offers of a job

`cancelActiveOffersForJob` lists the market, adds the order that the job tracks, cancels those that are the
maker's, and only then forgets the tracked order.  A job that does not know the protocol address of the order
gets the answer of a lookup that was never made, and an order found under another maker is not cancelled
(`ForgetsSafely`).
-/
import Artgod.Trading.CancellationRows

namespace Artgod.Trading

open Js Machine

/-! ## 1. The call -/

section Cancellation

variable (setup : BidderSetup) (answers : MarketAnswers)

/-- The state, with the protocol address of the order where it has none. -/
def adoptedState (state : BidderState) (order : Order) : BidderState :=
  match truthyText state.activeProtocolAddress.get, truthyText order.protocolAddress with
  | none, some address => { state with activeProtocolAddress := .own (some address) }
  | _, _ => state

/-- `resolveTrackedActiveOrder` without `clearMissing`; `lookup` is what the marketplace answers if it is asked. -/
def resolveTrackedOrder (lookup : DirectLookup) (nowMs : Rat) (market : MarketOffers) : Bidding (Option Order) := do
  let job := (← get).job
  match truthyText job.state.activeOrderId.get with
  | none => return none
  | some activeId =>
    match market.offers.find? (fun offer => offer.id = activeId) with
    | some foundInMarket =>
      setState fun state => adoptedState state foundInMarket
      return some foundInMarket
    | none =>
      match ← answered (getOrder setup.engine activeId job.state.activeProtocolAddress.get job.collectionAddress
          lookup nowMs) with
      | .active order _ =>
        setState fun state => adoptedState state order
        return some order
      | .inconclusive reason => throw (
          s!"[Bidder] Unable to prove tracked active order status: jobId={job.id}, orderId={activeId}, " ++
            s!"reason={reason}")
      | .inactiveOrMissing => return none

/-- The listed offers, and the tracked order where it is not one of them. -/
def cancellationCandidates (market : MarketOffers) : Option Order → List Order
  | some trackedOrder =>
    if market.offers.any (fun offer => offer.id = trackedOrder.id) then market.offers
    else market.offers ++ [trackedOrder]
  | none => market.offers

/-- How many offers were cancelled, and the record of a tracked order that was taken for absent. -/
structure CancelledOffers where
  count : Nat
  absentOrder : Option OfferCancellationSnapshot

/-- `cancelActiveOffersForJob`, from the own offers on. -/
def forgetOffers (trackedOrderId : Option String) (makerOffers : List Order) : Bidding CancelledOffers := do
  if makerOffers = [] then
    match truthyText trackedOrderId with
    | some trackedOrderId =>
      let completedAt ← ask answers.isoTime
      let record := trackedOrderCancellation setup (← get).job trackedOrderId ⟨completedAt, some completedAt, none⟩
      clearTrackedOrder setup answers
      return ⟨0, some record⟩
    | none =>
      clearTrackedOrder setup answers
      return ⟨0, none⟩
  else
    cancelMakerOffers setup answers none makerOffers
    clearTrackedOrder setup answers
    return ⟨makerOffers.length, none⟩

def cancelActiveOffersForJob (lookup : DirectLookup) (nowMs : Rat) : Bidding CancelledOffers := do
  let market ← answered answers.activeOffers
  let job := (← get).job
  let trackedOrderId := job.state.activeOrderId.get
  let trackedOrder ← resolveTrackedOrder setup lookup nowMs market
  let makerOffers ← answered
    (ownCandidates setup job trackedOrderId (cancellationCandidates market trackedOrder))
  forgetOffers setup answers trackedOrderId makerOffers

end Cancellation

/-! ## 2. What a call must not forget -/

section Property

variable (setup : BidderSetup) (job : ScheduledJob) (lookup : DirectLookup) (nowMs : Rat)

section

variable (market : MarketOffers)

/-- The order was not listed, the marketplace was asked for it, and the answer is that it is inactive or missing.
`getOrder` asks only with a protocol address. -/
def LookedUpGone (activeId : String) : Prop :=
  market.offers.find? (fun offer => offer.id = activeId) = none ∧
    truthyText job.state.activeProtocolAddress.get ≠ none ∧
    getOrder setup.engine activeId job.state.activeProtocolAddress.get job.collectionAddress lookup nowMs =
      .ok .inactiveOrMissing

/-- Every listed offer of the maker that the job manages was cancelled, and the tracked order was cancelled or
looked up and found gone. -/
def AllGone (events : List BidEvent) : Prop :=
  (∀ offer ∈ market.offers, isMakerOffer setup offer = true → isOfferManagedByJob setup.engine job offer = .ok true →
    .cancelled offer (.ok ()) ∈ events) ∧
  ∀ activeId, truthyText job.state.activeOrderId.get = some activeId →
    (∃ order, order.id = activeId ∧ .cancelled order (.ok ()) ∈ events) ∨
      LookedUpGone setup job lookup nowMs market activeId

/-- **A call that returns forgets an order that is gone, and one that throws leaves the state as it was.** -/
def CancelsBeforeForgetting (answers : MarketAnswers) : Prop :=
  Ends (cancelActiveOffersForJob setup answers lookup nowMs) ⟨job, []⟩
    (fun _ run' => run'.job.state.activeOrderId.get = none ∧
      ∃ market, answers.activeOffers = .ok market ∧ AllGone setup job lookup nowMs market run'.events)
    (fun _ run' => run'.job.state = job.state)

/-- What the call takes for the tracked order. -/
def trackedOrder : Except String (Option Order) :=
  match truthyText job.state.activeOrderId.get with
  | none => .ok none
  | some activeId => findTrackedOrder setup job market lookup nowMs activeId

/-- The tracked order can be cancelled, or was looked up. -/
def TrackedSafely : Option Order → Prop
  | some order => isMakerOffer setup order = true
  | none => truthyText job.state.activeOrderId.get ≠ none → truthyText job.state.activeProtocolAddress.get ≠ none

/-- **The condition.**  A tracked order that is found is the maker's, and its protocol address is known to the job
(or to nobody); for one that is not found the job knows the protocol address, so that the lookup was made; and there
are own offers to cancel only outside a dry run. -/
def ForgetsSafely : Prop :=
  ∀ tracked, trackedOrder setup job lookup nowMs market = .ok tracked → (∀ order, tracked = some order →
      truthyText job.state.activeProtocolAddress.get ≠ none ∨ truthyText order.protocolAddress = none) ∧
    ∀ own, ownCandidates setup job job.state.activeOrderId.get (cancellationCandidates market tracked) = .ok own →
      (own ≠ [] → setup.isDryRun = false) ∧ TrackedSafely setup job tracked

end

end Property

/-! ## 3. Candidates -/

section Candidates

variable {setup : BidderSetup} {job : ScheduledJob} {lookup : DirectLookup} {nowMs : Rat} {market : MarketOffers}

variable {offer order : Order} {tracked : Option Order}

theorem mem_ownCandidates {trackedOrderId : Option String} {candidates own : List Order}
    (h : ownCandidates setup job trackedOrderId candidates = .ok own) :
    offer ∈ own ↔ offer ∈ candidates ∧ isMakerOffer setup offer = true ∧
      (isOfferManagedByJob setup.engine job offer = .ok true ∨ some offer.id = trackedOrderId) := by
  induction candidates generalizing own with
  | nil =>
    cases h
    exact iff_of_false List.not_mem_nil fun h => List.not_mem_nil h.1
  | cons first rest ih =>
    obtain ⟨isOwn, others, hothers, rfl, hfirst⟩ : ∃ isOwn others,
        ownCandidates setup job trackedOrderId rest = .ok others ∧
        (if isOwn = true then first :: others else others) = own ∧
        (isOwn = true ↔ isMakerOffer setup first = true ∧
          (isOfferManagedByJob setup.engine job first = .ok true ∨ some first.id = trackedOrderId)) := by
      unfold ownCandidates at h
      dsimp only at h
      split at h
      · next hmaker =>
        obtain ⟨isManaged, hmanaged, h⟩ := bind_eq_ok.mp h
        obtain ⟨isOwn, hisOwn, h⟩ := bind_eq_ok.mp h
        cases hisOwn
        obtain ⟨others, hothers, h⟩ := bind_eq_ok.mp h
        refine ⟨isManaged || decide (some first.id = trackedOrderId), others, hothers, Except.ok.inj h, ?_⟩
        rw [and_iff_right hmaker, hmanaged, Bool.or_eq_true, decide_eq_true_iff, Except.ok.injEq]
      · next hmaker =>
        obtain ⟨isOwn, hisOwn, h⟩ := bind_eq_ok.mp h
        cases hisOwn
        obtain ⟨others, hothers, h⟩ := bind_eq_ok.mp h
        exact ⟨false, others, hothers, Except.ok.inj h, iff_of_false (by decide) fun h => hmaker h.1⟩
    have hmem : offer ∈ (if isOwn then first :: others else others) ↔
        offer = first ∧ isOwn = true ∨ offer ∈ others := by
      cases isOwn with
      | true => rw [if_pos rfl, List.mem_cons, and_iff_left rfl]
      | false => rw [if_neg (by decide)]; exact (or_iff_right fun h => nomatch h.2).symm
    rw [hmem, ih hothers, List.mem_cons, or_and_right, hfirst]
    refine or_congr_left (and_congr_right ?_)
    rintro rfl
    exact Iff.rfl

theorem trackedOrder_some (h : trackedOrder setup job lookup nowMs market = .ok (some order)) :
    truthyText job.state.activeOrderId.get = some order.id ∧ ¬LookedUpGone setup job lookup nowMs market order.id ∧
      (order ∈ market.offers ∨ ∀ offer ∈ market.offers, offer.id ≠ order.id) := by
  unfold trackedOrder at h
  split at h
  · cases h
  next activeId hactive =>
  unfold findTrackedOrder at h
  split at h
  · next found hfound =>
    cases h
    have hmatches := List.find?_some hfound
    have hid : order.id = activeId := of_decide_eq_true hmatches
    rw [hid]
    refine ⟨hactive, fun hgone => ?_, .inl (List.mem_of_find?_eq_some hfound)⟩
    rw [hgone.1] at hfound
    cases hfound
  · next hfound =>
    obtain ⟨recovered, hrecovered, h⟩ := bind_eq_ok.mp h
    cases recovered with
    | active recoveredOrder hnamed =>
      cases h
      have hid := getOrder_active_id hrecovered
      rw [hid]
      refine ⟨hactive, fun hgone => ?_, .inr fun offer hoffer heq => ?_⟩
      · rw [hgone.2.2] at hrecovered
        cases hrecovered
      · exact List.find?_eq_none.mp hfound offer hoffer (decide_eq_true heq)
    | inactiveOrMissing => cases h
    | inconclusive reason => cases h

/-- Where the call goes by no tracked order, the job tracks none, or the listing lacks it and the lookup says that
it is gone. -/
theorem trackedOrder_none (h : trackedOrder setup job lookup nowMs market = .ok none) {activeId : String}
    (hactive : truthyText job.state.activeOrderId.get = some activeId) :
    market.offers.find? (fun offer => offer.id = activeId) = none ∧
      getOrder setup.engine activeId job.state.activeProtocolAddress.get job.collectionAddress lookup nowMs =
        .ok .inactiveOrMissing := by
  unfold trackedOrder at h
  rw [hactive] at h
  dsimp only at h
  unfold findTrackedOrder at h
  split at h
  · cases h
  next hfound =>
  obtain ⟨recovered, hrecovered, h⟩ := bind_eq_ok.mp h
  cases recovered with
  | active recoveredOrder hnamed => cases h
  | inactiveOrMissing => exact ⟨hfound, hrecovered⟩
  | inconclusive reason => cases h

theorem mem_cancellationCandidates (hoffer : offer ∈ market.offers) :
    offer ∈ cancellationCandidates market tracked := by
  unfold cancellationCandidates
  split
  · split
    · exact hoffer
    · exact List.mem_append_left _ hoffer
  · exact hoffer

theorem listed_or_tracked
    (hoffer : offer ∈ cancellationCandidates market tracked) : offer ∈ market.offers ∨ tracked = some offer := by
  unfold cancellationCandidates at hoffer
  split at hoffer
  · split at hoffer
    · exact .inl hoffer
    · exact (List.mem_append.mp hoffer).imp_right fun h => congrArg some (List.mem_singleton.mp h).symm
  · exact .inl hoffer

theorem candidate_eq_trackedOrder (h : trackedOrder setup job lookup nowMs market = .ok (some order)) :
    offer ∈ cancellationCandidates market (some order) ∧ offer.id = order.id ↔ offer = order := by
  obtain ⟨-, -, hlisted⟩ := trackedOrder_some h
  unfold cancellationCandidates
  dsimp only
  rcases hlisted with hlisted | hlisted
  · have hany : market.offers.any (fun offer => offer.id = order.id) = true :=
      List.any_eq_true.mpr ⟨order, hlisted, decide_eq_true rfl⟩
    rw [if_pos hany]
    constructor
    · rintro ⟨hoffer, hid⟩
      exact List.inj_on_of_nodup_map market.distinct hoffer hlisted hid
    · rintro rfl
      exact ⟨hlisted, rfl⟩
  · have hany : ¬market.offers.any (fun offer => offer.id = order.id) = true := by
      rw [List.any_eq_true]
      rintro ⟨other, hother, hid⟩
      exact hlisted other hother (of_decide_eq_true hid)
    rw [if_neg hany, List.mem_append, List.mem_singleton]
    constructor
    · rintro ⟨hoffer | rfl, hid⟩
      · exact absurd hid (hlisted offer hoffer)
      · rfl
    · rintro rfl
      exact ⟨.inr rfl, rfl⟩

end Candidates

/-! ## 4. The steps of the call -/

section Steps

variable {setup : BidderSetup} {answers : MarketAnswers} {job : ScheduledJob} {lookup : DirectLookup} {nowMs : Rat}

variable {run : JobRun} {offers : List Order} {market : MarketOffers} {R : JobRun → Prop}

theorem cancelAndTrack_answers {order : Order} :
    Ends (cancelAndTrack setup answers order) run
      (fun _ _ => setup.isDryRun = true ∨ ∃ n, answers.cancellation n = .ok ())
      (fun _ _ => ∃ n message, answers.cancellation n = .error message) := by
  unfold cancelAndTrack
  cases setup.isDryRun with
  | true => exact .inl rfl
  | false =>
    simp only [Bool.not_false, if_true, ends_bind, ends_ask, ends_emit]
    refine (recordJobOfferCancellation_spec (R := fun _ _ => False)).mono (fun _ requested _ => ?_)
      fun _ _ hfalse => hfalse.elim
    cases hanswer : answers.cancellation requested.events.length with
    | ok u =>
      simp only [ends_bind, ends_ask]
      exact (recordJobOfferCancellation_spec (R := fun _ _ => False)).mono (fun _ _ _ => .inr ⟨_, hanswer⟩)
        fun _ _ hfalse => hfalse.elim
    | error message =>
      simp only [ends_bind, ends_throw]
      exact (recordJobOfferCancellation_spec (R := fun _ _ => False)).mono (fun _ _ _ => ⟨_, message, hanswer⟩)
        fun _ _ hfalse => hfalse.elim

theorem cancelMakerOffers_answers : Ends (cancelMakerOffers setup answers none offers) run
      (fun _ _ => setup.isDryRun = true ∨ offers = [] ∨ ∃ n, answers.cancellation n = .ok ())
      (fun _ _ => ∃ n message, answers.cancellation n = .error message) := by
  induction offers generalizing run with
  | nil => exact .inr (.inl rfl)
  | cons offer rest ih =>
    unfold cancelMakerOffers
    refine Ends.bind cancelAndTrack_answers (fun _ mid hmid => ?_) fun _ _ h => h
    refine ih.mono (fun _ _ _ => ?_) fun _ _ h => h
    exact hmid.imp_right .inr

theorem cancelMakerOffers_dryRun (hdry : setup.isDryRun = true) :
    Ends (cancelMakerOffers setup answers none offers) run (fun _ run' => run' = run) (fun _ _ => False) := by
  induction offers generalizing run with
  | nil => rfl
  | cons offer rest ih =>
    unfold cancelMakerOffers cancelAndTrack
    rw [hdry]
    exact ih

/-- **What is cancelled is every own offer, outside a dry run;** where a cancellation fails the job is as it was. -/
theorem forgetOffers_spec {trackedOrderId : Option String} {own : List Order} :
    Ends (forgetOffers setup answers trackedOrderId own) ⟨job, []⟩
      (fun _ run' => run'.job.state.activeOrderId.get = none ∧
        (∀ order, .cancelled order (.ok ()) ∈ run'.events ↔ order ∈ own ∧ setup.isDryRun = false) ∧
        (setup.isDryRun = true ∨ own = [] ∨ ∃ n, answers.cancellation n = .ok ()))
      (fun _ run' => run'.job = job ∧ ∃ n message, answers.cancellation n = .error message) := by
  -- the tracked order is forgotten in a last step, which cancels nothing
  have hclear : ∀ {run : JobRun} {result : CancelledOffers},
      (∀ order, .cancelled order (.ok ()) ∈ run.events ↔ order ∈ own ∧ setup.isDryRun = false) →
      (setup.isDryRun = true ∨ own = [] ∨ ∃ n, answers.cancellation n = .ok ()) →
      Ends (clearTrackedOrder setup answers >>= fun _ => pure result) run
        (fun _ run' => run'.job.state.activeOrderId.get = none ∧
          (∀ order, .cancelled order (.ok ()) ∈ run'.events ↔ order ∈ own ∧ setup.isDryRun = false) ∧
          (setup.isDryRun = true ∨ own = [] ∨ ∃ n, answers.cancellation n = .ok ()))
        (fun _ run' => run'.job = job ∧ ∃ n message, answers.cancellation n = .error message) := by
    intro run result hcancelled hanswers
    refine Ends.bind (clearTrackedOrder_spec (R := fun _ _ => False)) (fun _ run' h => ?_) fun _ _ hfalse => hfalse.elim
    refine ends_pure.mpr ⟨h.2, fun order => ?_, hanswers⟩
    rw [← hcancelled order]
    exact ⟨fun hmem => (h.1.mem_or hmem).resolve_right fun hwrite => hwrite, h.1.mem⟩
  unfold forgetOffers
  split
  · next hnone =>
    have hempty : ∀ order : Order, .cancelled order (.ok ()) ∈ ([] : List BidEvent) ↔
        order ∈ own ∧ setup.isDryRun = false := by
      intro order
      rw [hnone]
      exact iff_of_false List.not_mem_nil fun h => List.not_mem_nil h.1
    split
    · simp only [ends_bind, ends_ask, ends_get]
      exact ends_bind.mp (hclear hempty (.inr (.inl hnone)))
    · exact hclear hempty (.inr (.inl hnone))
  · cases hdry : setup.isDryRun with
    | true =>
      refine Ends.bind (cancelMakerOffers_dryRun hdry) (fun _ run' h => ?_) fun _ _ hfalse => hfalse.elim
      rw [h]
      rw [hdry] at hclear
      exact hclear (fun order => iff_of_false List.not_mem_nil fun h => by cases h.2) (.inl rfl)
    | false =>
      rw [hdry] at hclear
      refine Ends.bind (Ends.and cancelMakerOffers_spec cancelMakerOffers_answers) (fun _ run' h => ?_)
        fun _ run' h => ⟨h.1.1, h.2⟩
      obtain ⟨⟨-, hdid, hall⟩, hanswers⟩ := h
      refine hclear (fun order => ?_) (hdry ▸ hanswers)
      constructor
      · intro hmem
        obtain ⟨other, hother, -, hcancels⟩ := (hdid.mem_or hmem).resolve_left List.not_mem_nil
        rcases hcancels with ⟨answer, hevent⟩ | ⟨state, answer, hevent⟩
        · cases hevent
          exact ⟨hother, rfl⟩
        · cases hevent
      · rintro ⟨horder, -⟩
        exact hall hdry order horder rfl

/-- The job, with the protocol address of the tracked order that was found. -/
def adoptedJob (job : ScheduledJob) : Option Order → ScheduledJob
  | some order => { job with state := adoptedState job.state order }
  | none => job

theorem ends_resolveTrackedOrder {Q : Option Order → JobRun → Prop} :
    Ends (resolveTrackedOrder setup lookup nowMs market) ⟨job, []⟩ Q (fun _ => R) ↔
      match trackedOrder setup job lookup nowMs market with
      | .ok tracked => Q tracked ⟨adoptedJob job tracked, []⟩
      | .error _ => R ⟨job, []⟩ := by
  unfold resolveTrackedOrder trackedOrder findTrackedOrder
  simp only [ends_bind, ends_get]
  cases truthyText job.state.activeOrderId.get with
  | none => exact Iff.rfl
  | some activeId =>
    dsimp only
    cases market.offers.find? (fun offer => offer.id = activeId) with
    | some found => exact Iff.rfl
    | none =>
      dsimp only
      generalize getOrder setup.engine activeId job.state.activeProtocolAddress.get job.collectionAddress lookup nowMs =
        recovered
      cases recovered with
      | error message => exact Iff.rfl
      | ok found => cases found <;> exact Iff.rfl

theorem ends_cancelActiveOffersForJob (hlisted : answers.activeOffers = .ok market)
    {Q : CancelledOffers → JobRun → Prop} :
    Ends (cancelActiveOffersForJob setup answers lookup nowMs) ⟨job, []⟩ Q (fun _ => R) ↔
      match trackedOrder setup job lookup nowMs market with
      | .error _ => R ⟨job, []⟩
      | .ok tracked =>
        match ownCandidates setup job job.state.activeOrderId.get (cancellationCandidates market tracked) with
        | .error _ => R ⟨adoptedJob job tracked, []⟩
        | .ok own => Ends (forgetOffers setup answers job.state.activeOrderId.get own) ⟨adoptedJob job tracked, []⟩ Q
            (fun _ => R) := by
  unfold cancelActiveOffersForJob
  rw [hlisted]
  simp only [answered, pure_bind, ends_bind, ends_get, ends_resolveTrackedOrder]
  cases trackedOrder setup job lookup nowMs market with
  | error message => exact Iff.rfl
  | ok tracked =>
    dsimp only
    generalize ownCandidates setup job job.state.activeOrderId.get (cancellationCandidates market tracked) = own
    cases own with
    | error message => exact Iff.rfl
    | ok own => exact Iff.rfl

end Steps

/-! ## 5. When nothing live is forgotten -/

section Law

variable {setup : BidderSetup} {answers : MarketAnswers} {job : ScheduledJob} {lookup : DirectLookup} {nowMs : Rat}
  {market : MarketOffers} {tracked : Option Order} {own : List Order}

theorem adoptedState_eq_iff {state : BidderState} {order : Order} :
    adoptedState state order = state ↔
      truthyText state.activeProtocolAddress.get ≠ none ∨ truthyText order.protocolAddress = none := by
  unfold adoptedState
  cases hstate : truthyText state.activeProtocolAddress.get with
  | some address => exact iff_of_true rfl (.inl fun h => nomatch h)
  | none =>
    cases horder : truthyText order.protocolAddress with
    | none => exact iff_of_true rfl (.inr rfl)
    | some address =>
      refine iff_of_false (fun heq => ?_) fun h => h.elim (fun h => h rfl) fun h => nomatch h
      have hget : state.activeProtocolAddress.get = some address := by
        rw [← heq]
        rfl
      rw [hget, truthyText, Option.filter_eq_none_iff] at hstate
      exact hstate address rfl (Option.filter_eq_some_iff.mp horder).2

theorem managed_or_tracked (htracked : trackedOrder setup job lookup nowMs market = .ok tracked)
    (hown : ownCandidates setup job job.state.activeOrderId.get (cancellationCandidates market tracked) = .ok own)
    {offer : Order} (hoffer : offer ∈ own) :
    (offer ∈ market.offers ∧ isOfferManagedByJob setup.engine job offer = .ok true) ∨
      truthyText job.state.activeOrderId.get = some offer.id := by
  obtain ⟨hcandidate, -, hreason⟩ := (mem_ownCandidates hown).mp hoffer
  rcases listed_or_tracked hcandidate with hlisted | rfl
  · refine hreason.imp (fun hmanaged => ⟨hlisted, hmanaged⟩) fun hid => ?_
    rw [← hid, truthyText, Option.filter_some, if_pos (decide_eq_true (market.named offer hlisted))]
  · exact .inr (trackedOrder_some htracked).1

theorem allGone_iff (htracked : trackedOrder setup job lookup nowMs market = .ok tracked)
    (hown : ownCandidates setup job job.state.activeOrderId.get (cancellationCandidates market tracked) = .ok own)
    {events : List BidEvent}
    (hcancelled : ∀ order, .cancelled order (.ok ()) ∈ events ↔ order ∈ own ∧ setup.isDryRun = false) :
    AllGone setup job lookup nowMs market events ↔
      (own ≠ [] → setup.isDryRun = false) ∧ TrackedSafely setup job tracked := by
  constructor
  · rintro ⟨hlisted, htrack⟩
    constructor
    · intro hne
      obtain ⟨offer, hoffer⟩ := List.exists_mem_of_ne_nil own hne
      obtain ⟨hcandidate, hmaker, -⟩ := (mem_ownCandidates hown).mp hoffer
      rcases managed_or_tracked htracked hown hoffer with ⟨hmem, hmanaged⟩ | hactive
      · exact ((hcancelled offer).mp (hlisted offer hmem hmaker hmanaged)).2
      rcases htrack offer.id hactive with ⟨order, -, hdone⟩ | hgone
      · exact ((hcancelled order).mp hdone).2
      · rcases listed_or_tracked hcandidate with hmem | rfl
        · exact absurd (decide_eq_true rfl) (List.find?_eq_none.mp hgone.1 offer hmem)
        · exact absurd hgone (trackedOrder_some htracked).2.1
    · cases tracked with
      | some order =>
        obtain ⟨hactive, hnot, -⟩ := trackedOrder_some htracked
        obtain ⟨other, hid, hdone⟩ := (htrack order.id hactive).resolve_right hnot
        obtain ⟨hcandidate, hmaker, -⟩ := (mem_ownCandidates hown).mp ((hcancelled other).mp hdone).1
        exact (candidate_eq_trackedOrder htracked).mp ⟨hcandidate, hid⟩ ▸ hmaker
      | none =>
        intro hne
        obtain ⟨activeId, hactive⟩ := Option.ne_none_iff_exists'.mp hne
        rcases htrack activeId hactive with ⟨order, hid, hdone⟩ | hgone
        · have hmem := ((mem_ownCandidates hown).mp ((hcancelled order).mp hdone).1).1
          have hmissing := (trackedOrder_none htracked hactive).1
          exact absurd (decide_eq_true hid) (List.find?_eq_none.mp hmissing order hmem)
        · exact hgone.2.1
  · rintro ⟨hdry, hsafe⟩
    have hdone : ∀ order ∈ own, .cancelled order (.ok ()) ∈ events := fun order horder =>
      (hcancelled order).mpr ⟨horder, hdry (List.ne_nil_of_mem horder)⟩
    constructor
    · intro offer hoffer hmaker hmanaged
      exact hdone offer ((mem_ownCandidates hown).mpr ⟨mem_cancellationCandidates hoffer, hmaker, .inl hmanaged⟩)
    intro activeId hactive
    cases tracked with
    | some order =>
      have hid := Option.some.inj (hactive.symm.trans (trackedOrder_some htracked).1)
      have hcandidate := ((candidate_eq_trackedOrder htracked).mpr rfl).1
      refine .inl ⟨order, hid.symm, hdone order ((mem_ownCandidates hown).mpr ⟨hcandidate, hsafe, .inr ?_⟩)⟩
      rw [← hid]
      exact (Option.filter_eq_some_iff.mp hactive).1.symm
    | none =>
      obtain ⟨hmissing, hgone⟩ := trackedOrder_none htracked hactive
      exact .inr ⟨hmissing, hsafe (by rw [hactive]; exact Option.some_ne_none _), hgone⟩

theorem ForgetsSafely.cancels (h : ForgetsSafely setup job lookup nowMs market)
    (hlisted : answers.activeOffers = .ok market) : CancelsBeforeForgetting setup job lookup nowMs answers := by
  unfold CancelsBeforeForgetting
  rw [ends_cancelActiveOffersForJob hlisted]
  split
  · rfl
  next tracked htracked =>
  obtain ⟨haddress, hcancels⟩ := h tracked htracked
  have hsame : (adoptedJob job tracked).state = job.state := by
    cases tracked with
    | some order => exact adoptedState_eq_iff.mpr (haddress order rfl)
    | none => rfl
  split
  · exact hsame
  next own hown =>
  refine forgetOffers_spec.mono (fun _ run' hrun => ?_) fun _ run' hrun => ?_
  · exact ⟨hrun.1, market, hlisted, (allGone_iff htracked hown hrun.2.1).mpr (hcancels own hown)⟩
  · rw [hrun.1]
    exact hsame

/-- This listing, and this answer to every cancellation. -/
def answersOf (listing : Except String MarketOffers) (outcome : Except String Unit) : MarketAnswers where
  activeOffers := listing
  recovery := .ok .inactiveOrMissing
  placement := .ok ⟨"0xbb", "0x02", "", none⟩
  cancellation := fun _ => outcome
  persistence := fun _ => .ok ()
  recording := fun _ => .ok ()
  clock := fun _ => 0
  isoTime := fun _ => ""

/-- **The condition is needed:** with cancellations that all succeed the call returns, and with cancellations that
all fail it throws. -/
theorem ForgetsSafely.of_cancels
    (h : ∀ outcome, CancelsBeforeForgetting setup job lookup nowMs (answersOf (.ok market) outcome)) :
    ForgetsSafely setup job lookup nowMs market := by
  intro tracked htracked
  -- the call, once the tracked order is resolved
  have hrun : ∀ outcome,
      match ownCandidates setup job job.state.activeOrderId.get (cancellationCandidates market tracked) with
      | .error _ => (adoptedJob job tracked).state = job.state
      | .ok own => Ends (forgetOffers setup (answersOf (.ok market) outcome) job.state.activeOrderId.get own)
          ⟨adoptedJob job tracked, []⟩
          (fun _ run' => ∃ listed, Except.ok market = (Except.ok listed : Except String MarketOffers) ∧
            AllGone setup job lookup nowMs listed run'.events)
          (fun _ run' => run'.job.state = job.state) := by
    intro outcome
    have hcall := h outcome
    unfold CancelsBeforeForgetting at hcall
    rw [ends_cancelActiveOffersForJob rfl, htracked] at hcall
    dsimp only at hcall
    cases hown : ownCandidates setup job job.state.activeOrderId.get (cancellationCandidates market tracked) with
    | error message =>
      rw [hown] at hcall
      exact hcall
    | ok own =>
      rw [hown] at hcall
      exact hcall.mono (fun _ _ hok => hok.2) fun _ _ hstate => hstate
  cases hown : ownCandidates setup job job.state.activeOrderId.get (cancellationCandidates market tracked) with
  | error message =>
    rw [hown] at hrun
    refine ⟨fun order horder => ?_, fun own heq => nomatch heq⟩
    subst horder
    exact adoptedState_eq_iff.mp (hrun (.ok ()))
  | ok own =>
    rw [hown] at hrun
    -- with cancellations that succeed
    have hgone : (own ≠ [] → setup.isDryRun = false) ∧ TrackedSafely setup job tracked := by
      have hends := Ends.and (hrun (.ok ())) forgetOffers_spec
      cases hx : forgetOffers setup (answersOf (.ok market) (.ok ())) job.state.activeOrderId.get own
          ⟨adoptedJob job tracked, []⟩ with
      | ok result run' =>
        obtain ⟨⟨listed, hlisted, hall⟩, -, hcancelled, -⟩ := hends.of_ok hx
        cases hlisted
        exact (allGone_iff htracked hown hcancelled).mp hall
      | error message run' =>
        obtain ⟨-, -, n, failure, hfailed⟩ := hends.of_error hx
        cases hfailed
    refine ⟨fun order horder => ?_, fun own' heq => Except.ok.inj heq ▸ hgone⟩
    subst horder
    have hmem : order ∈ own := by
      refine (mem_ownCandidates hown).mpr ⟨((candidate_eq_trackedOrder htracked).mpr rfl).1, hgone.2, .inr ?_⟩
      exact (Option.filter_eq_some_iff.mp (trackedOrder_some htracked).1).1.symm
    -- with cancellations that fail
    have hends := Ends.and (hrun (.error "")) forgetOffers_spec
    cases hx : forgetOffers setup (answersOf (.ok market) (.error "")) job.state.activeOrderId.get own
        ⟨adoptedJob job (some order), []⟩ with
    | ok result run' =>
      obtain ⟨-, -, -, hdry | hnone | ⟨n, hanswer⟩⟩ := hends.of_ok hx
      · rw [hgone.1 (List.ne_nil_of_mem hmem)] at hdry
        cases hdry
      · exact absurd hnone (List.ne_nil_of_mem hmem)
      · cases hanswer
    | error message run' =>
      obtain ⟨hstate, hjob, -⟩ := hends.of_error hx
      rw [hjob] at hstate
      exact adoptedState_eq_iff.mp hstate

/-- **A call cancels before it forgets, whatever its cancellations give, exactly where the condition holds.** -/
theorem cancel_before_forget_iff (setup : BidderSetup) (job : ScheduledJob) (lookup : DirectLookup) (nowMs : Rat)
    (listing : Except String MarketOffers) :
    (∀ answers, answers.activeOffers = listing → CancelsBeforeForgetting setup job lookup nowMs answers) ↔
      ∀ market, listing = .ok market → ForgetsSafely setup job lookup nowMs market := by
  constructor
  · rintro h market rfl
    exact .of_cancels fun outcome => h (answersOf (.ok market) outcome) rfl
  intro h answers hlisting
  cases hlisted : listing with
  | ok market => exact (h market hlisted).cancels (hlisting.trans hlisted)
  | error message =>
    unfold CancelsBeforeForgetting cancelActiveOffersForJob
    rw [hlisting, hlisted]
    rfl

end Law

/-- A job that tracks an order whose protocol address it does not know. -/
def addresslessJob : ScheduledJob :=
  { tokenJob with state := { tokenJob.state with activeOrderId := .own (some "0xaa") } }

/-- **A live order is forgotten.**  The market lists nothing, the order is active at the marketplace, and the call
returns without having asked for it. -/
theorem live_order_forgotten :
    (∃ order hnamed, getOrder makerSetup.engine "0xaa" (some "0x02") addresslessJob.collectionAddress
      (.answered (rawOfferWith 2 (.object []))) 0 = .ok (.active order hnamed)) ∧
    ¬CancelsBeforeForgetting makerSetup addresslessJob (.answered (rawOfferWith 2 (.object []))) 0
      (answersOf (.ok ⟨[], by decide, by decide⟩) (.ok ())) := by
  refine ⟨⟨_, _, rfl⟩, fun h => ?_⟩
  obtain ⟨result, job', snapshot, hx⟩ : ∃ result job' snapshot, cancelActiveOffersForJob makerSetup
      (answersOf (.ok ⟨[], by decide, by decide⟩) (.ok ())) (.answered (rawOfferWith 2 (.object []))) 0
      ⟨addresslessJob, []⟩ = .ok result ⟨job', [.persisted snapshot false (.ok ())]⟩ := ⟨_, _, _, rfl⟩
  obtain ⟨-, market, -, -, htracked⟩ := h.of_ok hx
  rcases htracked "0xaa" rfl with ⟨order, -, hcancelled⟩ | hgone
  · cases List.mem_singleton.mp hcancelled
  · exact hgone.2.1 rfl

end Artgod.Trading
