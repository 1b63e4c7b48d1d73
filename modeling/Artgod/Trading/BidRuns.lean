/-
# What a run of the strategy leaves

A run that can survey the market takes the job's offers down, keeps one of them, or places a new one and takes
the old ones down.  From these follow the one live offer (`single_live_offer`), the law of its price
(`bid_price_law`) and what holds of a kept offer's expiration (`kept_offer_outlives_window_iff`).
-/
import Artgod.Trading.BidExecution

namespace Artgod.Trading

open Js Machine

variable {setup : BidderSetup} {answers : MarketAnswers}

/-! ## 1. Three ways to settle -/

/-- The event cancels one of the offers that are not kept, or stores the state: nothing is placed. -/
def BidEvent.Tidies (keepOrderId : Option String) (offers : List Order) (event : BidEvent) : Prop :=
  event.CancelsAmong keepOrderId offers ∨ event.IsStateWrite

/-- Every offer that is not kept was cancelled. -/
def AllCancelled (keepOrderId : Option String) (offers : List Order) (events : List BidEvent) : Prop :=
  ∀ order ∈ offers, isKept keepOrderId order = false → .cancelled order (.ok ()) ∈ events

variable {R : String → JobRun → Prop} {market : MarketOffers} {myOffers : List Order}
  {prices : PriceRange}

theorem clearRuntimeBidDecision_spec {run : JobRun} (P : BidEvent → Prop) :
    Ends clearRuntimeBidDecision run
      (fun _ run' => Did P run run' ∧ run'.job.state.activeOrderId = run.job.state.activeOrderId) R :=
  ⟨.setState, rfl⟩

variable {evaluation : Evaluation} {job : ScheduledJob}

theorem settleJob_withdraws {run : JobRun} (h : evaluation.prices.desiredPrice ≤ 0) :
    Ends (settleJob setup answers evaluation) run
      (fun _ run' => Did (BidEvent.Tidies none evaluation.myOffers) run run' ∧
        (setup.isDryRun = false → AllCancelled none evaluation.myOffers run'.events) ∧
        (evaluation.myOffers ≠ [] → run'.job.state.activeOrderId.get = none))
      (fun _ run' => Did (BidEvent.Tidies none evaluation.myOffers) run run' ∧ ∃ event ∈ run'.events, event.Fails) := by
  unfold settleJob
  rw [if_pos h]
  by_cases hmine : evaluation.myOffers = []
  · rw [if_neg (not_not_intro hmine)]
    refine Ends.bind (clearRuntimeBidDecision_spec (R := fun _ _ => False) (BidEvent.Tidies none evaluation.myOffers))
      (fun _ cleared hcleared => ?_) fun _ _ hfalse => hfalse.elim
    refine persistJobRuntimeState_spec.mono (fun _ run' h => ?_) fun _ _ h => nomatch h.2.2.1
    refine ⟨hcleared.1.trans (h.2.mono fun _ => .inr), fun _ => ?_, fun hne => absurd hmine hne⟩
    rw [hmine]
    exact fun _ horder => absurd horder List.not_mem_nil
  · rw [if_pos hmine]
    refine Ends.bind cancelMakerOffers_spec (fun _ cancelled hcancelled => ?_)
      fun _ run' h => ⟨h.2.1.mono fun _ => .inl, h.2.2⟩
    refine clearTrackedOrder_spec.mono (fun _ run' h => ?_) fun _ _ h => h
    exact ⟨(hcancelled.2.1.mono fun _ => .inl).trans (h.1.mono fun _ => .inr),
      fun hdry order horder hkept => h.1.mem (hcancelled.2.2 hdry order horder hkept), fun _ => h.2⟩

/-- **A job keeps its offer at the price it wants,** if the highest one is not due for renewal. -/
theorem settleJob_keeps {run : JobRun} {kept : Order}
    (h : 0 < evaluation.prices.desiredPrice) (hrenewal : evaluation.renewalReason = none)
    (hkept : evaluation.myOffers.find? (fun offer => offer.price = evaluation.prices.desiredPrice) = some kept) :
    Ends (settleJob setup answers evaluation) run
      (fun _ run' => Did (BidEvent.Tidies (some kept.id) evaluation.myOffers) run run' ∧
        run'.job.state.Tracks kept.id kept.price ∧
        (setup.isDryRun = false → AllCancelled (some kept.id) evaluation.myOffers run'.events))
      (fun _ run' => Did (BidEvent.Tidies (some kept.id) evaluation.myOffers) run run' ∧
        run'.job.state.Tracks kept.id kept.price ∧ ∃ event ∈ run'.events, event.Fails) := by
  have hmine : evaluation.myOffers ≠ [] := List.ne_nil_of_mem (List.mem_of_find?_eq_some hkept)
  unfold settleJob
  rw [if_neg (not_le.mpr h), if_neg hmine, hrenewal, if_neg (by decide), hkept]
  unfold trackRuntimeBidDecision
  simp only [ends_bind, ends_setState]
  refine trackCurrentOrder_spec.mono (fun _ tracked htracked => ?_) fun _ _ h => h
  obtain ⟨hdid, hid, hprice⟩ := htracked
  have hstart : Did (BidEvent.Tidies (some kept.id) evaluation.myOffers) run tracked :=
    Did.trans (b := ⟨_, run.events⟩) .setState (hdid.mono fun _ => .inr)
  refine cancelMakerOffers_spec.mono (fun _ run' h => ?_) fun _ run' h => ?_
  · obtain ⟨hjob, hcancels, hall⟩ := h
    exact ⟨hstart.trans (hcancels.mono fun _ => .inl), hjob ▸ ⟨hid, hprice⟩, hall⟩
  · obtain ⟨hjob, hcancels, hfails⟩ := h
    exact ⟨hstart.trans (hcancels.mono fun _ => .inl), hjob ▸ ⟨hid, hprice⟩, hfails⟩

/-- The event belongs to the replacement of the offers by one at this price. -/
def BidEvent.Replaces (answers : MarketAnswers) (amount : Int) (offers : List Order) (event : BidEvent) : Prop :=
  event.Places answers amount ∨ event.CancelsAmong none offers

theorem placeTarget_spec {run : JobRun} :
    Ends (placeTarget setup answers evaluation) run
      (fun _ run' => Did (BidEvent.Places answers evaluation.prices.desiredPrice) run run' ∧
        (setup.isDryRun = false → ∃ placed, answers.placement = .ok placed ∧
          .placed evaluation.prices.desiredPrice answers.placement ∈ run'.events ∧
          run'.job.state.Tracks placed.orderHash evaluation.prices.desiredPrice))
      (fun _ run' => Did (BidEvent.Places answers evaluation.prices.desiredPrice) run run' ∧
        .placed evaluation.prices.desiredPrice answers.placement ∈ run'.events ∧
        (∃ event ∈ run'.events, event.Fails) ∧
        ∀ message, answers.placement = .error message →
          run'.job.state.activeOrderId = run.job.state.activeOrderId) := by
  unfold placeTarget
  refine Ends.bind (clearRuntimeBidDecision_spec (R := fun _ _ => False)
    (BidEvent.Places answers evaluation.prices.desiredPrice)) (fun _ cleared hcleared => ?_) fun _ _ hfalse => hfalse.elim
  refine placeAndTrack_spec.mono (fun _ run' h => ⟨hcleared.1.trans h.1, h.2⟩) fun _ run' h => ?_
  obtain ⟨hdid, hevent, hfails, hsame⟩ := h
  exact ⟨hcleared.1.trans hdid, hevent, hfails, fun message hmessage => (hsame message hmessage).trans hcleared.2⟩

/-- **Otherwise a job places its offer anew,** and takes the old ones down after that. -/
theorem settleJob_replaces {run : JobRun} (h : 0 < evaluation.prices.desiredPrice)
    (hreplace : evaluation.renewalReason.isSome = true ∨
      evaluation.myOffers.find? (fun offer => offer.price = evaluation.prices.desiredPrice) = none) :
    Ends (settleJob setup answers evaluation) run
      (fun _ run' => Did (BidEvent.Replaces answers evaluation.prices.desiredPrice evaluation.myOffers) run run' ∧
        (setup.isDryRun = false → (∃ placed, answers.placement = .ok placed ∧
            .placed evaluation.prices.desiredPrice answers.placement ∈ run'.events ∧
            run'.job.state.Tracks placed.orderHash evaluation.prices.desiredPrice) ∧
          AllCancelled none evaluation.myOffers run'.events))
      (fun _ run' => Did (BidEvent.Replaces answers evaluation.prices.desiredPrice evaluation.myOffers) run run' ∧
        (setup.isDryRun = false → .placed evaluation.prices.desiredPrice answers.placement ∈ run'.events) ∧
        (∃ event ∈ run'.events, event.Fails) ∧
        ∀ message, answers.placement = .error message → setup.isDryRun = false →
          Did (BidEvent.Places answers evaluation.prices.desiredPrice) run run' ∧
          run'.job.state.activeOrderId = run.job.state.activeOrderId) := by
  have hreplaceOffers : settleJob setup answers evaluation run = replaceOffers setup answers evaluation run := by
    unfold settleJob
    rw [if_neg (not_le.mpr h)]
    by_cases hmine : evaluation.myOffers = []
    · rw [if_pos hmine]
      unfold replaceOffers
      rw [hmine]
      -- nothing is cancelled after the placement
      show _ = (placeTarget setup answers evaluation >>= fun _ => pure PUnit.unit) run
      rw [bind_pure_unit]
    · rw [if_neg hmine]
      rcases hreplace with hrenewal | hnone
      · rw [if_pos hrenewal]
      · split
        · rfl
        · rw [hnone]
  unfold Ends
  rw [hreplaceOffers]
  refine Ends.bind placeTarget_spec (fun _ placed hplaced => ?_) fun _ run' h => ?_
  · refine cancelMakerOffers_spec.mono (fun _ run' h => ?_) fun _ run' h => ?_
    · obtain ⟨hjob, hcancels, hall⟩ := h
      refine ⟨(hplaced.1.mono fun _ => .inl).trans (hcancels.mono fun _ => .inr), fun hdry => ⟨?_, hall hdry⟩⟩
      obtain ⟨order, horder, hevent, htracks⟩ := hplaced.2 hdry
      exact ⟨order, horder, hcancels.mem hevent, hjob ▸ htracks⟩
    · obtain ⟨hjob, hcancels, hfails⟩ := h
      refine ⟨(hplaced.1.mono fun _ => .inl).trans (hcancels.mono fun _ => .inr), fun hdry => ?_, hfails,
        fun message hmessage hdry => ?_⟩
      · obtain ⟨order, -, hevent, -⟩ := hplaced.2 hdry
        exact hcancels.mem hevent
      obtain ⟨order, horder, -, -⟩ := hplaced.2 hdry
      rw [hmessage] at horder
      cases horder
  · obtain ⟨hdid, hevent, hfails, hsame⟩ := h
    exact ⟨hdid.mono fun _ => .inl, fun _ => hevent, hfails,
      fun message hmessage _ => ⟨hdid, hsame message hmessage⟩⟩

/-! ## 2. Outcomes -/

theorem Surveyed.did {run : JobRun}
    (h : Surveyed setup answers job market run myOffers prices) :
    Did BidEvent.IsStateWrite ⟨job, []⟩ run := by
  obtain ⟨read, -, hresolve⟩ := h.read
  exact (resolveTrackedActiveOrder_spec.of_ok hresolve).1

/-- An outcome as a moment of the run. -/
def JobOutcome.run (outcome : JobOutcome) : JobRun := ⟨outcome.job, outcome.events⟩

theorem executeJob_of_error {message : String} {failed : JobRun}
    (h : (evaluateJob setup answers >>= settleJob setup answers) ⟨job, []⟩ = .error message failed) :
    (executeJob setup answers job).error = some message ∧ (executeJob setup answers job).job = failed.job ∧
      Did (fun event => event.IsStateWrite ∧ ¬ event.Fails) failed (executeJob setup answers job).run := by
  have hstored : ∃ stored, persistJobRuntimeState setup answers (some message) false failed = .ok ⟨⟩ stored ∧
      stored.job = failed.job ∧ Did (fun event => event.IsStateWrite ∧ ¬ event.Fails) failed stored := by
    unfold persistJobRuntimeState
    cases setup.hasRuntimeStatePort with
    | false => exact ⟨failed, rfl, rfl, .refl _ failed⟩
    | true => exact ⟨_, rfl, rfl, .emit ⟨trivial, fun hfails => nomatch hfails.1⟩⟩
  obtain ⟨stored, hstored, hjob, hdid⟩ := hstored
  unfold executeJob JobOutcome.run
  rw [h]
  dsimp only
  rw [hstored]
  exact ⟨rfl, hjob, hdid⟩

theorem executeJob_of_surveyed {run : JobRun}
    (h : Surveyed setup answers job market run myOffers prices) {Q : PUnit → JobRun → Prop}
    (hends : Ends (settleJob setup answers (evaluationOf setup answers market run myOffers prices)) run Q R) :
    ((executeJob setup answers job).error = none ∧ Q ⟨⟩ (executeJob setup answers job).run) ∨
      ((executeJob setup answers job).error ≠ none ∧ ∃ message failed, R message failed ∧
        (executeJob setup answers job).job = failed.job ∧
        Did (fun event => event.IsStateWrite ∧ ¬ event.Fails) failed (executeJob setup answers job).run) := by
  have hevaluate := evaluateJob_eq_ok_iff.mpr ⟨market, myOffers, prices, h, rfl⟩
  cases hsettle : settleJob setup answers (evaluationOf setup answers market run myOffers prices) run with
  | ok u run' =>
    unfold executeJob JobOutcome.run
    rw [(Machine.bind_ok_of hevaluate).trans hsettle]
    exact .inl ⟨rfl, hends.of_ok hsettle⟩
  | error message failed =>
    obtain ⟨herror, hjob, hdid⟩ := executeJob_of_error ((Machine.bind_ok_of hevaluate).trans hsettle)
    exact .inr ⟨by rw [herror]; exact Option.some_ne_none _, message, failed, hends.of_error hsettle, hjob, hdid⟩

theorem executeJob_of_not_surveyed
    (h : ¬ ∃ market run myOffers prices, Surveyed setup answers job market run myOffers prices) :
    Did BidEvent.IsStateWrite ⟨job, []⟩ (executeJob setup answers job).run := by
  have hread : Ends (evaluateJob setup answers) ⟨job, []⟩ (fun _ _ => True)
      (fun _ run' => Did BidEvent.IsStateWrite ⟨job, []⟩ run') := by
    unfold evaluateJob
    refine ends_bind.mpr (ends_answered.mpr ⟨fun read _ => ?_, fun _ _ => .refl _ _⟩)
    refine Ends.bind resolveTrackedActiveOrder_spec (fun market run hrun => ?_) fun _ _ h => h
    simp only [ends_bind, ends_get, ends_answered, ends_ask, ends_pure, implies_true, true_and]
    exact ⟨fun _ _ => fun _ _ => hrun.1, fun _ _ => hrun.1⟩
  cases hevaluate : evaluateJob setup answers ⟨job, []⟩ with
  | ok evaluation run =>
    obtain ⟨market, myOffers, prices, hsurveyed, -⟩ := evaluateJob_eq_ok_iff.mp hevaluate
    exact absurd ⟨market, run, myOffers, prices, hsurveyed⟩ h
  | error message failed =>
    obtain ⟨-, -, hdid⟩ := executeJob_of_error (Machine.bind_error_of hevaluate)
    exact (hread.of_error hevaluate).trans (hdid.mono fun _ hevent => hevent.1)

/-! ## 3. One live offer -/

section LiveOffers

variable {job : ScheduledJob} {market : MarketOffers} {run : JobRun} {myOffers : List Order} {prices : PriceRange}

theorem Surveyed.mem (h : Surveyed setup answers job market run myOffers prices) {offer : Order}
    (hoffer : offer ∈ myOffers) : offer ∈ market.offers :=
  (sortByPrice_perm _).mem_iff.mp (List.mem_filter.mp ((managedOffers_sublist h.managed).subset hoffer)).1

theorem Surveyed.eq_of_id (h : Surveyed setup answers job market run myOffers prices) {a b : Order}
    (ha : a ∈ myOffers) (hb : b ∈ myOffers) (hid : a.id = b.id) : a = b :=
  List.inj_on_of_nodup_map market.distinct (h.mem ha) (h.mem hb) hid

variable {run' : JobRun} {amount : Int}

theorem Surveyed.mem_or (h : Surveyed setup answers job market run myOffers prices) {P : BidEvent → Prop}
    (hdid : Did P run run') {event : BidEvent} (hevent : event ∈ run'.events) :
    event.IsStateWrite ∨ P event := by
  rcases hdid.mem_or hevent with hbefore | hafter
  · rcases h.did.mem_or hbefore with hnil | hwrite
    · exact absurd hnil List.not_mem_nil
    · exact .inl hwrite
  · exact .inr hafter

variable {keepOrderId : Option String} {kept : Order}

theorem BidEvent.CancelsAmong.order {offers : List Order} {order : Order}
    {answer : Except String Unit} (h : (BidEvent.cancelled order answer).CancelsAmong keepOrderId offers) :
    order ∈ offers ∧ isKept keepOrderId order = false := by
  obtain ⟨order', horder', hkept, hevent⟩ := h
  rcases hevent with ⟨answer', heq⟩ | ⟨state, answer', heq⟩
  · cases heq
    exact ⟨horder', hkept⟩
  · cases heq

theorem Surveyed.placed_eq (h : Surveyed setup answers job market run myOffers prices) {price : Int}
    (hdid : Did (BidEvent.Replaces answers price myOffers) run run')
    {answer : Except String PlacedOrder} (hevent : .placed amount answer ∈ run'.events) :
    amount = price ∧ answer = answers.placement := by
  rcases h.mem_or hdid hevent with hwrite | (heq | hwrite) | ⟨_, -, -, ⟨_, heq⟩ | ⟨_, _, heq⟩⟩
  · cases hwrite
  · exact BidEvent.placed.inj heq
  · cases hwrite
  · cases heq
  · cases heq

theorem Surveyed.places_nothing (h : Surveyed setup answers job market run myOffers prices)
    (hdid : Did (BidEvent.Tidies keepOrderId myOffers) run run')
    (amount : Int) (answer : Except String PlacedOrder) : .placed amount answer ∉ run'.events := by
  intro hevent
  rcases h.mem_or hdid hevent with hwrite | ⟨_, -, -, ⟨_, heq⟩ | ⟨_, _, heq⟩⟩ | hwrite
  · cases hwrite
  · cases heq
  · cases heq
  · cases hwrite

theorem executeJob_places_nothing (h : Surveyed setup answers job market run myOffers prices)
    (hprice : prices.desiredPrice ≤ 0) (amount : Int) (answer : Except String PlacedOrder) :
    .placed amount answer ∉ (executeJob setup answers job).events := by
  rcases executeJob_of_surveyed h (settleJob_withdraws hprice) with ⟨-, hdone⟩ | ⟨-, message, failed, hfailed, -, hafter⟩
  · exact h.places_nothing hdone.1 amount answer
  · exact h.places_nothing (hfailed.1.trans (hafter.mono fun _ hevent => .inr hevent.1)) amount answer

theorem executeJob_keeps (h : Surveyed setup answers job market run myOffers prices)
    (hprice : 0 < prices.desiredPrice)
    (hrenewal : (evaluationOf setup answers market run myOffers prices).renewalReason = none)
    (hkept : myOffers.find? (fun offer => offer.price = prices.desiredPrice) = some kept) :
    (∀ amount answer, .placed amount answer ∉ (executeJob setup answers job).events) ∧
      (executeJob setup answers job).job.state.Tracks kept.id kept.price := by
  rcases executeJob_of_surveyed h (settleJob_keeps hprice hrenewal hkept) with
    ⟨-, hdone⟩ | ⟨-, message, failed, hfailed, hjob, hafter⟩
  · exact ⟨h.places_nothing hdone.1, hdone.2.1⟩
  · exact ⟨h.places_nothing (hfailed.1.trans (hafter.mono fun _ hevent => .inr hevent.1)), hjob ▸ hfailed.2.1⟩

theorem Evaluation.keeps_or_replaces (evaluation : Evaluation) : (evaluation.renewalReason = none ∧
      ∃ kept, evaluation.myOffers.find? (fun offer => offer.price = evaluation.prices.desiredPrice) = some kept) ∨
    (evaluation.renewalReason.isSome = true ∨
      evaluation.myOffers.find? (fun offer => offer.price = evaluation.prices.desiredPrice) = none) := by
  cases hrenewal : evaluation.renewalReason with
  | some reason => exact .inr (.inl rfl)
  | none =>
    cases hfound : evaluation.myOffers.find? (fun offer => offer.price = evaluation.prices.desiredPrice) with
    | some kept => exact .inl ⟨rfl, kept, rfl⟩
    | none => exact .inr (.inr rfl)

end LiveOffers

/-- A maker that bids on a token. -/
def makerSetup : BidderSetup where
  engine := asciiEngine
  makerAddress := "0x01"
  isDryRun := false
  scanSleepMs := 1000
  cachedMakerWethBalance := none
  runtimeOverride := none
  hasRuntimeStatePort := true

def tokenJob : ScheduledJob :=
  { terrainJob with
    target := .token "1"
    config := ⟨1000000000000000000, 0, 100000000000000, []⟩ }

/-- An own offer for the token. -/
def tokenOffer (id : String) (price : Int) (expirationTime : Option Rat) : Order where
  id := id
  price := price
  maker := "0x01"
  protocolAddress := some "0x02"
  placedAt := none
  expirationTime := expirationTime
  rawOrder := .undefined
  offerScope := .item
  discoverySource := .itemOffers

/-- These offers in the market, a placement that succeeds, and writes of this answer. -/
def answersWith (market : MarketOffers) (write : Except String Unit) : MarketAnswers where
  activeOffers := .ok market
  recovery := .ok .inactiveOrMissing
  placement := .ok ⟨"0xbb", "0x02", "", none⟩
  cancellation := fun _ => .ok ()
  persistence := fun _ => write
  recording := fun _ => write
  clock := fun _ => 0
  isoTime := fun _ => ""

/-- An own offer above the price that the job wants, which is due. -/
def highOffer : MarketOffers := ⟨[tokenOffer "0xaa" 200000000000000 none], by decide, by decide⟩

section Prices

variable {job : ScheduledJob} {market market' : MarketOffers} {run run' : JobRun} {myOffers myOffers' : List Order}
  {prices prices' : PriceRange}

theorem Surveyed.config (h : Surveyed setup answers job market run myOffers prices) : run.job.config = job.config := by
  rw [h.did.declaration]

theorem executeJob_config (h : Surveyed setup answers job market run myOffers prices) :
    (executeJob setup answers job).job.config = job.config := by
  have hsettle : Ends (settleJob setup answers (evaluationOf setup answers market run myOffers prices)) run
      (fun _ run' => run'.job.config = job.config) (fun _ run' => run'.job.config = job.config) := by
    have hsame : ∀ {P : BidEvent → Prop} {run' : JobRun}, Did P run run' → run'.job.config = job.config := by
      intro P run' hdid
      rw [hdid.declaration]
      exact h.config
    rcases le_or_gt prices.desiredPrice 0 with hprice | hprice
    · exact (settleJob_withdraws hprice).mono (fun _ _ h => hsame h.1) fun _ _ h => hsame h.1
    rcases (evaluationOf setup answers market run myOffers prices).keeps_or_replaces with
      ⟨hrenewal, kept, hkept⟩ | hreplace
    · exact (settleJob_keeps hprice hrenewal hkept).mono (fun _ _ h => hsame h.1) fun _ _ h => hsame h.1
    · exact (settleJob_replaces hprice hreplace).mono (fun _ _ h => hsame h.1) fun _ _ h => hsame h.1
  rcases executeJob_of_surveyed h hsettle with ⟨-, hdone⟩ | ⟨-, message, failed, hfailed, hjob, -⟩
  · exact hdone
  · rw [hjob]
    exact hfailed

/-- The offers of other makers are the same ones. -/
def SameBook (setup : BidderSetup) (market market' : MarketOffers) : Prop :=
  ∀ offer, isMakerOffer setup offer = false → (offer ∈ market'.offers ↔ offer ∈ market.offers)

theorem SameBook.bestCompetitorPrice (h : SameBook setup market market') :
    bestCompetitorPrice setup (sortByPrice market'.offers) = bestCompetitorPrice setup (sortByPrice market.offers) := by
  obtain ⟨hbound, hattained⟩ := @bestCompetitorPrice_spec setup market.offers
  obtain ⟨hbound', hattained'⟩ := @bestCompetitorPrice_spec setup market'.offers
  have hle : ∀ {a b : MarketOffers}, SameBook setup a b →
      (∃ offer ∈ b.offers, isMakerOffer setup offer = false ∧
        Artgod.Trading.bestCompetitorPrice setup (sortByPrice b.offers) = offer.price) →
      Artgod.Trading.bestCompetitorPrice setup (sortByPrice b.offers) ≤
        Artgod.Trading.bestCompetitorPrice setup (sortByPrice a.offers) := by
    rintro a b hsame ⟨offer, hoffer, hrival, hprice⟩
    rw [hprice]
    exact (@bestCompetitorPrice_spec setup a.offers).1 offer ((hsame offer hrival).mp hoffer) hrival
  rcases hattained with hsome | ⟨hnone, hzero⟩
  · obtain ⟨offer, hoffer, hrival, -⟩ := id hsome
    rcases hattained' with hsome' | ⟨hnone', -⟩
    · exact le_antisymm (hle h hsome') (hle (fun o ho => (h o ho).symm) hsome)
    · rw [hnone' offer ((h offer hrival).mpr hoffer)] at hrival
      cases hrival
  · rcases hattained' with ⟨offer, hoffer, hrival, -⟩ | ⟨-, hzero'⟩
    · rw [hnone offer ((h offer hrival).mp hoffer)] at hrival
      cases hrival
    · rw [hzero, hzero']

theorem surveyed_of_placed {amount : Int} {answer : Except String PlacedOrder}
    (hplaced : .placed amount answer ∈ (executeJob setup answers job).events) :
    ∃ market run myOffers prices, Surveyed setup answers job market run myOffers prices ∧
      amount = prices.desiredPrice ∧ 0 < prices.desiredPrice ∧
      ((evaluationOf setup answers market run myOffers prices).renewalReason.isSome = true ∨
        myOffers.find? (fun offer => offer.price = prices.desiredPrice) = none) := by
  by_cases hsurvey : ∃ market run myOffers prices, Surveyed setup answers job market run myOffers prices
  · obtain ⟨market, run, myOffers, prices, h⟩ := hsurvey
    have hprice : 0 < prices.desiredPrice := not_le.mp fun hle => executeJob_places_nothing h hle _ _ hplaced
    rcases (evaluationOf setup answers market run myOffers prices).keeps_or_replaces with
      ⟨hrenewal, kept, hkept⟩ | hreplace
    · exact absurd hplaced ((executeJob_keeps h hprice hrenewal hkept).1 _ _)
    refine ⟨market, run, myOffers, prices, h, ?_, hprice, hreplace⟩
    rcases executeJob_of_surveyed h (settleJob_replaces hprice hreplace) with
      ⟨-, hdid, -⟩ | ⟨-, message, failed, ⟨hdid, -⟩, -, hafter⟩
    · exact (h.placed_eq hdid hplaced).1
    · exact (h.placed_eq (hdid.trans (hafter.mono fun _ hevent => .inl (.inr hevent.1))) hplaced).1
  · rcases (executeJob_of_not_surveyed hsurvey).mem_or hplaced with hnil | hwrite
    · exact absurd hnil List.not_mem_nil
    · cases hwrite

theorem Surveyed.unique (h : Surveyed setup answers job market run myOffers prices)
    (h' : Surveyed setup answers job market' run' myOffers' prices') :
    market = market' ∧ run = run' ∧ myOffers = myOffers' ∧ prices = prices' := by
  obtain ⟨⟨read, hread, hresolve⟩, hmanaged, hpriced⟩ := h
  obtain ⟨⟨read', hread', hresolve'⟩, hmanaged', hpriced'⟩ := h'
  rw [hread] at hread'
  cases hread'
  rw [hresolve] at hresolve'
  cases hresolve'
  rw [hmanaged] at hmanaged'
  cases hmanaged'
  rw [hpriced] at hpriced'
  cases hpriced'
  exact ⟨rfl, rfl, rfl, rfl⟩

theorem Surveyed.same_price {later : MarketAnswers} (h : Surveyed setup answers job market run myOffers prices)
    (h' : Surveyed setup later (executeJob setup answers job).job market' run' myOffers' prices')
    (hbook : SameBook setup market market') : prices' = prices := by
  have hconfig : run'.job.config = run.job.config := by
    rw [h'.config, executeJob_config h, h.config]
  have hfloor : configuredFloor setup run'.job = configuredFloor setup run.job := by
    unfold configuredFloor
    rw [hconfig]
  have hceiling : configuredCeiling setup run'.job = configuredCeiling setup run.job := by
    unfold configuredCeiling
    rw [hconfig]
  have hpriced := h'.priced
  rw [hfloor, hceiling, hconfig, hbook.bestCompetitorPrice, h.priced] at hpriced
  exact (Except.ok.inj hpriced).symm

/-- **The price of an offer that a run tries to place is lawful,** and a later run on the same book wants it
again: with the offer in place it places another only to renew it. -/
theorem bid_price_law {amount : Int} {answer : Except String PlacedOrder}
    (hplaced : .placed amount answer ∈ (executeJob setup answers job).events) :
    ∃ market run myOffers prices, Surveyed setup answers job market run myOffers prices ∧
      (∀ offer ∈ market.offers, isMakerOffer setup offer = false →
        offer.price ≤ bestCompetitorPrice setup (sortByPrice market.offers)) ∧
      getEffectiveCeiling setup.cachedMakerWethBalance (configuredCeiling setup job) (configuredFloor setup job) =
        .ok prices.ceiling ∧
      LawfulBid setup.cachedMakerWethBalance (configuredFloor setup job) (configuredCeiling setup job)
        (bestCompetitorPrice setup (sortByPrice market.offers)) job.config.delta prices.ceiling amount ∧
      ∀ later market' run' myOffers' prices',
        Surveyed setup later (executeJob setup answers job).job market' run' myOffers' prices' →
        SameBook setup market market' →
        prices'.desiredPrice = amount ∧ (myOffers' ≠ [] → (∀ offer ∈ myOffers', offer.price = amount) →
            ∀ amount' answer',
              .placed amount' answer' ∈ (executeJob setup later (executeJob setup answers job).job).events →
              ∃ highest ∈ myOffers'.head?,
                getBidRenewalReason setup run'.job.state (later.clock run'.events.length) highest ≠ none) := by
  obtain ⟨market, run, myOffers, prices, h, rfl, hprice, -⟩ := surveyed_of_placed hplaced
  have hconfig : configuredFloor setup run.job = configuredFloor setup job ∧
      configuredCeiling setup run.job = configuredCeiling setup job := by
    unfold configuredFloor configuredCeiling
    rw [h.config]
    exact ⟨rfl, rfl⟩
  have hpriced := h.priced
  rw [hconfig.1, hconfig.2, h.config] at hpriced
  obtain ⟨ceiling, hceiling, hrest⟩ := bind_eq_ok.mp hpriced
  obtain ⟨floor, -, hrest⟩ := bind_eq_ok.mp hrest
  obtain ⟨desiredPrice, -, hpure⟩ := bind_eq_ok.mp hrest
  refine ⟨market, run, myOffers, prices, h, (bestCompetitorPrice_spec market.offers).1, ?_,
    resolvePrices_lawful hpriced hprice, ?_⟩
  · cases hpure
    exact hceiling
  intro later market' run' myOffers' prices' h' hbook
  have hsame := h.same_price h' hbook
  refine ⟨by rw [hsame], fun hne hown amount' answer' hplaced' => ?_⟩
  obtain ⟨market'', run'', myOffers'', prices'', h'', -, -, hreplace⟩ := surveyed_of_placed hplaced'
  obtain ⟨rfl, rfl, rfl, rfl⟩ := h'.unique h''
  obtain ⟨highest, rest, rfl⟩ := List.exists_cons_of_ne_nil hne
  have hfound : (highest :: rest).find? (fun offer => offer.price = prices'.desiredPrice) = some highest := by
    rw [hsame]
    exact List.find?_cons_of_pos (decide_eq_true (hown highest List.mem_cons_self))
  rcases hreplace with hrenewal | hnone
  · exact ⟨highest, rfl, Option.isSome_iff_ne_none.mp hrenewal⟩
  · rw [hfound] at hnone
    cases hnone

end Prices

theorem placed_bid_lawful : ∃ competitorPrice ceiling,
    LawfulBid none 0 1000000000000000000 competitorPrice 100000000000000 ceiling 100000000000000 := by
  obtain ⟨a, b, c, d, hevents⟩ : ∃ a b c d, (executeJob makerSetup (answersWith highOffer (.ok ())) tokenJob).events =
      [.placed 100000000000000 (.ok ⟨"0xbb", "0x02", "", none⟩), a, b, c, d] := ⟨_, _, _, _, rfl⟩
  obtain ⟨market, run, myOffers, prices, -, -, -, hlawful, -⟩ := bid_price_law (hevents ▸ List.mem_cons_self)
  exact ⟨_, _, hlawful⟩

/-! ## 5. Renewal -/

section Renewal

variable {job : ScheduledJob} {market : MarketOffers} {run : JobRun} {myOffers : List Order} {prices : PriceRange}

/-- The offer is known to expire, and not within the renewal window. -/
def OutlivesWindow (setup : BidderSetup) (state : BidderState) (now : Int) (offer : Order) : Prop :=
  ∃ expirationTimeMs, resolveKnownExpirationTimeMs state offer = some expirationTimeMs ∧
    setup.scanSleepMs * 2 ≤ expirationTimeMs - now

theorem getBidRenewalReason_eq_none {state : BidderState} {now : Int} {offer : Order} :
    getBidRenewalReason setup state now offer = none ↔ OutlivesWindow setup state now offer := by
  unfold getBidRenewalReason OutlivesWindow
  cases resolveKnownExpirationTimeMs state offer with
  | none => exact ⟨fun h => (nomatch h), fun ⟨_, h, _⟩ => (nomatch h)⟩
  | some expirationTimeMs =>
    dsimp only
    split
    · next hle => exact ⟨fun _ => ⟨_, rfl, hle⟩, fun _ => rfl⟩
    next hlt =>
    refine ⟨fun h => (nomatch h), ?_⟩
    rintro ⟨_, heq, hle⟩
    cases heq
    exact absurd hle hlt

theorem Surveyed.sorted (h : Surveyed setup answers job market run myOffers prices) :
    myOffers.Pairwise fun left right => left.price ≥ right.price :=
  ((sortByPrice_sorted _).filter _).sublist (managedOffers_sublist h.managed)

/-- **A run keeps one of the job's offers:** the job wants a bid, nothing is placed, and the offer is the
tracked one. -/
structure KeepsOffer (setup : BidderSetup) (answers : MarketAnswers) (job : ScheduledJob) (myOffers : List Order)
    (prices : PriceRange) (kept : Order) : Prop where
  own : kept ∈ myOffers
  wanted : 0 < prices.desiredPrice
  placesNothing : ∀ amount answer, .placed amount answer ∉ (executeJob setup answers job).events
  tracked : (executeJob setup answers job).job.state.activeOrderId.get = some kept.id

theorem keepsOffer_iff (hdry : setup.isDryRun = false) (h : Surveyed setup answers job market run myOffers prices)
    {kept : Order} : KeepsOffer setup answers job myOffers prices kept ↔
      0 < prices.desiredPrice ∧ (evaluationOf setup answers market run myOffers prices).renewalReason = none ∧
        myOffers.find? (fun offer => offer.price = prices.desiredPrice) = some kept := by
  constructor
  · rintro ⟨hown, hprice, hnothing, htracked⟩
    rcases (evaluationOf setup answers market run myOffers prices).keeps_or_replaces with
      ⟨hrenewal, offer, hoffer⟩ | hreplace
    · refine ⟨hprice, hrenewal, ?_⟩
      have hid := (executeJob_keeps h hprice hrenewal hoffer).2.1
      rw [htracked] at hid
      rw [h.eq_of_id hown (List.mem_of_find?_eq_some hoffer) (Option.some.inj hid)]
      exact hoffer
    · exfalso
      rcases executeJob_of_surveyed h (settleJob_replaces hprice hreplace) with
        ⟨-, -, hdone⟩ | ⟨-, message, failed, hfailed, -, hafter⟩
      · obtain ⟨⟨placed, -, hevent, -⟩, -⟩ := hdone hdry
        exact hnothing _ _ hevent
      · exact hnothing _ _ (hafter.mem (hfailed.2.1 hdry))
  · rintro ⟨hprice, hrenewal, hkept⟩
    obtain ⟨hnothing, hid, -⟩ := executeJob_keeps h hprice hrenewal hkept
    exact ⟨List.mem_of_find?_eq_some hkept, hprice, hnothing, hid⟩

/-- **The offer at the wanted price is due, below a higher one that is not:** the higher one is the one whose
expiration is looked at. -/
def DueBelowHighest (setup : BidderSetup) (state : BidderState) (now desiredPrice : Int) (myOffers : List Order) :
    Prop :=
  ∃ highest rest kept, myOffers = highest :: rest ∧ desiredPrice < highest.price ∧
    OutlivesWindow setup state now highest ∧ rest.find? (fun offer => offer.price = desiredPrice) = some kept ∧
    ¬ OutlivesWindow setup state now kept

/-- **The offer that a run keeps outlives the renewal window exactly when it is not due below a higher offer that
outlives it.** -/
theorem kept_offer_outlives_window_iff (hdry : setup.isDryRun = false)
    (h : Surveyed setup answers job market run myOffers prices) :
    (∀ kept, KeepsOffer setup answers job myOffers prices kept →
      OutlivesWindow setup run.job.state (answers.clock run.events.length) kept) ↔
    ¬ (0 < prices.desiredPrice ∧
      DueBelowHighest setup run.job.state (answers.clock run.events.length) prices.desiredPrice myOffers) := by
  constructor
  · rintro hall ⟨hprice, highest, rest, kept, rfl, hlt, hhighest, hfound, hdue⟩
    refine hdue (hall kept ((keepsOffer_iff hdry h).mpr ⟨hprice, getBidRenewalReason_eq_none.mpr hhighest, ?_⟩))
    rw [List.find?_cons_of_neg (by rw [decide_eq_true_eq]; exact hlt.ne')]
    exact hfound
  · intro hnot kept hkept
    obtain ⟨hprice, hrenewal, hfound⟩ := (keepsOffer_iff hdry h).mp hkept
    obtain ⟨highest, rest, rfl⟩ := List.exists_cons_of_ne_nil (List.ne_nil_of_mem hkept.own)
    have hhighest := getBidRenewalReason_eq_none.mp (show getBidRenewalReason setup run.job.state
      (answers.clock run.events.length) highest = none from hrenewal)
    by_cases hsame : highest.price = prices.desiredPrice
    · have hfirst : (highest :: rest).find? (fun offer => offer.price = prices.desiredPrice) = some highest :=
        List.find?_cons_of_pos (decide_eq_true hsame)
      rw [hfound] at hfirst
      exact Option.some.inj hfirst ▸ hhighest
    · rw [List.find?_cons_of_neg (by rw [decide_eq_true_eq]; exact hsame)] at hfound
      by_contra hdue
      -- the offers are sorted, so the one at the wanted price is below the highest
      have hle : kept.price ≤ highest.price :=
        (List.pairwise_cons.mp h.sorted).1 kept (List.mem_of_find?_eq_some hfound)
      have hkeptPrice : kept.price = prices.desiredPrice := by
        have hprice := List.find?_some hfound
        exact of_decide_eq_true hprice
      exact hnot ⟨hprice, highest, rest, kept, rfl, lt_of_le_of_ne (hkeptPrice ▸ hle) (Ne.symm hsame), hhighest, hfound,
        hdue⟩

end Renewal

/-- An own offer that is far from expiring, and one at the price the job wants that is not known to expire. -/
def farAndDueOffers : MarketOffers :=
  ⟨[tokenOffer "0xaa" 200000000000000 (some 1000), tokenOffer "0xbb" 100000000000000 none], by decide, by decide⟩

theorem tokenOffer_outlives_window (id : String) (price : Int) :
    OutlivesWindow makerSetup .empty 0 (tokenOffer id price (some 1000)) := by
  refine ⟨1000000, ?_, ?_⟩
  · unfold resolveKnownExpirationTimeMs toExpirationTimeMs tokenOffer
    norm_num
  · unfold makerSetup
    norm_num

/-- **A run keeps an offer that is not known to expire:** the highest of its two offers is far from expiring, and
above the price the job wants. -/
theorem due_offer_is_kept :
    Surveyed makerSetup (answersWith farAndDueOffers (.ok ())) tokenJob farAndDueOffers ⟨tokenJob, []⟩
        farAndDueOffers.offers ⟨1000000000000000000, 0, 100000000000000⟩ ∧
      KeepsOffer makerSetup (answersWith farAndDueOffers (.ok ())) tokenJob farAndDueOffers.offers
        ⟨1000000000000000000, 0, 100000000000000⟩ (tokenOffer "0xbb" 100000000000000 none) ∧
      ¬ OutlivesWindow makerSetup tokenJob.state 0 (tokenOffer "0xbb" 100000000000000 none) := by
  have hsurveyed : Surveyed makerSetup (answersWith farAndDueOffers (.ok ())) tokenJob farAndDueOffers ⟨tokenJob, []⟩
      farAndDueOffers.offers ⟨1000000000000000000, 0, 100000000000000⟩ := ⟨⟨_, rfl, rfl⟩, rfl, rfl⟩
  refine ⟨hsurveyed, (keepsOffer_iff rfl hsurveyed).mpr ⟨by decide, ?_, rfl⟩, ?_⟩
  · exact getBidRenewalReason_eq_none.mpr (tokenOffer_outlives_window "0xaa" 200000000000000)
  · rintro ⟨expirationTimeMs, hknown, -⟩
    cases hknown

/-- An own offer at the price that the job wants, far from expiring. -/
def wantedOffer : MarketOffers := ⟨[tokenOffer "0xaa" 100000000000000 (some 1000)], by decide, by decide⟩

theorem wanted_offer_outlives_window :
    KeepsOffer makerSetup (answersWith wantedOffer (.ok ())) tokenJob wantedOffer.offers
        ⟨1000000000000000000, 0, 100000000000000⟩ (tokenOffer "0xaa" 100000000000000 (some 1000)) ∧
      OutlivesWindow makerSetup tokenJob.state 0 (tokenOffer "0xaa" 100000000000000 (some 1000)) := by
  have hsurveyed : Surveyed makerSetup (answersWith wantedOffer (.ok ())) tokenJob wantedOffer ⟨tokenJob, []⟩
      wantedOffer.offers ⟨1000000000000000000, 0, 100000000000000⟩ := ⟨⟨_, rfl, rfl⟩, rfl, rfl⟩
  have hkept : KeepsOffer makerSetup (answersWith wantedOffer (.ok ())) tokenJob wantedOffer.offers
      ⟨1000000000000000000, 0, 100000000000000⟩ (tokenOffer "0xaa" 100000000000000 (some 1000)) :=
    (keepsOffer_iff rfl hsurveyed).mpr ⟨by decide,
      getBidRenewalReason_eq_none.mpr (tokenOffer_outlives_window "0xaa" 100000000000000), rfl⟩
  refine ⟨hkept, (kept_offer_outlives_window_iff rfl hsurveyed).mpr ?_ _ hkept⟩
  rintro ⟨-, highest, rest, kept, heq, -, -, hfound, -⟩
  cases heq
  cases hfound

end Artgod.Trading
