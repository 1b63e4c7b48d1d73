/-
# Own states of the bid book

A user selects a state, a price tier, or one of each; the bid book shows the own rows that match both, and the
opponents' rows of the same groups (`filterBiddingBidBookRowsByOwnFilters`).  `countBiddingBidBookOwnFilters`
counts the states under the selected tier and the tiers under the selected state, so that a count says how many
own rows a click would leave.
-/
import Artgod.Store.FirstByKey
import Artgod.Trading.BidderJobs
import Artgod.Trading.JobDeclarations
import Artgod.Trading.PriceTiers

namespace Artgod.Trading

open Js Store

/-! ## 1. States of a row -/

/-- `TRADING_BIDDING_BID_BOOK_ROW_MATERIALIZATION_KIND`. -/
inductive RowMaterializationKind
  | marketBid
  | ownJobIntent
deriving DecidableEq

/-- `TRADING_BIDDING_BID_BOOK_OWN_JOB_PHASE`. -/
inductive OwnJobPhase
  | waitingForBot
  | verifying
  | unconfirmed
  | queued
  | paused
  | authorizationRequired
  | authorizationUnavailable
  | replacing
  | canceling
  | cancelFailed
  | cancelled
deriving DecidableEq

/-- `TRADING_BIDDING_BID_BOOK_OWN_STATES`: phases, positions, constraints, and that nothing is known. -/
inductive OwnState
  | phase (phase : OwnJobPhase)
  | position (position : BidPosition)
  | constraint (constraint : BidConstraint)
  | unknown
deriving DecidableEq

/-- `COLLECTION_BIDDING_BID_BOOK_OWN_STATE_FILTERS`. -/
inductive OwnStateFilter
  | active
  | state (state : OwnState)
deriving DecidableEq

/-- `TradingBiddingBidBookOwnJob`. -/
structure OwnJob where
  jobId : String
  priceTierId : Option String
deriving DecidableEq

/-- The bot's last decision about the row, and the status of the job that it names. -/
structure OwnStatus where
  position : BidPosition
  constraints : List BidConstraint
  jobStatus : Option TradingJobStatus
deriving DecidableEq

/-- Where the row comes from. -/
structure Materialization where
  kind : RowMaterializationKind
  phase : Option OwnJobPhase
  status : Option TradingJobStatus
deriving DecidableEq

/-- `BiddingBidBookOwnStateSignals`. -/
structure OwnStateSignals where
  isOwn : Bool
  ownJob : Option OwnJob
  ownStatus : Option OwnStatus
  materialization : Materialization
deriving DecidableEq

/-- The states that `biddingBidBookOwnStates` pushes for an own row. -/
def pushedOwnStates (bid : OwnStateSignals) : List OwnState :=
  let jobStatus := bid.materialization.status <|> bid.ownStatus.bind OwnStatus.jobStatus
  let declared := if jobStatus = some .paused then [.phase .paused] else []
  declared ++
    match bid.ownStatus with
    | some ownStatus => .position ownStatus.position :: ownStatus.constraints.map .constraint
    | none =>
      if bid.materialization.kind = .ownJobIntent then [.phase (bid.materialization.phase.getD .queued)] else []

def biddingBidBookOwnStates (bid : OwnStateSignals) : List OwnState :=
  if bid.isOwn = false then []
  else if 0 < (pushedOwnStates bid).length then dropSeen id [] (pushedOwnStates bid)
  else [.unknown]

/-- `ownBidStateFilters`: the states, and `active` before them where none of them is a pause. -/
def ownBidStateFilters (bid : OwnStateSignals) : List OwnStateFilter :=
  let states := biddingBidBookOwnStates bid
  if 0 < states.length ∧ .phase .paused ∉ states then .active :: states.map .state else states.map .state

def bidMatchesOwnStateFilter (bid : OwnStateSignals) (state : Option OwnStateFilter) : Bool :=
  match state with
  | none => true
  | some state => state ∈ ownBidStateFilters bid

variable {bid : OwnStateSignals} {counts : OwnFilterCounts}

theorem biddingBidBookOwnStates_eq_nil :
    biddingBidBookOwnStates bid = [] ↔ bid.isOwn = false := by
  unfold biddingBidBookOwnStates
  split
  · next hown => exact iff_of_true rfl hown
  next hown =>
  refine iff_of_false (fun hnil => ?_) hown
  split at hnil
  · next hlength =>
    obtain ⟨state, hstate⟩ := List.exists_mem_of_length_pos hlength
    have hkept : state ∈ (dropSeen id [] (pushedOwnStates bid)).map id :=
      mem_map_dropSeen.mpr ⟨List.mem_map.mpr ⟨state, hstate, rfl⟩, List.not_mem_nil⟩
    rw [hnil] at hkept
    exact List.not_mem_nil hkept
  · exact List.cons_ne_nil _ _ hnil

theorem nodup_biddingBidBookOwnStates (bid : OwnStateSignals) : (biddingBidBookOwnStates bid).Nodup := by
  unfold biddingBidBookOwnStates
  split
  · exact List.nodup_nil
  split
  · have hnodup : ((dropSeen id [] (pushedOwnStates bid)).map id).Nodup := nodup_map_dropSeen [] _
    rwa [List.map_id] at hnodup
  · exact List.nodup_singleton _

theorem state_mem_ownBidStateFilters {state : OwnState} :
    .state state ∈ ownBidStateFilters bid ↔ state ∈ biddingBidBookOwnStates bid := by
  have hstates : OwnStateFilter.state state ∈ (biddingBidBookOwnStates bid).map .state ↔
      state ∈ biddingBidBookOwnStates bid :=
    List.mem_map_of_injective fun _ _ h => OwnStateFilter.state.inj h
  unfold ownBidStateFilters
  dsimp only
  split
  · rw [List.mem_cons, hstates]
    exact or_iff_right fun h => nomatch h
  · exact hstates

theorem active_mem_ownBidStateFilters {bid : OwnStateSignals} :
    .active ∈ ownBidStateFilters bid ↔ bid.isOwn = true ∧ .state (.phase .paused) ∉ ownBidStateFilters bid := by
  have hown : 0 < (biddingBidBookOwnStates bid).length ↔ bid.isOwn = true := by
    rw [List.length_pos_iff, ne_eq, biddingBidBookOwnStates_eq_nil, Bool.not_eq_false]
  rw [state_mem_ownBidStateFilters, ← hown]
  unfold ownBidStateFilters
  dsimp only
  split
  · next h => exact iff_of_true List.mem_cons_self h
  next h =>
  refine iff_of_false (fun hmem => ?_) h
  obtain ⟨state, -, heq⟩ := List.mem_map.mp hmem
  cases heq

theorem nodup_ownBidStateFilters (bid : OwnStateSignals) : (ownBidStateFilters bid).Nodup := by
  have hstates : ((biddingBidBookOwnStates bid).map OwnStateFilter.state).Nodup :=
    (nodup_biddingBidBookOwnStates bid).map fun _ _ h => OwnStateFilter.state.inj h
  unfold ownBidStateFilters
  dsimp only
  split
  · refine List.nodup_cons.mpr ⟨fun hmem => ?_, hstates⟩
    obtain ⟨state, -, heq⟩ := List.mem_map.mp hmem
    cases heq
  · exact hstates

/-! ## 2. Filters -/

/-- `CollectionBiddingBidBookPriceTierFilter`, as `parseBiddingBidBookPriceTierFilter` lets it through. -/
structure PriceTierFilter where
  text : String
  selects : text ≠ ""
deriving DecidableEq

/-- `TRADING_BIDDING_JOB_PRICING_SOURCE_KIND.Manual`: the jobs that no tier prices. -/
def PriceTierFilter.manual : PriceTierFilter := ⟨"manual", by decide⟩

def bidMatchesPriceTierFilter (bid : OwnStateSignals) (tier : Option PriceTierFilter) : Bool :=
  match tier with
  | none => true
  | some tier =>
    bid.isOwn &&
      match bid.ownJob with
      | none => false
      | some ownJob => if tier = .manual then ownJob.priceTierId = none else ownJob.priceTierId = some tier.text

/-- `BiddingBidBookOwnFilters`. -/
structure OwnFilters where
  ownStateFilter : Option OwnStateFilter
  priceTierFilter : Option PriceTierFilter

/-- Both selections match the own row. -/
def matchesOwnFilters (filters : OwnFilters) (bid : OwnStateSignals) : Bool :=
  bid.isOwn && bidMatchesOwnStateFilter bid filters.ownStateFilter &&
    bidMatchesPriceTierFilter bid filters.priceTierFilter

section Rows

variable {Row : Type} (signals : Row → OwnStateSignals) (groupKey : Row → String)

/-- `matchingOwnRows` and `matchingGroups`. -/
structure MatchingRows (Row : Type) where
  ownRows : List Row
  groups : List String

/-- The body of the loop that collects them. -/
def MatchingRows.add (filters : OwnFilters) (found : MatchingRows Row) (row : Row) : MatchingRows Row :=
  if matchesOwnFilters filters (signals row) then
    { ownRows := row :: found.ownRows, groups := groupKey row :: found.groups }
  else found

variable {filters : OwnFilters} {row : Row} {found : MatchingRows Row}

theorem MatchingRows.mem_ownRows_add {other : Row} :
    other ∈ (found.add signals groupKey filters row).ownRows ↔
      other ∈ found.ownRows ∨ other = row ∧ matchesOwnFilters filters (signals row) = true := by
  unfold MatchingRows.add
  split
  · next hmatch =>
    rw [List.mem_cons, and_iff_left hmatch]
    exact or_comm
  · next hmatch => exact (or_iff_left fun h => hmatch h.2).symm

theorem MatchingRows.mem_groups_add {group : String} :
    group ∈ (found.add signals groupKey filters row).groups ↔
      group ∈ found.groups ∨ matchesOwnFilters filters (signals row) = true ∧ groupKey row = group := by
  unfold MatchingRows.add
  split
  · next hmatch =>
    rw [List.mem_cons, and_iff_right hmatch, eq_comm]
    exact or_comm
  · next hmatch => exact (or_iff_left fun h => hmatch h.1).symm

theorem matchingRows_foldl (filters : OwnFilters) (rows : List Row) (found : MatchingRows Row) :
    (∀ row, row ∈ (rows.foldl (MatchingRows.add signals groupKey filters) found).ownRows ↔
      row ∈ found.ownRows ∨ row ∈ rows ∧ matchesOwnFilters filters (signals row) = true) ∧
    ∀ group, group ∈ (rows.foldl (MatchingRows.add signals groupKey filters) found).groups ↔
      group ∈ found.groups ∨ ∃ row ∈ rows, matchesOwnFilters filters (signals row) = true ∧ groupKey row = group := by
  induction rows generalizing found with
  | nil => simp
  | cons first rest ih =>
    obtain ⟨hrows, hgroups⟩ := ih (found.add signals groupKey filters first)
    rw [List.foldl_cons]
    constructor
    · intro row
      rw [hrows, MatchingRows.mem_ownRows_add, List.mem_cons, or_assoc, or_and_right]
      refine or_congr_right (or_congr_left (and_congr_right ?_))
      rintro rfl
      exact Iff.rfl
    · intro group
      rw [hgroups, MatchingRows.mem_groups_add, List.exists_mem_cons_iff, or_assoc]

variable [DecidableEq Row]

def filterBiddingBidBookRowsByOwnFilters (rows : List Row) (filters : OwnFilters) : List Row :=
  if filters.ownStateFilter = none ∧ filters.priceTierFilter = none then rows
  else
    let found := rows.foldl (MatchingRows.add signals groupKey filters) ⟨[], []⟩
    rows.filter fun row => row ∈ found.ownRows || (!(signals row).isOwn && groupKey row ∈ found.groups)

/-- **The own rows that are kept are those that match,** with a selection and without. -/
theorem ownRows_filterBiddingBidBookRowsByOwnFilters (rows : List Row) (filters : OwnFilters) :
    (filterBiddingBidBookRowsByOwnFilters signals groupKey rows filters).filter (fun row => (signals row).isOwn) =
      rows.filter fun row => matchesOwnFilters filters (signals row) := by
  unfold filterBiddingBidBookRowsByOwnFilters
  split
  · next hnone =>
    refine List.filter_congr fun row _ => ?_
    rw [matchesOwnFilters, hnone.1, hnone.2]
    exact (Bool.and_true _).symm.trans (congrArg (· && true) (Bool.and_true _).symm)
  · dsimp only
    rw [List.filter_filter]
    refine List.filter_congr fun row hrow => ?_
    have hfound := ((matchingRows_foldl signals groupKey filters rows ⟨[], []⟩).1 row).trans
      ((or_iff_right List.not_mem_nil).trans (and_iff_right hrow))
    cases hown : (signals row).isOwn with
    | true =>
      rw [Bool.true_and, Bool.not_true, Bool.false_and, Bool.or_false]
      exact Bool.eq_iff_iff.mpr ((decide_eq_true_iff).trans hfound)
    | false =>
      rw [Bool.false_and, matchesOwnFilters, hown, Bool.false_and, Bool.false_and]

/-- **The opponents' rows that are kept are those of the groups of the kept own rows.** -/
theorem mem_filterBiddingBidBookRowsByOwnFilters_opponent {rows : List Row}
    (hselected : ¬(filters.ownStateFilter = none ∧ filters.priceTierFilter = none)) (hrow : row ∈ rows)
    (hown : (signals row).isOwn = false) :
    row ∈ filterBiddingBidBookRowsByOwnFilters signals groupKey rows filters ↔
      ∃ anchor ∈ rows, matchesOwnFilters filters (signals anchor) = true ∧ groupKey anchor = groupKey row := by
  obtain ⟨hrows, hgroups⟩ := matchingRows_foldl signals groupKey filters rows ⟨[], []⟩
  have hnot : ¬(row ∈ rows ∧ matchesOwnFilters filters (signals row) = true) := by
    rintro ⟨-, hmatch⟩
    rw [matchesOwnFilters, hown, Bool.false_and, Bool.false_and] at hmatch
    cases hmatch
  unfold filterBiddingBidBookRowsByOwnFilters
  rw [if_neg hselected]
  dsimp only
  rw [List.mem_filter, and_iff_right hrow, Bool.or_eq_true, decide_eq_true_iff, hrows row, hown, Bool.not_false,
    Bool.true_and, decide_eq_true_iff, hgroups (groupKey row)]
  simp only [List.not_mem_nil, false_or]
  exact or_iff_right hnot

end Rows

/-! ## 3. Counts -/

/-- `TradingBiddingBidBookOwnStateCounts`. -/
structure OwnStateCounts where
  total : Nat
  states : OwnStateFilter → Nat

/-- `counts.states[state]++`. -/
def OwnStateCounts.increment (counts : OwnStateCounts) (state : OwnStateFilter) : OwnStateCounts :=
  { counts with states := Function.update counts.states state (counts.states state + 1) }

def addOwnBidStateCounts (counts : OwnStateCounts) (bid : OwnStateSignals) : OwnStateCounts :=
  (ownBidStateFilters bid).foldl OwnStateCounts.increment { counts with total := counts.total + 1 }

def countBiddingBidBookOwnStates (bids : List OwnStateSignals) : OwnStateCounts :=
  bids.foldl (fun counts bid => if bid.isOwn = false then counts else addOwnBidStateCounts counts bid)
    { total := 0, states := fun _ => 0 }

/-- `TradingBiddingBidBookPriceTier`. -/
structure BidBookPriceTier where
  tierId : String
  name : String
  status : PriceTierStatus
  sortOrder : Int

structure PriceTierCount where
  tier : BidBookPriceTier
  count : Nat

/-- `TradingBiddingBidBookPriceTierCounts`. -/
structure PriceTierCounts where
  manual : Nat
  tiers : List PriceTierCount

/-- `tiersById.get(tierId)`, and one more for the tier found.  The map holds the last tier of an id. -/
def countTier (tierId : String) : List PriceTierCount → List PriceTierCount
  | [] => []
  | counted :: rest =>
    if counted.tier.tierId = tierId ∧ ∀ later ∈ rest, later.tier.tierId ≠ tierId then
      { counted with count := counted.count + 1 } :: rest
    else counted :: countTier tierId rest

/-- A row of the job counts for its tier, or as priced by hand. -/
def PriceTierCounts.add (counts : PriceTierCounts) (ownJob : OwnJob) : PriceTierCounts :=
  match ownJob.priceTierId with
  | none => { counts with manual := counts.manual + 1 }
  | some tierId => { counts with tiers := countTier tierId counts.tiers }

/-- `ownBidStateCounts` and `ownPriceTierCounts`. -/
structure OwnFilterCounts where
  ownBidStateCounts : OwnStateCounts
  ownPriceTierCounts : PriceTierCounts

/-- The body of the loop of `countBiddingBidBookOwnFilters`. -/
def countOwnFiltersOf (filters : OwnFilters) (counts : OwnFilterCounts) (row : OwnStateSignals) : OwnFilterCounts :=
  if row.isOwn = false then counts
  else
    { ownBidStateCounts :=
        if bidMatchesPriceTierFilter row filters.priceTierFilter then
          addOwnBidStateCounts counts.ownBidStateCounts row
        else counts.ownBidStateCounts
      ownPriceTierCounts :=
        match row.ownJob with
        | none => counts.ownPriceTierCounts
        | some ownJob =>
          if bidMatchesOwnStateFilter row filters.ownStateFilter then counts.ownPriceTierCounts.add ownJob
          else counts.ownPriceTierCounts }

def countBiddingBidBookOwnFilters (rows : List OwnStateSignals) (filters : OwnFilters)
    (tiers : List BidBookPriceTier) : OwnFilterCounts :=
  rows.foldl (countOwnFiltersOf filters)
    { ownBidStateCounts := countBiddingBidBookOwnStates []
      ownPriceTierCounts := { manual := 0, tiers := tiers.map fun tier => { tier := tier, count := 0 } } }

/-! ### What one row adds -/

theorem foldl_increment (states : List OwnStateFilter) (counts : OwnStateCounts) :
    (states.foldl OwnStateCounts.increment counts).total = counts.total ∧
      ∀ state, (states.foldl OwnStateCounts.increment counts).states state =
        counts.states state + states.count state := by
  induction states generalizing counts with
  | nil => exact ⟨rfl, fun _ => rfl⟩
  | cons first rest ih =>
    obtain ⟨htotal, hstates⟩ := ih (counts.increment first)
    refine ⟨htotal, fun state => (hstates state).trans ?_⟩
    rw [List.count_cons]
    dsimp only [OwnStateCounts.increment]
    by_cases heq : state = first
    · subst heq
      rw [Function.update_self, beq_self_eq_true, if_pos rfl]
      omega
    · rw [Function.update_of_ne heq, if_neg (by rwa [beq_iff_eq, eq_comm])]
      omega

theorem addOwnBidStateCounts_spec (counts : OwnStateCounts) (bid : OwnStateSignals) :
    (addOwnBidStateCounts counts bid).total = counts.total + 1 ∧
      ∀ state, (addOwnBidStateCounts counts bid).states state =
        counts.states state + if bidMatchesOwnStateFilter bid (some state) then 1 else 0 := by
  obtain ⟨htotal, hstates⟩ :=
    foldl_increment (ownBidStateFilters bid) { counts with total := counts.total + 1 }
  refine ⟨htotal, fun state => (hstates state).trans ?_⟩
  rw [List.Nodup.count (nodup_ownBidStateFilters bid)]
  simp only [bidMatchesOwnStateFilter, decide_eq_true_eq]

theorem countTier_eq_map {tierId : String} {tiers : List PriceTierCount}
    (hnodup : (tiers.map fun counted => counted.tier.tierId).Nodup) :
    countTier tierId tiers = tiers.map fun counted =>
      { counted with count := counted.count + if counted.tier.tierId = tierId then 1 else 0 } := by
  induction tiers with
  | nil => rfl
  | cons first rest ih =>
    obtain ⟨hfirst, hrest⟩ := List.nodup_cons.mp hnodup
    unfold countTier
    by_cases hid : first.tier.tierId = tierId
    · have hlater : ∀ later ∈ rest, later.tier.tierId ≠ tierId := by
        intro later hmem heq
        exact hfirst (List.mem_map.mpr ⟨later, hmem, heq.trans hid.symm⟩)
      rw [if_pos ⟨hid, hlater⟩, List.map_cons, if_pos hid]
      congr 1
      refine ((List.map_congr_left fun later hmem => ?_).trans (List.map_id' rest)).symm
      rw [if_neg (hlater later hmem), Nat.add_zero]
    · rw [if_neg fun h => hid h.1, List.map_cons, if_neg hid, ih hrest]
      rfl

/-- The row is own, matches the selected state, and its job is priced by the tier of the id. -/
def countsForTier (filters : OwnFilters) (tierId : String) (row : OwnStateSignals) : Bool :=
  row.isOwn && bidMatchesOwnStateFilter row filters.ownStateFilter &&
    row.ownJob.any fun ownJob => ownJob.priceTierId = some tierId

theorem countsForTier_eq_matchesOwnFilters {filters : OwnFilters} {tier : PriceTierFilter} (htier : tier ≠ .manual)
    (row : OwnStateSignals) :
    countsForTier filters tier.text row = matchesOwnFilters { filters with priceTierFilter := some tier } row := by
  unfold countsForTier matchesOwnFilters bidMatchesPriceTierFilter
  cases row.isOwn with
  | false => rfl
  | true =>
    cases row.ownJob with
    | none => rfl
    | some ownJob =>
      dsimp only
      rw [if_neg htier, Bool.true_and]
      rfl

theorem countOwnFiltersOf_states (filters : OwnFilters) (state : OwnStateFilter) (counts : OwnFilterCounts)
    (row : OwnStateSignals) :
    (countOwnFiltersOf filters counts row).ownBidStateCounts.states state =
      counts.ownBidStateCounts.states state +
        if matchesOwnFilters { filters with ownStateFilter := some state } row then 1 else 0 := by
  unfold countOwnFiltersOf matchesOwnFilters
  cases hown : row.isOwn with
  | false => rfl
  | true =>
    dsimp only
    rw [if_neg (by decide)]
    cases hmatch : bidMatchesPriceTierFilter row filters.priceTierFilter with
    | false => rw [Bool.and_false]; rfl
    | true => rw [if_pos rfl, (addOwnBidStateCounts_spec _ _).2, Bool.true_and, Bool.and_true]

theorem countOwnFiltersOf_total (filters : OwnFilters) (counts : OwnFilterCounts) (row : OwnStateSignals) :
    (countOwnFiltersOf filters counts row).ownBidStateCounts.total =
      counts.ownBidStateCounts.total +
        if matchesOwnFilters { filters with ownStateFilter := none } row then 1 else 0 := by
  unfold countOwnFiltersOf matchesOwnFilters
  cases hown : row.isOwn with
  | false => rfl
  | true =>
    dsimp only
    rw [if_neg (by decide)]
    cases hmatch : bidMatchesPriceTierFilter row filters.priceTierFilter with
    | false => rw [Bool.and_false]; rfl
    | true => rw [if_pos rfl, (addOwnBidStateCounts_spec _ _).1]; rfl

theorem countOwnFiltersOf_manual (filters : OwnFilters) (counts : OwnFilterCounts) (row : OwnStateSignals) :
    (countOwnFiltersOf filters counts row).ownPriceTierCounts.manual =
      counts.ownPriceTierCounts.manual +
        if matchesOwnFilters { filters with priceTierFilter := some .manual } row then 1 else 0 := by
  unfold countOwnFiltersOf matchesOwnFilters bidMatchesPriceTierFilter
  cases row.isOwn with
  | false => rfl
  | true =>
    cases bidMatchesOwnStateFilter row filters.ownStateFilter with
    | false => cases row.ownJob <;> rfl
    | true =>
      cases row.ownJob with
      | none => rfl
      | some ownJob =>
        cases hid : ownJob.priceTierId with
        | none => simp [PriceTierCounts.add, hid]
        | some tierId => simp [PriceTierCounts.add, hid]

theorem countOwnFiltersOf_tiers (filters : OwnFilters) (row : OwnStateSignals)
    (hnodup : (counts.ownPriceTierCounts.tiers.map fun counted => counted.tier.tierId).Nodup) :
    (countOwnFiltersOf filters counts row).ownPriceTierCounts.tiers =
      counts.ownPriceTierCounts.tiers.map fun counted =>
        { counted with count := counted.count + if countsForTier filters counted.tier.tierId row then 1 else 0 } := by
  have hsame : ∀ f : PriceTierCount → Bool, (∀ counted, f counted = false) →
      counts.ownPriceTierCounts.tiers = counts.ownPriceTierCounts.tiers.map fun counted =>
        { counted with count := counted.count + if f counted then 1 else 0 } := by
    intro f hf
    refine ((List.map_congr_left fun counted _ => ?_).trans (List.map_id' _)).symm
    rw [hf, if_neg (by decide), Nat.add_zero]
  unfold countOwnFiltersOf
  cases hown : row.isOwn with
  | false => exact hsame _ fun counted => by rw [countsForTier, hown]; rfl
  | true =>
    rw [if_neg (by decide)]
    cases hjob : row.ownJob with
    | none => exact hsame _ fun counted => by rw [countsForTier, hjob]; exact Bool.and_false _
    | some ownJob =>
      cases hmatch : bidMatchesOwnStateFilter row filters.ownStateFilter with
      | false => exact hsame _ fun counted => by rw [countsForTier, hmatch, Bool.and_false]; rfl
      | true =>
        dsimp only
        rw [if_pos rfl, PriceTierCounts.add]
        cases hid : ownJob.priceTierId with
        | none =>
          refine hsame _ fun counted => ?_
          rw [countsForTier, hjob, Option.any_some, hid]
          exact Bool.and_false _
        | some tierId =>
          refine (countTier_eq_map hnodup).trans (List.map_congr_left fun counted _ => ?_)
          have hcounts : countsForTier filters counted.tier.tierId row = true ↔ counted.tier.tierId = tierId := by
            rw [countsForTier, hown, hmatch, hjob, Option.any_some, hid, Bool.true_and, Bool.true_and,
              decide_eq_true_iff, Option.some_inj]
            exact eq_comm
          simp only [hcounts]

/-! ### What all rows add -/

theorem foldl_countP {γ α : Type} (read : γ → Nat) {step : γ → α → γ} {p : α → Bool}
    (hstep : ∀ counts a, read (step counts a) = read counts + if p a then 1 else 0) (l : List α) (counts : γ) :
    read (l.foldl step counts) = read counts + l.countP p := by
  induction l generalizing counts with
  | nil => rfl
  | cons a rest ih =>
    rw [List.foldl_cons, ih, hstep, List.countP_cons]
    omega

theorem foldl_countOwnFiltersOf_tiers (filters : OwnFilters) (rows : List OwnStateSignals)
    (hnodup : (counts.ownPriceTierCounts.tiers.map fun counted => counted.tier.tierId).Nodup) :
    (rows.foldl (countOwnFiltersOf filters) counts).ownPriceTierCounts.tiers =
      counts.ownPriceTierCounts.tiers.map fun counted =>
        { counted with count := counted.count + rows.countP (countsForTier filters counted.tier.tierId) } := by
  induction rows generalizing counts with
  | nil => exact (List.map_id' _).symm
  | cons row rest ih =>
    have htiers := countOwnFiltersOf_tiers filters row hnodup
    rw [List.foldl_cons, ih ?_, htiers, List.map_map]
    · refine List.map_congr_left fun counted _ => ?_
      dsimp only [Function.comp_apply]
      rw [List.countP_cons]
      congr 1
      omega
    · rw [htiers, List.map_map]
      exact hnodup

/-- Tiers of one collection as its table lists them: no id twice. -/
structure PriceTierListing where
  tiers : List BidBookPriceTier
  distinct : (tiers.map BidBookPriceTier.tierId).Nodup

/-- **What is counted:** under the selected tier the rows of each state, under the selected state the rows of each
tier. -/
theorem countBiddingBidBookOwnFilters_spec (rows : List OwnStateSignals) (filters : OwnFilters)
    (listing : PriceTierListing) :
    let counts := countBiddingBidBookOwnFilters rows filters listing.tiers
    (∀ state, counts.ownBidStateCounts.states state =
      rows.countP (matchesOwnFilters { filters with ownStateFilter := some state })) ∧
    counts.ownBidStateCounts.total = rows.countP (matchesOwnFilters { filters with ownStateFilter := none }) ∧
    counts.ownPriceTierCounts.manual =
      rows.countP (matchesOwnFilters { filters with priceTierFilter := some .manual }) ∧
    counts.ownPriceTierCounts.tiers = listing.tiers.map fun tier =>
      { tier := tier, count := rows.countP (countsForTier filters tier.tierId) } := by
  intro counts
  refine ⟨fun state => ?_, ?_, ?_, ?_⟩
  · have hcount := foldl_countP (fun counts : OwnFilterCounts => counts.ownBidStateCounts.states state)
      (countOwnFiltersOf_states filters state) rows
    exact (hcount _).trans (Nat.zero_add _)
  · have hcount := foldl_countP (fun counts : OwnFilterCounts => counts.ownBidStateCounts.total)
      (countOwnFiltersOf_total filters) rows
    exact (hcount _).trans (Nat.zero_add _)
  · have hcount := foldl_countP (fun counts : OwnFilterCounts => counts.ownPriceTierCounts.manual)
      (countOwnFiltersOf_manual filters) rows
    exact (hcount _).trans (Nat.zero_add _)
  · refine (foldl_countOwnFiltersOf_tiers filters rows ?_).trans ?_
    · rw [List.map_map]
      exact listing.distinct
    · rw [List.map_map]
      refine List.map_congr_left fun tier _ => ?_
      dsimp only [Function.comp_apply]
      rw [Nat.zero_add]

section Facets

variable {Row : Type} [DecidableEq Row] (signals : Row → OwnStateSignals) (groupKey : Row → String)

/-- The own rows that the bid book shows under the filters. -/
def keptOwnRows (rows : List Row) (filters : OwnFilters) : List Row :=
  (filterBiddingBidBookRowsByOwnFilters signals groupKey rows filters).filter fun row => (signals row).isOwn

theorem countP_signals (rows : List Row) (filters : OwnFilters) :
    (rows.map signals).countP (matchesOwnFilters filters) = (keptOwnRows signals groupKey rows filters).length := by
  rw [keptOwnRows, ownRows_filterBiddingBidBookRowsByOwnFilters, List.countP_map, List.countP_eq_length_filter]
  rfl

variable {rows : List Row} {filters : OwnFilters}

theorem mem_keptOwnRows {row : Row} :
    row ∈ keptOwnRows signals groupKey rows filters ↔ row ∈ rows ∧ matchesOwnFilters filters (signals row) = true := by
  rw [keptOwnRows, ownRows_filterBiddingBidBookRowsByOwnFilters, List.mem_filter]

omit [DecidableEq Row] in
theorem matchesOwnFilters_active (filters : OwnFilters) (row : Row) :
    matchesOwnFilters { filters with ownStateFilter := some .active } (signals row) =
        (matchesOwnFilters { filters with ownStateFilter := none } (signals row) &&
          bidMatchesOwnStateFilter (signals row) (some .active)) ∧
      matchesOwnFilters { filters with ownStateFilter := some (.state (.phase .paused)) } (signals row) =
        (matchesOwnFilters { filters with ownStateFilter := none } (signals row) &&
          !bidMatchesOwnStateFilter (signals row) (some .active)) := by
  have hactive := @active_mem_ownBidStateFilters (signals row)
  unfold matchesOwnFilters bidMatchesOwnStateFilter
  cases hown : (signals row).isOwn with
  | false => exact ⟨rfl, rfl⟩
  | true =>
    rw [hown, and_iff_right rfl] at hactive
    cases bidMatchesPriceTierFilter (signals row) filters.priceTierFilter with
    | false => exact ⟨by rw [Bool.and_false]; rfl, by rw [Bool.and_false]; rfl⟩
    | true =>
      refine ⟨Bool.and_comm _ _, (Bool.and_comm _ _).trans ?_⟩
      simp only [Bool.true_and, hactive, decide_not, Bool.not_not]

theorem keptOwnRows_filter {narrower : OwnFilters} {p : Row → Bool}
    (h : ∀ row, matchesOwnFilters narrower (signals row) = (matchesOwnFilters filters (signals row) && p row)) :
    keptOwnRows signals groupKey rows narrower = (keptOwnRows signals groupKey rows filters).filter p := by
  simp only [keptOwnRows, ownRows_filterBiddingBidBookRowsByOwnFilters, List.filter_filter]
  exact List.filter_congr fun row _ => (h row).trans (Bool.and_comm _ _)

/-- **A facet counts the own rows that it would leave.**  Every count is the number of own rows that the bid book
shows when that state, or that tier, is selected beside the selection of the other kind.  The opponents' rows that it
shows with them are those of the same groups, and do not count.  Active and paused split the own rows under the
selected tier. -/
theorem ownFacets_count_kept (rows : List Row) (filters : OwnFilters) (listing : PriceTierListing) :
    let counts := countBiddingBidBookOwnFilters (rows.map signals) filters listing.tiers
    let kept := keptOwnRows signals groupKey rows
    (∀ state, counts.ownBidStateCounts.states state =
      (kept { filters with ownStateFilter := some state }).length) ∧
    counts.ownBidStateCounts.total = (kept { filters with ownStateFilter := none }).length ∧
    counts.ownPriceTierCounts.manual = (kept { filters with priceTierFilter := some .manual }).length ∧
    counts.ownPriceTierCounts.tiers.map PriceTierCount.tier = listing.tiers ∧
    (∀ counted ∈ counts.ownPriceTierCounts.tiers, ∀ selected : PriceTierFilter, selected ≠ .manual →
      selected.text = counted.tier.tierId →
      counted.count = (kept { filters with priceTierFilter := some selected }).length) ∧
    (∀ selected : OwnFilters, ¬(selected.ownStateFilter = none ∧ selected.priceTierFilter = none) →
      ∀ row ∈ rows, (signals row).isOwn = false →
        (row ∈ filterBiddingBidBookRowsByOwnFilters signals groupKey rows selected ↔
          ∃ anchor ∈ kept selected, groupKey anchor = groupKey row)) ∧
    (∀ row ∈ kept { filters with ownStateFilter := none },
      row ∈ kept { filters with ownStateFilter := some .active } ↔
        row ∉ kept { filters with ownStateFilter := some (.state (.phase .paused)) }) ∧
    counts.ownBidStateCounts.total =
      counts.ownBidStateCounts.states .active + counts.ownBidStateCounts.states (.state (.phase .paused)) := by
  intro counts kept
  obtain ⟨hstates, htotal, hmanual, htiers⟩ := countBiddingBidBookOwnFilters_spec (rows.map signals) filters listing
  simp only [countP_signals signals groupKey] at hstates htotal hmanual
  refine ⟨hstates, htotal, hmanual, ?_, ?_, ?_, ?_, ?_⟩
  · rw [htiers, List.map_map]
    exact List.map_id' _
  · intro counted hcounted selected hselected htext
    rw [htiers] at hcounted
    obtain ⟨tier, -, rfl⟩ := List.mem_map.mp hcounted
    dsimp only at htext ⊢
    rw [← countP_signals, ← htext]
    exact List.countP_congr fun row _ => by rw [countsForTier_eq_matchesOwnFilters hselected]
  · intro selected hselected row hrow hown
    rw [mem_filterBiddingBidBookRowsByOwnFilters_opponent signals groupKey hselected hrow hown]
    refine exists_congr fun anchor => ?_
    rw [mem_keptOwnRows, and_assoc]
  · intro row hrow
    obtain ⟨hactive, hpaused⟩ := matchesOwnFilters_active signals filters row
    obtain ⟨hmem, hmatch⟩ := (mem_keptOwnRows signals groupKey).mp hrow
    rw [mem_keptOwnRows, mem_keptOwnRows, hactive, hpaused, hmatch, Bool.true_and, Bool.true_and,
      and_iff_right hmem, and_iff_right hmem]
    cases bidMatchesOwnStateFilter (signals row) (some .active) <;> decide
  · rw [hstates, hstates, htotal,
      keptOwnRows_filter signals groupKey fun row => (matchesOwnFilters_active signals filters row).1,
      keptOwnRows_filter signals groupKey fun row => (matchesOwnFilters_active signals filters row).2]
    exact List.length_eq_length_filter_add _

end Facets

/-- A market row of the maker that wins at its ceiling, and one of an opponent. -/
def contestedRows : List OwnStateSignals :=
  [{ isOwn := true, ownJob := some { jobId := "job", priceTierId := none }
     ownStatus := some { position := .winning, constraints := [.ceiling], jobStatus := some .enabled }
     materialization := { kind := .marketBid, phase := none, status := none } },
   { isOwn := false, ownJob := none, ownStatus := none
     materialization := { kind := .marketBid, phase := none, status := none } }]

theorem contestedRows_counts :
    let counts := countBiddingBidBookOwnFilters contestedRows ⟨none, none⟩ []
    counts.ownBidStateCounts.states .active = 1 ∧
      (filterBiddingBidBookRowsByOwnFilters id (fun _ => "token") contestedRows ⟨some .active, none⟩).length = 2 ∧
      counts.ownBidStateCounts.total = 1 ∧
      counts.ownBidStateCounts.states (.state (.position .winning)) = 1 ∧
      counts.ownBidStateCounts.states (.state (.constraint .ceiling)) = 1 := by
  decide

end Artgod.Trading
