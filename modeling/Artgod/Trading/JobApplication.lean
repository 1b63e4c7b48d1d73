/-
# Applying a declared job

A command makes the bidder take a job over as the database declares it now
(`BiddingJobCommandReconciler.applyDesiredJob`).  `addJob` lays the declared state over that of the job it
replaces, so that an order which was verified for the revision before counts for the new one, and the command
ends without a run of the strategy (`changed_job_refreshed_iff`).
-/
import Artgod.Trading.BidRuns
import Artgod.Trading.BidderSchedule
import Artgod.Trading.JobChanges
import Artgod.Trading.JobSource

namespace Artgod.Trading

open Store Js

/-! ## 1. The rows of the source -/

/-- The columns that the API neither reads nor writes: `slug` of the collections, and two of the runtime
state. -/
structure BotColumns where
  collectionSlug : Nat → String
  activeOrderVerifiedAt : String → Option String
  runtimeUpdatedAt : String → Option String

/-- What a source of jobs is built with; `traitsJson` is the text of a column of traits. -/
structure JobSourceEnv where
  mandate : BiddingMandate
  jobs : JobsEnv
  engine : OfferEngine
  parseJson : String → Except String Value
  traitsJson : List TraitCriterion → String

/-- `BiddingJobRow`. -/
structure JobSourceRow where
  job : JobRow
  spec : SpecRow
  collection : CollectionRow
  collectionSlug : String
  runtime : Option RuntimeRow
  activeOrderVerifiedAt : Option String
  runtimeUpdatedAt : Option String

/-- The joins of `selectFields`. -/
def JobsDb.sourceRow (db : JobsDb) (columns : BotColumns) (job : JobRow) : Option JobSourceRow := do
  let spec ← db.specs.get? job.jobId
  let collection ← db.outside.collections.get? job.collectionId
  pure {
    job := job
    spec := spec
    collection := collection
    collectionSlug := columns.collectionSlug job.collectionId
    runtime := db.outside.runtime.get? job.jobId
    activeOrderVerifiedAt := columns.activeOrderVerifiedAt job.jobId
    runtimeUpdatedAt := columns.runtimeUpdatedAt job.jobId }

namespace JobSourceEnv

variable (env : JobSourceEnv) (columns : BotColumns) (db : JobsDb)

def selectJobById (jobId : String) : Option JobSourceRow :=
  ((db.jobs.get? jobId).filter fun job => job.chainId = env.mandate.chainId).bind (db.sourceRow columns)

variable (row : JobSourceRow)

def isCollectionAuthorized : Bool :=
  env.mandate.authorizesCollection env.jobs.platform row.job.collectionId row.collection.address
    row.collection.openseaSlug

def parseWei (value field jobId : String) : Except String Int :=
  match env.engine.toBigInt (.string value) with
  | some wei => .ok wei
  | none => .error s!"Invalid persisted bidding {field}: expected wei string for jobId={jobId}"

def parseOptionalWei (value : Option String) (field jobId : String) : Except String (Option Int) :=
  match value with
  | none => .ok none
  | some value => some <$> env.parseWei value field jobId

def parseAddress (value name : String) : Except String String := do
  let normalized := toLowerCase env.jobs.platform (← parseNonEmptyString (some value) name)
  if isHexOfLength 40 normalized then return normalized
  else throw s!"Invalid {name}: {value}"

def parseCollectionId (value : Nat) (jobId : String) : Except String Nat :=
  if maxSafeInteger < value ∨ value = 0 then .error s!"Invalid collection_id for jobId={jobId}: {value}"
  else .ok value

/-- A text that is there and not blank. -/
def presentText (value : Option String) : Option String := value.filter fun text => trim text ≠ ""

/-- `parseOptionalCollectionSlug(...) ?? parseNonEmptyString(collection_slug)`, or the marketplace's slug
alone where the job is to bid. -/
def sourceSlug (forBidding : Bool) : Except String String :=
  if forBidding then
    parseNonEmptyString row.collection.openseaSlug s!"collection_opensea_slug for jobId={row.job.jobId}"
  else
    match presentText row.collection.openseaSlug with
    | some slug => .ok (trim slug)
    | none => parseNonEmptyString (some row.collectionSlug) s!"collection_slug for jobId={row.job.jobId}"

def mapRuntimeState (requireCurrentRevision : Bool) : Except String BidderState :=
  match row.runtime, truthyText row.runtimeUpdatedAt with
  | some runtime, some _ =>
    if requireCurrentRevision ∧ runtime.jobRevision ≠ some row.job.revision then .ok .empty
    else do
      let currentPrice ← env.parseOptionalWei runtime.currentPriceWei "current_price_wei" row.job.jobId
      return {
        BidderState.empty with
        activeOrderId := .own (presentText runtime.activeOrderId)
        activeProtocolAddress := .own (presentText runtime.activeProtocolAddress)
        activeOrderPlacedAt := .own (presentText runtime.activeOrderPlacedAt)
        activeOrderVerifiedAt := .own (presentText row.activeOrderVerifiedAt)
        currentPrice := .own currentPrice
        activeExpirationTimeMs := .own (runtime.activeExpirationTimeMs.map fun ms => (ms : Rat)) }
  | _, _ => .ok .empty

/-- `extraCompetitionTraits` of the configuration; only a collection job has any. -/
def extraCompetitionTraits (row : JobSourceRow) : Except String (List TraitSelector) :=
  match row.job.targetKind with
  | .collection => do
    let targetTraits ← parseTraitRecords env.parseJson (row.spec.targetTraits.map env.traitsJson)
      s!"target_traits_json for jobId={row.job.jobId}"
    match mapBiddingCompetitionPresetRow env.jobs db.outside row.spec.competitionPresetVersionId
        env.mandate.chainId row.job.collectionId (targetTraits.map fun trait => ⟨trait.type, trait.value⟩) with
    | .ok preset => return (preset.map (·.extraCompetitionTraits)).getD []
    | .error (.error message) => throw message
    | .error (.sqlite message) => throw message
    | .error (.tradingValidation message) => throw message
    | .error (.traitCompetitionValidation message) => throw message
  | _ => .ok []

def checkRange (floor ceiling delta : Int) (jobId : String) : Except String PUnit :=
  if floor < 0 ∨ ceiling < 0 then
    .error s!"Invalid persisted bidding config: floor and ceiling must be >= 0 for jobId={jobId}"
  else if delta ≤ 0 then
    .error s!"Invalid persisted bidding config: delta must be > 0 for jobId={jobId}"
  else if ceiling < floor then
    .error s!"Invalid persisted bidding config: floor must be <= ceiling for jobId={jobId}"
  else .ok ⟨⟩

def mapJobRow (forBidding : Bool) : Except String ScheduledJob := do
  let jobId := row.job.jobId
  let floor ← env.parseWei row.spec.floorWei "floor_wei" jobId
  let ceiling ← env.parseWei row.spec.ceilingWei "ceiling_wei" jobId
  let delta ← env.parseWei row.spec.deltaWei "delta_wei" jobId
  checkRange floor ceiling delta jobId
  let id ← parseNonEmptyString (some jobId) "job_id"
  let collectionId ← parseCollectionId row.job.collectionId jobId
  let collectionAddress ← env.parseAddress row.collection.address s!"collection_address for jobId={jobId}"
  let collectionSlug ← sourceSlug row forBidding
  let target ← JobTargetRow.mapTarget {
    jobId := jobId
    targetKind := row.job.targetKind
    tokenId := row.job.tokenId
    quantity := row.spec.quantity.map fun quantity => Number.finite quantity
    targetTraitsJson := row.spec.targetTraits.map env.traitsJson
    competitorTraitsJson := row.spec.competitorTraits.map env.traitsJson } env.parseJson
  let extraCompetitionTraits ← env.extraCompetitionTraits db row
  let state ← env.mapRuntimeState row forBidding
  return {
    collectionId := collectionId
    collectionAddress := collectionAddress
    collectionSlug := collectionSlug
    target := target
    id := id
    revision := row.job.revision
    config := ⟨ceiling, floor, delta, extraCompetitionTraits⟩
    state := state }

def loadEnabledJobById (jobId : String) : Except String (Option ScheduledJob) :=
  match env.selectJobById columns db jobId with
  | none => .ok none
  | some row =>
    if row.job.status = .enabled ∧ env.isCollectionAuthorized row then some <$> env.mapJobRow db row true
    else .ok none

/-! ## 2. What a declaration comes to

A job is to be scheduled when its declaration is enabled and its collection authorized, with the revision
of the declaration. -/

end JobSourceEnv

section Loads

variable {env : JobSourceEnv} {columns : BotColumns} {db : JobsDb}

end Loads

/-! ## 3. What the bidder checks -/

structure RuntimeSatisfactionSnapshot where
  activeOrderId : String
  currentPrice : Int
  activeOrderVerifiedAt : String

/-- The state names an order with its price and the time at which it was verified. -/
def BidderState.satisfaction (state : BidderState) : Option RuntimeSatisfactionSnapshot := do
  let activeOrderId ← truthyText state.activeOrderId.get
  let currentPrice ← state.currentPrice.get
  let activeOrderVerifiedAt ← truthyText state.activeOrderVerifiedAt.get
  pure ⟨activeOrderId, currentPrice, activeOrderVerifiedAt⟩

namespace BidderSchedule

variable (engine : TraitEngine) (s : BidderSchedule)

def hasSameSatisfiedDeclaration (currentJob desiredJob : ScheduledJob) : Bool :=
  currentJob.revision = desiredJob.revision && currentJob.config = desiredJob.config &&
    hasSameTargetIdentity engine currentJob desiredJob

def getSatisfiedRuntimeSnapshot (desiredJob : ScheduledJob) : Option RuntimeSatisfactionSnapshot := do
  let currentJob ← s.jobs.get desiredJob.id
  if hasSameSatisfiedDeclaration engine currentJob desiredJob then currentJob.state.satisfaction else none

/-- The state that the job gets when it is added: its own, laid over the one held for the same target. -/
def mergedState (job : ScheduledJob) : BidderState :=
  match s.jobs.get job.id with
  | none => job.state
  | some existingJob => (inheritState engine existingJob job).state

/-- The index has another job for the token. -/
def isTokenTaken (job : ScheduledJob) : Bool :=
  match job.target with
  | .token tokenId =>
    let existingJobId :=
      (s.tokenJobIdByCollectionToken.get (makeCollectionTokenKey job.collectionSlug tokenId)).getD ""
    existingJobId ≠ "" ∧ existingJobId ≠ job.id
  | _ => false

end BidderSchedule

section Checks

variable {engine : TraitEngine} {s : BidderSchedule}

theorem matchesExactTraitTargets_refl (criteria : List BiddingTraitCriterion) :
    matchesExactTraitTargets engine criteria criteria = true := by
  simp [matchesExactTraitTargets]

theorem hasSameSatisfiedDeclaration_state (job : ScheduledJob) (state : BidderState) :
    BidderSchedule.hasSameSatisfiedDeclaration engine { job with state := state } job = true := by
  have htarget : hasSameTargetIdentity engine { job with state := state } job = true := by
    unfold hasSameTargetIdentity
    rw [if_neg (by simp)]
    cases job.target with
    | token tokenId => simp
    | collection quantity traits => exact matchesExactTraitTargets_refl _
    | competitiveTrait quantity targetTrait competitorTraits => exact matchesExactTraitTargets_refl _
  simp [BidderSchedule.hasSameSatisfiedDeclaration, htarget]

theorem replaceJob_job (job : ScheduledJob) :
    (s.replaceJob engine job).1 = { job with state := s.mergedState engine job } := by
  unfold BidderSchedule.replaceJob BidderSchedule.mergedState
  cases s.jobs.get job.id with
  | none => rfl
  | some existingJob =>
    dsimp only
    unfold BidderSchedule.inheritState
    split
    · rfl
    · rfl

theorem get_addJob (job : ScheduledJob) (jobId : String) : (s.addJob engine job).2.jobs.get jobId =
      if jobId = job.id then some { job with state := s.mergedState engine job } else s.jobs.get jobId := by
  rw [jobs_addJob_set, OrderedMap.get_set, replaceJob_job]

/-- The map has every job under its id. -/
def BidderSchedule.KeyedById (s : BidderSchedule) : Prop := ∀ id job, s.jobs.get id = some job → job.id = id

theorem BidderSchedule.KeyedById.create : BidderSchedule.create.KeyedById := fun _ _ h => nomatch h

theorem BidderSchedule.KeyedById.addJob (h : s.KeyedById) (job : ScheduledJob) :
    (s.addJob engine job).2.KeyedById := by
  intro id held hheld
  rw [get_addJob] at hheld
  split at hheld
  · next hid =>
    cases hheld
    exact hid.symm
  · exact h id held hheld

theorem getSatisfiedRuntimeSnapshot_addJob (job : ScheduledJob) :
    (s.addJob engine job).2.getSatisfiedRuntimeSnapshot engine job = (s.mergedState engine job).satisfaction := by
  unfold BidderSchedule.getSatisfiedRuntimeSnapshot
  rw [get_addJob, if_pos rfl]
  exact if_pos (hasSameSatisfiedDeclaration_state job _)

theorem removeJobFromIndexes_holder (existingJob : ScheduledJob) (key : String) :
    let held := (s.tokenJobIdByCollectionToken.get key).getD ""
    let left := ((s.removeJobFromIndexes existingJob).tokenJobIdByCollectionToken.get key).getD ""
    (left ≠ "" ∧ left ≠ existingJob.id) ↔ held ≠ "" ∧ held ≠ existingJob.id := by
  dsimp only
  have hcollection : ∀ (s' : BidderSchedule) slug id,
      (s'.removeFromCollection slug id).tokenJobIdByCollectionToken = s'.tokenJobIdByCollectionToken := by
    intro s' slug id
    unfold BidderSchedule.removeFromCollection
    split
    · rfl
    · split <;> rfl
  unfold BidderSchedule.removeJobFromIndexes
  split
  · next tokenId _ =>
    dsimp only
    rw [hcollection]
    split
    · next hmine =>
      dsimp only
      rw [OrderedMap.get_delete]
      split
      · next hkey =>
        rw [hkey, hmine]
        simp
      · rfl
    · rfl
  · rfl

theorem addJobToIndexes_error_iff {job : ScheduledJob} :
    (∃ error, s.addJobToIndexes job = .error error) ↔ s.isTokenTaken job = true := by
  unfold BidderSchedule.addJobToIndexes BidderSchedule.isTokenTaken
  cases job.target with
  | token tokenId =>
    dsimp only
    rw [decide_eq_true_iff]
    split
    · next htaken => exact iff_of_true ⟨_, rfl⟩ htaken
    · next hfree => exact iff_of_false (by rintro ⟨_, ⟨⟩⟩) hfree
  | collection quantity traits => exact iff_of_false (by rintro ⟨_, ⟨⟩⟩) Bool.false_ne_true
  | competitiveTrait quantity targetTrait competitorTraits =>
    exact iff_of_false (by rintro ⟨_, ⟨⟩⟩) Bool.false_ne_true

theorem addJob_error_iff (job : ScheduledJob)
    (hid : ∀ held, s.jobs.get job.id = some held → held.id = job.id) :
    (s.addJob engine job).1 ≠ none ↔ s.isTokenTaken job = true := by
  have hjob := @replaceJob_job engine s job
  have hthrows : (s.addJob engine job).1 ≠ none ↔
      ∃ error, (s.replaceJob engine job).2.addJobToIndexes (s.replaceJob engine job).1 = .error error := by
    unfold BidderSchedule.addJob
    dsimp only
    split
    · next error herror => exact iff_of_true nofun ⟨error, herror⟩
    next s' hok =>
    refine iff_of_false (fun h => h rfl) ?_
    rintro ⟨error, herror⟩
    rw [hok] at herror
    cases herror
  rw [hthrows, addJobToIndexes_error_iff, hjob]
  unfold BidderSchedule.isTokenTaken
  cases htarget : job.target with
  | token tokenId =>
    dsimp only
    rw [decide_eq_true_iff, decide_eq_true_iff]
    unfold BidderSchedule.replaceJob
    cases hget : s.jobs.get job.id with
    | none => exact Iff.rfl
    | some existingJob =>
      have hheld := hid existingJob hget
      have h := removeJobFromIndexes_holder (s := s) existingJob
        (BidderSchedule.makeCollectionTokenKey job.collectionSlug tokenId)
      rw [hheld] at h
      exact h
  | collection quantity traits => exact Iff.rfl
  | competitiveTrait quantity targetTrait competitorTraits => exact Iff.rfl

end Checks

/-! ## 4. The application -/

/-- What the application of a command throws. -/
inductive ApplicationError
  | thrown (message : String)
  | schedule (error : ScheduleError)

/-- What the outside answers while a command is applied.  `meanwhile` is the schedule that the bidder has
when the preparation ends: other runs go on and change the states of its jobs. -/
structure ApplicationAnswers where
  prepared : Except String PUnit
  meanwhile : BidderSchedule
  acceptingRefreshes : Bool
  setup : BidderSetup
  market : MarketAnswers

/-- How the application ended; `executions` are the jobs whose strategy ran. -/
structure Application where
  result : Except ApplicationError PUnit
  schedule : BidderSchedule
  executions : List ScheduledJob

/-- `refreshJobForCommand`: the strategy of the job that is scheduled then. -/
def BidderSchedule.refreshJobForCommand (answers : ApplicationAnswers) (s : BidderSchedule) (jobId : String) :
    Application :=
  if answers.acceptingRefreshes then
    match s.jobs.get jobId with
    | none => ⟨.ok ⟨⟩, s, []⟩
    | some job =>
      let outcome := executeJob answers.setup answers.market job
      let s := { s with jobs := s.jobs.set jobId outcome.job }
      match outcome.error with
      | some message => ⟨.error (.thrown message), s, [job]⟩
      | none => ⟨.ok ⟨⟩, s, [job]⟩
  else ⟨.error (.thrown "Cannot refresh a bidding job after the bidder has stopped"), s, []⟩

/-- `addJob` with the check that follows it: whether the job is satisfied. -/
def BidderSchedule.admitJob (engine : TraitEngine) (s : BidderSchedule) (job : ScheduledJob) :
    Except ScheduleError Bool × BidderSchedule :=
  match s.addJob engine job with
  | (some error, s) => (.error error, s)
  | (none, s) => (.ok (s.getSatisfiedRuntimeSnapshot engine job).isSome, s)

/-- `applyDesiredJob`, with what `loadEnabledJobById` gave. -/
def applyDesiredJob (engine : TraitEngine) (answers : ApplicationAnswers) (s : BidderSchedule)
    (jobId : String) (loaded : Except String (Option ScheduledJob)) : Application :=
  match loaded with
  | .error message => ⟨.error (.thrown message), s, []⟩
  | .ok none => ⟨.ok ⟨⟩, (s.removeJob jobId).2, []⟩
  | .ok (some job) =>
    if (s.getSatisfiedRuntimeSnapshot engine job).isSome then ⟨.ok ⟨⟩, s, []⟩
    else
      match answers.prepared with
      | .error message => ⟨.error (.thrown message), answers.meanwhile, []⟩
      | .ok _ =>
        match answers.meanwhile.admitJob engine job with
        | (.error error, s) => ⟨.error (.schedule error), s, []⟩
        | (.ok true, s) => ⟨.ok ⟨⟩, s, []⟩
        | (.ok false, s) => s.refreshJobForCommand answers job.id

/-- The two jobs are one declaration: they differ in their state only. -/
def ScheduledJob.SameDeclaration (job executed : ScheduledJob) : Prop :=
  executed = { job with state := executed.state }

/-- **The command ends with a run of the declaration's strategy**, or because there is none to schedule. -/
def Application.Refreshes (loaded : Except String (Option ScheduledJob)) (application : Application) : Prop :=
  application.result = .ok ⟨⟩ → loaded = .ok none ∨
    ∃ job, loaded = .ok (some job) ∧ ∃ executed ∈ application.executions, job.SameDeclaration executed

section Application

variable {engine : TraitEngine}

theorem admitJob_satisfied_iff {s : BidderSchedule} {job : ScheduledJob}
    (hid : ∀ held, s.jobs.get job.id = some held → held.id = job.id) :
    (s.admitJob engine job).1 = .ok true ↔
      s.isTokenTaken job = false ∧ (s.mergedState engine job).satisfaction.isSome = true := by
  have hthrows := @addJob_error_iff engine s job hid
  have hsnapshot := @getSatisfiedRuntimeSnapshot_addJob engine s job
  unfold BidderSchedule.admitJob
  rcases hadd : s.addJob engine job with ⟨error, s'⟩
  rw [hadd] at hthrows hsnapshot
  cases error with
  | some error =>
    rw [hthrows.mp nofun]
    exact iff_of_false nofun nofun
  | none =>
    have hfree : s.isTokenTaken job = false := by
      by_contra hne
      exact hthrows.mpr (Bool.eq_true_of_not_eq_false hne) rfl
    dsimp only at hsnapshot ⊢
    rw [hsnapshot, hfree]
    simp

theorem refreshJobForCommand_refreshes {answers : ApplicationAnswers} {s s' : BidderSchedule}
    {job : ScheduledJob} (hadmitted : s.admitJob engine job = (.ok false, s')) :
    (s'.refreshJobForCommand answers job.id).Refreshes (.ok (some job)) := by
  have hget : s'.jobs.get job.id = some { job with state := s.mergedState engine job } := by
    have hadd := @get_addJob engine s job job.id
    unfold BidderSchedule.admitJob at hadmitted
    rcases hs : s.addJob engine job with ⟨error, s''⟩
    rw [hs, if_pos rfl] at hadd
    rw [hs] at hadmitted
    cases error with
    | some error => cases hadmitted
    | none =>
      obtain ⟨-, rfl⟩ := Prod.mk.inj hadmitted
      exact hadd
  intro hresult
  refine .inr ⟨job, rfl, { job with state := s.mergedState engine job }, ?_, rfl⟩
  unfold BidderSchedule.refreshJobForCommand at hresult ⊢
  rw [hget] at hresult ⊢
  split
  · dsimp only
    split
    · exact List.mem_singleton.mpr rfl
    · exact List.mem_singleton.mpr rfl
  · next hclosed =>
    rw [if_neg hclosed] at hresult
    cases hresult

/-- **A changed job is refreshed before its command completes** if and only if the bidder refuses the job
because another one has its token, or the state that it gives the job does not satisfy it.  Otherwise the
command completes without a run of the strategy. -/
theorem changed_job_refreshed_iff (env : JobSourceEnv) (columns : BotColumns) (db : JobsDb)
    (s meanwhile : BidderSchedule) (setup : BidderSetup) (market : MarketAnswers) (jobId : String)
    (hids : meanwhile.KeyedById)
    (hchanged : ∀ job, env.loadEnabledJobById columns db jobId = .ok (some job) →
      ∃ held, s.jobs.get job.id = some held ∧ held.revision ≠ job.revision) :
    (∀ prepared acceptingRefreshes,
      (applyDesiredJob env.engine.toTraitEngine ⟨prepared, meanwhile, acceptingRefreshes, setup, market⟩ s jobId
        (env.loadEnabledJobById columns db jobId)).Refreshes (env.loadEnabledJobById columns db jobId)) ↔
      ∀ job, env.loadEnabledJobById columns db jobId = .ok (some job) → meanwhile.isTokenTaken job = true ∨
          (meanwhile.mergedState env.engine.toTraitEngine job).satisfaction = none := by
  generalize env.loadEnabledJobById columns db jobId = loaded at hchanged ⊢
  rcases loaded with message | _ | job
  · refine iff_of_true (fun _ _ hresult => ?_) (fun _ hjob => ?_)
    · cases hresult
    · cases hjob
  · refine iff_of_true (fun _ _ _ => .inl rfl) (fun _ hjob => ?_)
    cases hjob
  obtain ⟨held, hheld, hrevision⟩ := hchanged job rfl
  -- The held job is of another revision, so that the first check does not pass.
  have hfirst : s.getSatisfiedRuntimeSnapshot env.engine.toTraitEngine job = none := by
    unfold BidderSchedule.getSatisfiedRuntimeSnapshot BidderSchedule.hasSameSatisfiedDeclaration
    rw [hheld]
    simp [hrevision]
  have hsatisfied := @admitJob_satisfied_iff env.engine.toTraitEngine _ job (fun held => hids job.id held)
  have happly : ∀ answers : ApplicationAnswers, answers.meanwhile = meanwhile → answers.prepared = .ok ⟨⟩ →
      applyDesiredJob env.engine.toTraitEngine answers s jobId (.ok (some job)) =
        match meanwhile.admitJob env.engine.toTraitEngine job with
        | (.error error, s) => ⟨.error (.schedule error), s, []⟩
        | (.ok true, s) => ⟨.ok ⟨⟩, s, []⟩
        | (.ok false, s) => s.refreshJobForCommand answers job.id := by
    rintro answers rfl hprepared
    unfold applyDesiredJob
    dsimp only
    rw [hfirst, hprepared]
    rfl
  constructor
  · intro hrefreshes job' hjob'
    cases hjob'
    by_contra hnot
    obtain ⟨hfree, hstate⟩ := not_or.mp hnot
    have hcheck := hsatisfied.mpr ⟨Bool.eq_false_iff.mpr hfree, Option.isSome_iff_ne_none.mpr hstate⟩
    have hrun := hrefreshes (.ok ⟨⟩) true
    rw [happly _ rfl rfl] at hrun
    rcases hadmitted : meanwhile.admitJob env.engine.toTraitEngine job with ⟨result, s'⟩
    rw [hadmitted] at hcheck hrun
    subst hcheck
    obtain hnone | ⟨_, -, _, hmem, -⟩ := hrun rfl
    · cases hnone
    · exact absurd hmem List.not_mem_nil
  · intro hcondition prepared acceptingRefreshes
    cases prepared with
    | error message =>
      unfold applyDesiredJob
      dsimp only
      rw [hfirst]
      exact fun h => nomatch h
    | ok =>
      rw [happly _ rfl rfl]
      rcases hadmitted : meanwhile.admitJob env.engine.toTraitEngine job with ⟨error | satisfied, s'⟩
      · exact fun h => nomatch h
      cases satisfied with
      | false => exact refreshJobForCommand_refreshes hadmitted
      | true =>
        obtain ⟨hfree, hstate⟩ := hsatisfied.mp (by rw [hadmitted])
        rcases hcondition job rfl with htaken | hnone
        · rw [hfree] at htaken
          cases htaken
        · rw [hnone] at hstate
          cases hstate

end Application

/-- A mandate for one collection. -/
def terraformsMandate : BiddingMandate where
  chainId := 1
  startPolicy := ⟨100, false, 1, 1, 1⟩
  collections := [⟨1, "0x2222222222222222222222222222222222222222", "terraforms", 10, 5⟩]
  distinct := by decide

def terraformsSource : JobSourceEnv where
  mandate := terraformsMandate
  jobs := ⟨asciiEngine.localeCompare, asciiEngine.platform⟩
  engine := asciiEngine
  parseJson := fun _ => .error ""
  traitsJson := fun _ => ""

def terraformsColumns : BotColumns where
  collectionSlug := fun _ => "terraforms"
  activeOrderVerifiedAt := fun _ => some "2026-01-01T00:00:00.000Z"
  runtimeUpdatedAt := fun _ => some "2026-01-01T00:00:00.000Z"

/-- Revision 2 of a token job is declared; the runtime state is of revision 1. -/
def updatedJobDb : JobsDb where
  jobs := Table.empty.insertOrIgnore ⟨"a", 1, 1, .enabled, .token, some "1", 2, 0, none⟩
  specs := Table.empty.insertOrIgnore ⟨"a", "1", "5", "1", none, none, none, none, none, none⟩
  cancellations := .empty
  commands := .empty
  outside := ⟨Table.empty.insertOrIgnore ⟨"a", some 1, some "3", some "0xaa", none, none, none⟩, .empty, .empty,
    Table.empty.insertOrIgnore ⟨1, some "terraforms", "0x2222222222222222222222222222222222222222"⟩, []⟩

/-- Revision 1, with an order at a price of 3 that was verified. -/
def verifiedJob : ScheduledJob where
  collectionId := 1
  collectionAddress := "0x2222222222222222222222222222222222222222"
  collectionSlug := "terraforms"
  target := .token "1"
  id := "a"
  revision := 1
  config := ⟨3, 1, 1, []⟩
  state := { BidderState.empty with
    activeOrderId := .own (some "0xaa")
    currentPrice := .own (some 3)
    activeOrderVerifiedAt := .own (some "2026-01-01T00:00:00.000Z") }

def verifiedSchedule : BidderSchedule := (BidderSchedule.create.addJob asciiEngine.toTraitEngine verifiedJob).2

/-- Revision 2, as it is loaded. -/
def updatedJob : ScheduledJob := { verifiedJob with revision := 2, config := ⟨5, 1, 1, []⟩, state := .empty }

theorem load_updatedJob :
    terraformsSource.loadEnabledJobById terraformsColumns updatedJobDb "a" = .ok (some updatedJob) := by
  decide +kernel

/-- The market without offers, and writes that succeed. -/
def emptyMarket : MarketAnswers := answersWith ⟨[], by decide, by decide⟩ (.ok ())

theorem held_revision_changed (state : BidderState) :
    ∃ held, ((BidderSchedule.create.addJob asciiEngine.toTraitEngine { verifiedJob with state := state }).2).jobs.get
      "a" = some held ∧ held.revision ≠ updatedJob.revision := by
  refine ⟨{ verifiedJob with state := state }, ?_, (by decide : verifiedJob.revision ≠ updatedJob.revision)⟩
  rw [get_addJob]
  rfl

theorem changed_job_refreshed_iff_sample :
    let s := (BidderSchedule.create.addJob asciiEngine.toTraitEngine { verifiedJob with state := .empty }).2
    (applyDesiredJob asciiEngine.toTraitEngine ⟨.ok ⟨⟩, s, true, makerSetup, emptyMarket⟩ s "a"
      (.ok (some updatedJob))).Refreshes (.ok (some updatedJob)) := by
  have hrefreshes := (changed_job_refreshed_iff terraformsSource terraformsColumns updatedJobDb
    (BidderSchedule.create.addJob asciiEngine.toTraitEngine { verifiedJob with state := .empty }).2
    (BidderSchedule.create.addJob asciiEngine.toTraitEngine { verifiedJob with state := .empty }).2
    makerSetup emptyMarket "a" (BidderSchedule.KeyedById.create.addJob _) ?_).mpr ?_ (.ok ⟨⟩) true
  · rw [load_updatedJob] at hrefreshes
    exact hrefreshes
  · intro job hjob
    rw [load_updatedJob] at hjob
    cases hjob
    exact held_revision_changed .empty
  · intro job hjob
    rw [load_updatedJob] at hjob
    cases hjob
    exact .inr (by decide +kernel)

/-- **A changed price does not reach the market with its command** when the bidder holds a verified order of
the revision before. -/
theorem changed_job_not_refreshed :
    ¬ ∀ (env : JobSourceEnv) (columns : BotColumns) (db : JobsDb) (s meanwhile : BidderSchedule)
        (setup : BidderSetup) (market : MarketAnswers) (jobId : String) (prepared : Except String PUnit)
        (acceptingRefreshes : Bool), meanwhile.KeyedById →
      (∀ job, env.loadEnabledJobById columns db jobId = .ok (some job) →
        ∃ held, s.jobs.get job.id = some held ∧ held.revision ≠ job.revision) →
      (applyDesiredJob env.engine.toTraitEngine ⟨prepared, meanwhile, acceptingRefreshes, setup, market⟩ s jobId
        (env.loadEnabledJobById columns db jobId)).Refreshes (env.loadEnabledJobById columns db jobId) := by
  intro h
  have hrefreshes := h terraformsSource terraformsColumns updatedJobDb verifiedSchedule verifiedSchedule makerSetup
    emptyMarket "a" (.ok ⟨⟩) true (BidderSchedule.KeyedById.create.addJob _) (fun job hjob => ?_)
  · rw [load_updatedJob] at hrefreshes
    obtain hnone | ⟨_, -, _, hmem, -⟩ := hrefreshes rfl
    · cases hnone
    · exact absurd hmem List.not_mem_nil
  · rw [load_updatedJob] at hjob
    cases hjob
    exact held_revision_changed verifiedJob.state

end Artgod.Trading
