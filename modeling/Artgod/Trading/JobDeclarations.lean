/-
# Bidding job declarations

The API declares what the bot has to bid on (`infra/trading/sqlite-bidding-jobs-repository.ts`): a row of
`trading_jobs` with its spec is a job, and every change appends rows to `trading_job_commands`.  The target of a
collection job is compared by `tradingTraitCriteriaKey`.  Every statement can fail (`faultAt`); `randomUUID` and
`localeCompare` are given, and what others write in between is `Outside`.
-/
import Artgod.Js.Json
import Artgod.Store.Table
import Artgod.Store.Transaction
import Artgod.Trading.BiddingMandate
import Mathlib.Data.List.Sort
import Mathlib.Data.List.Lex

namespace Artgod.Trading

open Store Store.Tx Js

/-! ## 1. Trait criteria -/

/-- What the repository throws. -/
inductive JobsError where
  | tradingValidation (message : String)
  | traitCompetitionValidation (message : String)
  | sqlite (message : String)
  | error (message : String)
deriving DecidableEq

/-- The engine: `localeCompare` and the letter cases. -/
structure JobsEnv where
  localeCompare : String → String → Int
  platform : Platform

/-- `TradingTraitCriterion`. -/
structure TraitCriterion where
  type : String
  value : String
deriving DecidableEq

def TraitCriterion.trim (trait : TraitCriterion) : TraitCriterion :=
  ⟨Js.trim trait.type, Js.trim trait.value⟩

variable (env : JobsEnv)

def compareTradingTraitCriteria (left right : TraitCriterion) : Int :=
  let typeCompare := env.localeCompare left.type right.type
  if typeCompare = 0 then env.localeCompare left.value right.value else typeCompare

/-- `normalizeTradingTraitCriteria`: trimmed, and sorted by the stable sort of the language. -/
def normalizeTradingTraitCriteria (traits : List TraitCriterion) : List TraitCriterion :=
  (traits.map TraitCriterion.trim).insertionSort
    (fun left right => compareTradingTraitCriteria env left right ≤ 0)

def tradingTraitCriteriaKey (traits : List TraitCriterion) : String :=
  "\u0001".intercalate ((normalizeTradingTraitCriteria env traits).map
    (fun trait => trait.type ++ "\u0000" ++ trait.value))

/-! ## 2. Competition presets -/

def maxExtraCompetitionTraits : Nat := 64

def maxCompetitionPresetTargetTraits : Nat := 2

/-- `competitionSelectorKey`: `JSON.stringify([type, value ?? null])`. -/
def competitionSelectorKey (selector : TraitSelector) : String :=
  "[" ++ quote selector.type ++ "," ++ (selector.value.map quote).getD "null" ++ "]"

/-- `dedupeTradingCompetitionSelectors`; `seen` are the keys of the selectors before. -/
def dedupeTradingCompetitionSelectors : List TraitSelector → List String → List TraitSelector
  | [], _ => []
  | selector :: rest, seen =>
    if competitionSelectorKey selector ∈ seen then dedupeTradingCompetitionSelectors rest seen
    else selector :: dedupeTradingCompetitionSelectors rest (competitionSelectorKey selector :: seen)

/-- `normalizeExtraCompetitionTraits` of a list of selectors; `<` of texts compares their code units. -/
def normalizeExtraCompetitionTraits (value : List TraitSelector) : Except JobsError (List TraitSelector) :=
  if maxExtraCompetitionTraits < value.length then
    .error (.traitCompetitionValidation "Extra targets must be a list of at most 64 entries.")
  else if value.any (fun entry =>
      Js.trim entry.type = "" || entry.value.any (fun v => Js.trim v = "")) then
    .error (.traitCompetitionValidation
      "Choose a trait key and either all values or a nonempty value.")
  else
    let selectors : List TraitSelector :=
      value.map (fun entry => ⟨Js.trim entry.type, entry.value.map Js.trim⟩)
    let wholeKeys := (selectors.filter (fun entry => entry.value.isNone)).map (·.type)
    let kept := selectors.filter (fun entry =>
      entry.value.isNone || wholeKeys.all (fun key => key ≠ entry.type))
    .ok ((dedupeTradingCompetitionSelectors kept []).insertionSort
      (fun a b => utf16Units (competitionSelectorKey a) ≤ utf16Units (competitionSelectorKey b)))

def normalizeCompetitionPresetTarget (value : List TraitSelector) : Except JobsError (List TraitSelector) :=
  if value.length = 0 ∨ maxCompetitionPresetTargetTraits < value.length then
    .error (.traitCompetitionValidation "Choose one or two target traits.")
  else do
    let targets ← normalizeExtraCompetitionTraits value
    if targets.length ≠ value.length ∨ ¬ (targets.map (·.type)).Nodup then
      .error (.traitCompetitionValidation "Choose each target trait key only once.")
    else .ok targets

def competitionPresetMatchesTarget (presetTraits : List TraitSelector)
    (traits : List TraitCriterion) : Bool :=
  let target := normalizeTradingTraitCriteria env traits
  presetTraits.length = target.length && presetTraits.all (fun source => target.any (fun trait =>
      Js.trim source.type = trait.type && source.value.all (fun v => Js.trim v = trait.value)))

/-- What `assertCompetitionPresetSelection` reads of a preset version. -/
structure SelectablePreset where
  targetTraits : List TraitSelector
  revision : Nat
  currentRevision : Nat
  archivedAt : Option Nat

def assertCompetitionPresetSelection (preset : Option SelectablePreset)
    (targetTraits : List TraitCriterion) (preserveSelectedVersion : Bool) : Except JobsError Unit :=
  match preset with
  | none =>
    .error (.traitCompetitionValidation
      "Extra targets preset does not match this collection and target.")
  | some preset =>
    if competitionPresetMatchesTarget env preset.targetTraits targetTraits = false then
      .error (.traitCompetitionValidation
        "Extra targets preset does not match this collection and target.")
    else if preserveSelectedVersion = false ∧
        (preset.archivedAt ≠ none ∨ preset.revision ≠ preset.currentRevision) then
      .error (.traitCompetitionValidation
        "Extra targets preset changed. Refresh and choose its current version.")
    else .ok ()

/-- The repository rethrows a `TraitCompetitionValidationError` as a `TradingValidationError`. -/
def asTradingValidation (result : Except JobsError Unit) : Except JobsError Unit :=
  match result with
  | .error (.traitCompetitionValidation message) => .error (.tradingValidation message)
  | result => result

/-! ## 3. Rows -/

inductive TradingJobStatus where
  | enabled
  | paused
  | archived
deriving DecidableEq

/-- `Exclude<TradingJobStatus, "archived">`: what a caller may ask for. -/
inductive DeclaredStatus where
  | enabled
  | paused

def DeclaredStatus.toStatus : DeclaredStatus → TradingJobStatus
  | .enabled => .enabled
  | .paused => .paused

/-- `TRADING_JOB_TARGET_KIND`. -/
inductive JobTargetKind where
  | token
  | collection
  | competitiveTrait
deriving DecidableEq

/-- A row of `trading_jobs` of the bidding bot. -/
structure JobRow where
  jobId : String
  chainId : Nat
  collectionId : Nat
  status : TradingJobStatus
  targetKind : JobTargetKind
  tokenId : Option String
  revision : Nat
  updatedAt : Nat
  archivedAt : Option Nat
deriving DecidableEq

/-- `TradingBiddingJobPricingSource`. -/
inductive PricingSource where
  | manual
  | priceTier (tierId tierName : String) (resolvedAt : Option String)
      (resolvedFloorWei resolvedCeilingWei deltaWei : String)

/-- A row of `trading_bidding_job_specs`; a column of JSON holds the value that was written. -/
structure SpecRow where
  jobId : String
  floorWei : String
  ceilingWei : String
  deltaWei : String
  quantity : Option Int
  targetTraits : Option (List TraitCriterion)
  competitorTraits : Option (List TraitCriterion)
  priceTierId : Option String
  pricingSource : Option PricingSource
  competitionPresetVersionId : Option String

/-- A row of `trading_bidding_job_runtime_state`, which the bot writes. -/
structure RuntimeRow where
  jobId : String
  jobRevision : Option Nat
  currentPriceWei : Option String
  activeOrderId : Option String
  activeProtocolAddress : Option String
  activeOrderPlacedAt : Option String
  activeExpirationTimeMs : Option Nat

/-- A row of `trading_bidding_order_cancellations`. -/
structure CancellationRow where
  orderId : String
  jobId : String
  jobRevision : Nat
  chainId : Nat
  collectionId : Nat
  maker : String
  priceWei : Option String
  protocolAddress : Option String
  placedAt : Option String
  expirationTimeMs : Option Nat
  requestedAt : Nat
  completedAt : Option Nat
  cancellationError : Option String
  updatedAt : Nat

/-- `TradingBiddingJobTargetDescriptor`. -/
inductive JobTarget where
  | token (tokenId : String)
  | collection (quantity : Int) (targetTraits : List TraitCriterion)
  | competitiveTrait (quantity : Int) (targetTraits competitorTraits : List TraitCriterion)
deriving DecidableEq

/-- `TrackedActiveBiddingOrder`: an order that the bot has placed for a job, with the revision of the
declaration that placed it. -/
structure TrackedActiveOrder where
  jobRevision : Nat
  activeOrderId : String
  activeProtocolAddress : Option String
  activeOrderPlacedAt : Option String
  currentPriceWei : Option String
  activeExpirationTimeMs : Option Nat
deriving DecidableEq

/-- `TRADING_JOB_COMMAND_KIND`. -/
inductive CommandKind where
  | jobCreated
  | jobUpdated
  | jobPaused
  | jobArchived
  | cancelActiveOffer
deriving DecidableEq

/-- `TRADING_JOB_COMMAND_STATUS`. -/
inductive CommandStatus where
  | pending
  | processing
  | completed
  | failedRetry
  | failedTerminal
deriving DecidableEq

/-- The payload of a command; only a cancellation names an order. -/
structure CommandPayload where
  chainId : Nat
  collectionId : Nat
  jobId : String
  target : JobTarget
  activeOrder : Option TrackedActiveOrder := none
deriving DecidableEq

/-- A row of `trading_job_commands` of the bidding bot. -/
structure CommandRow where
  commandId : Nat
  jobId : String
  commandKind : CommandKind
  status : CommandStatus
  requestedRevision : Nat
  payload : CommandPayload
  attempts : Nat
  claimedAt : Option Nat
  completedAt : Option Nat
deriving DecidableEq

/-- `trading_job_commands` in the order of its `AUTOINCREMENT` key; `lastId` is the last key given out. -/
structure CommandLog where
  rows : List CommandRow
  lastId : Nat
  ordered : rows.Pairwise (fun a b => a.commandId < b.commandId)
  bounded : ∀ row ∈ rows, row.commandId ≤ lastId

namespace CommandLog

def empty : CommandLog := ⟨[], 0, List.Pairwise.nil, fun _ h => absurd h List.not_mem_nil⟩

/-- The row that `insertCommand` writes. -/
def newRow (log : CommandLog) (jobId : String) (commandKind : CommandKind) (requestedRevision : Nat)
    (payload : CommandPayload) : CommandRow where
  commandId := log.lastId + 1
  jobId := jobId
  commandKind := commandKind
  status := .pending
  requestedRevision := requestedRevision
  payload := payload
  attempts := 0
  claimedAt := none
  completedAt := none

/-- `insertCommand`. -/
def push (log : CommandLog) (jobId : String) (commandKind : CommandKind) (requestedRevision : Nat)
    (payload : CommandPayload) : CommandLog where
  rows := log.rows ++ [log.newRow jobId commandKind requestedRevision payload]
  lastId := log.lastId + 1
  ordered := by
    rw [List.pairwise_append]
    refine ⟨log.ordered, List.pairwise_singleton _ _, ?_⟩
    intro a ha b hb
    rw [List.mem_singleton] at hb
    subst hb
    exact Nat.lt_succ_of_le (log.bounded a ha)
  bounded := by
    intro row hrow
    rcases List.mem_append.mp hrow with h | h
    · exact Nat.le_succ_of_le (log.bounded row h)
    · rw [List.mem_singleton] at h
      subst h
      exact Nat.le_refl _

end CommandLog

/-- A row of `trading_bidding_competition_presets`. -/
structure PresetRow where
  presetId : String
  chainId : Nat
  collectionId : Nat
  revision : Nat
  archivedAt : Option Nat

/-- A row of `trading_bidding_competition_preset_versions`. -/
structure PresetVersionRow where
  versionId : String
  presetId : String
  revision : Nat
  targetTraits : List TraitSelector
  extraTraits : List TraitSelector

/-- A row of `collections`, with what authorization reads. -/
structure CollectionRow where
  collectionId : Nat
  openseaSlug : Option String
  address : String

/-- The tables that the operations read and others write.  `makers` are the chains and addresses of
`trading_bot_runtime_state`, the most recent first. -/
structure Outside where
  runtime : Table RuntimeRow.jobId
  presets : Table PresetRow.presetId
  versions : Table PresetVersionRow.versionId
  collections : Table CollectionRow.collectionId
  makers : List (Nat × String)

/-- The tables of the repository. -/
structure JobsDb where
  jobs : Table JobRow.jobId
  specs : Table SpecRow.jobId
  cancellations : Table CancellationRow.orderId
  commands : CommandLog
  outside : Outside

/-! ## 4. Reads -/

/-- `TradingCompetitionPresetVersion`. -/
structure CompetitionPresetVersion where
  versionId : String
  presetId : String
  revision : Nat
  targetTraits : List TraitSelector
  extraCompetitionTraits : List TraitSelector

/-- `PersistedBiddingJobRecord`. -/
structure BiddingJobRecord where
  jobId : String
  chainId : Nat
  collectionId : Nat
  status : TradingJobStatus
  floorWei : String
  ceilingWei : String
  deltaWei : String
  priceTierId : Option String
  pricingSource : Option PricingSource
  revision : Nat
  updatedAt : Nat
  archivedAt : Option Nat
  target : JobTarget
  competitionPreset : Option CompetitionPresetVersion

/-- A row of `BIDDING_JOB_SELECT`. -/
structure BiddingJobRow where
  job : JobRow
  spec : SpecRow
  runtime : Option RuntimeRow

/-- The joins of `BIDDING_JOB_SELECT`. -/
def JobsDb.biddingJobRow (db : JobsDb) (job : JobRow) : Option BiddingJobRow := do
  let spec ← db.specs.get? job.jobId
  let _ ← db.outside.collections.get? job.collectionId
  pure ⟨job, spec, db.outside.runtime.get? job.jobId⟩

/-- `ORDER BY j.updated_at DESC, j.job_id ASC`. -/
def latestFirst (rows : List BiddingJobRow) : List BiddingJobRow :=
  rows.insertionSort (fun a b =>
    b.job.updatedAt < a.job.updatedAt ∨ (a.job.updatedAt = b.job.updatedAt ∧ a.job.jobId ≤ b.job.jobId))

def JobsDb.selectJobById (db : JobsDb) (jobId : String) : Option BiddingJobRow :=
  db.jobs.get? jobId >>= db.biddingJobRow

/-- `selectTokenJob`, without the archived. -/
def JobsDb.selectTokenJob (db : JobsDb) (chainId collectionId : Nat) (tokenId : String) :
    Option BiddingJobRow :=
  (latestFirst ((db.jobs.select (fun job =>
    job.chainId = chainId && job.collectionId = collectionId && job.targetKind = .token &&
      job.tokenId = some tokenId && job.status ≠ .archived)).filterMap db.biddingJobRow)).head?

/-- `selectCollectionJobs`, without the archived. -/
def JobsDb.selectCollectionJobs (db : JobsDb) (chainId collectionId : Nat) : List BiddingJobRow :=
  latestFirst ((db.jobs.select (fun job =>
    job.chainId = chainId && job.collectionId = collectionId &&
      job.status ≠ .archived)).filterMap db.biddingJobRow)

variable (env : JobsEnv)

def mapBiddingCompetitionPresetRow (outside : Outside) (versionId : Option String)
    (chainId collectionId : Nat) (targetTraits : List TraitCriterion) :
    Except JobsError (Option CompetitionPresetVersion) :=
  match versionId with
  | none => .ok none
  | some versionId =>
    match outside.versions.get? versionId with
    | none => .error (.error "Invalid persisted extra targets reference")
    | some version =>
      match outside.presets.get? version.presetId with
      | none => .error (.error "Invalid persisted extra targets reference")
      | some preset =>
        if version.presetId = "" ∨ version.revision = 0 ∨ preset.chainId ≠ chainId ∨
            preset.collectionId ≠ collectionId then
          .error (.error "Invalid persisted extra targets reference")
        else do
          let target ← normalizeCompetitionPresetTarget version.targetTraits
          let extras ← normalizeExtraCompetitionTraits version.extraTraits
          if competitionPresetMatchesTarget env target targetTraits = false then
            .error (.error "Persisted extra targets source does not match the job")
          else .ok (some ⟨versionId, version.presetId, version.revision, target, extras⟩)

/-- The target of a row and the preset that it refers to. -/
def mapTarget (outside : Outside) (row : BiddingJobRow) :
    Except JobsError (JobTarget × Option CompetitionPresetVersion) :=
  match row.job.targetKind with
  | .token =>
    match row.job.tokenId with
    | none => .error (.error
        ("Invalid persisted token bidding job: missing token_id for jobId=" ++ row.job.jobId))
    | some tokenId =>
      if tokenId = "" then .error (.error
        ("Invalid persisted token bidding job: missing token_id for jobId=" ++ row.job.jobId))
      else .ok (.token tokenId, none)
  | .collection =>
    match row.spec.quantity with
    | none => .error (.error
        ("Invalid persisted collection bidding job: missing quantity for jobId=" ++ row.job.jobId))
    | some quantity =>
      if quantity ≤ 0 then .error (.error
        ("Invalid persisted collection bidding job: missing quantity for jobId=" ++ row.job.jobId))
      else do
        let targetTraits := row.spec.targetTraits.getD []
        let preset ← mapBiddingCompetitionPresetRow env outside row.spec.competitionPresetVersionId
          row.job.chainId row.job.collectionId targetTraits
        .ok (.collection quantity targetTraits, preset)
  | .competitiveTrait =>
    match row.spec.quantity with
    | none => .error (.error
        ("Invalid persisted competitive-trait bidding job: missing quantity for jobId=" ++
          row.job.jobId))
    | some quantity =>
      if quantity ≤ 0 then .error (.error
        ("Invalid persisted competitive-trait bidding job: missing quantity for jobId=" ++
          row.job.jobId))
      else
        .ok (.competitiveTrait quantity (row.spec.targetTraits.getD [])
          (row.spec.competitorTraits.getD []), none)

def mapBiddingJobRow (outside : Outside) (row : BiddingJobRow) : Except JobsError BiddingJobRecord := do
  let (target, preset) ← mapTarget env outside row
  .ok {
    jobId := row.job.jobId
    chainId := row.job.chainId
    collectionId := row.job.collectionId
    status := row.job.status
    floorWei := row.spec.floorWei
    ceilingWei := row.spec.ceilingWei
    deltaWei := row.spec.deltaWei
    priceTierId := row.spec.priceTierId
    pricingSource := row.spec.pricingSource
    revision := row.job.revision
    updatedAt := row.job.updatedAt
    archivedAt := row.job.archivedAt
    target := target
    competitionPreset := preset }

/-! ## 5. Statements -/

/-- A session of the API on the database.  `drawn` counts the calls of `randomUUID`; `faultAt = some n`
says that the statement after the next `n` fails. -/
structure Session where
  db : JobsDb
  now : Nat
  uuids : Nat → String
  drawn : Nat
  faultAt : Option Nat

abbrev JobsTx := Tx Session JobsError

/-- A statement that writes. -/
def statement (write : JobsDb → Except JobsError JobsDb) : JobsTx Unit := do
  let session ← get
  throwIf (session.faultAt = some 0) (.sqlite "disk I/O error")
  let db ← check (write session.db)
  set { session with db := db, faultAt := session.faultAt.map (· - 1) }

def randomUUID : JobsTx String :=
  modifyGet (fun session => (session.uuids session.drawn, { session with drawn := session.drawn + 1 }))

/-- `trading_jobs_token_target_uq`: the two rows are active jobs of one token. -/
def sameActiveToken (a b : JobRow) : Bool :=
  a.targetKind = .token && b.targetKind = .token && a.chainId = b.chainId &&
    a.collectionId = b.collectionId && a.tokenId = b.tokenId && a.status ≠ .archived &&
    b.status ≠ .archived

def insertTradingJob (row : JobRow) (db : JobsDb) : Except JobsError JobsDb :=
  if db.jobs.has row.jobId then
    .error (.sqlite "UNIQUE constraint failed: trading_jobs.job_id")
  else if db.jobs.rows.any (sameActiveToken row) then
    .error (.sqlite ("UNIQUE constraint failed: trading_jobs.chain_id, trading_jobs.collection_id, " ++
      "trading_jobs.bot_kind, trading_jobs.target_kind, trading_jobs.token_id"))
  else if db.outside.collections.has row.collectionId = false then
    .error (.sqlite "FOREIGN KEY constraint failed")
  else .ok { db with jobs := db.jobs.insertOrIgnore row }

/-- The row after `updateTradingJobById`. -/
def JobRow.declared (status : DeclaredStatus) (now : Nat) (job : JobRow) : JobRow :=
  { job with
    status := status.toStatus
    archivedAt := none
    revision := job.revision + 1
    updatedAt := now }

variable (jobId : String)

/-- `updateTradingJobById`; an active job keeps its place in the index of active tokens. -/
def updateTradingJobById (status : DeclaredStatus) (now : Nat) (db : JobsDb) : Except JobsError JobsDb :=
  .ok { db with
    jobs := db.jobs.updateWhere (fun job => job.jobId = jobId) (JobRow.declared status now) (fun _ => rfl) }

/-- The row after `archiveTradingJobById`. -/
def JobRow.archive (now : Nat) (job : JobRow) : JobRow :=
  { job with
    status := .archived
    archivedAt := some now
    revision := job.revision + 1
    updatedAt := now }

def archiveTradingJobById (now : Nat) (db : JobsDb) : Except JobsError JobsDb :=
  .ok { db with
    jobs := db.jobs.updateWhere (fun job => job.jobId = jobId) (JobRow.archive now) (fun _ => rfl) }

/-- The `CHECK`s of `trading_bidding_job_specs`. -/
def checkSpec (spec : SpecRow) : Except JobsError Unit :=
  if spec.floorWei = "" then .error (.sqlite "CHECK constraint failed: floor_wei != ''")
  else if spec.ceilingWei = "" then .error (.sqlite "CHECK constraint failed: ceiling_wei != ''")
  else if spec.deltaWei = "" then .error (.sqlite "CHECK constraint failed: delta_wei != ''")
  else .ok ()

def insertBiddingSpec (spec : SpecRow) (db : JobsDb) : Except JobsError JobsDb := do
  checkSpec spec
  if db.specs.has spec.jobId then
    .error (.sqlite "UNIQUE constraint failed: trading_bidding_job_specs.job_id")
  else .ok { db with specs := db.specs.insertOrIgnore spec }

/-- The row after `updateBiddingSpecById`: all but the preset version is overwritten. -/
def SpecRow.overwrite (spec old : SpecRow) : SpecRow :=
  { spec with jobId := old.jobId, competitionPresetVersionId := old.competitionPresetVersionId }

def updateBiddingSpecById (spec : SpecRow) (db : JobsDb) : Except JobsError JobsDb := do
  checkSpec spec
  .ok { db with
    specs := db.specs.updateWhere (fun old => old.jobId = spec.jobId) spec.overwrite (fun _ => rfl) }

/-- The row after the update of the preset reference. -/
def SpecRow.refer (versionId : Option String) (spec : SpecRow) : SpecRow :=
  { spec with competitionPresetVersionId := versionId }

/-- `writeCompetitionPresetReference`, once there is something to write. -/
def writeCompetitionPresetVersion (versionId : Option String) (db : JobsDb) : Except JobsError JobsDb :=
  if versionId.all (fun id => db.outside.versions.has id) = false then
    .error (.sqlite "FOREIGN KEY constraint failed")
  else
    .ok { db with
      specs := db.specs.updateWhere (fun spec => spec.jobId = jobId) (SpecRow.refer versionId)
        (fun _ => rfl) }

/-- The row after the `DO UPDATE` of `insertCancellationRequest`: a settled request keeps its result. -/
def CancellationRow.request (row old : CancellationRow) : CancellationRow :=
  { row with
    orderId := old.orderId
    completedAt := old.completedAt
    cancellationError := if old.completedAt = none then none else old.cancellationError }

/-- `insertCancellationRequest`; chain and collection are selected from the job. -/
def insertCancellationRequest (jobId orderId maker : String) (order : TrackedActiveOrder) (now : Nat)
    (db : JobsDb) : Except JobsError JobsDb :=
  match db.jobs.get? jobId with
  | none => .ok db
  | some job =>
    let row : CancellationRow := {
      orderId := orderId
      jobId := jobId
      jobRevision := order.jobRevision
      chainId := job.chainId
      collectionId := job.collectionId
      maker := maker
      priceWei := order.currentPriceWei
      protocolAddress := order.activeProtocolAddress
      placedAt := order.activeOrderPlacedAt
      expirationTimeMs := order.activeExpirationTimeMs
      requestedAt := now
      completedAt := none
      cancellationError := none
      updatedAt := now }
    .ok { db with cancellations := db.cancellations.upsert row row.request (fun _ => rfl) }

def insertCommand (commandKind : CommandKind) (requestedRevision : Nat)
    (payload : CommandPayload) (db : JobsDb) : Except JobsError JobsDb :=
  .ok { db with commands := db.commands.push jobId commandKind requestedRevision payload }

/-! ## 6. Records and commands -/

def getJobById (jobId : String) : JobsTx (Option BiddingJobRecord) := do
  let session ← get
  match session.db.selectJobById jobId with
  | none => pure none
  | some row =>
    let job ← check (mapBiddingJobRow env session.db.outside row)
    pure (some job)

/-- `getTokenJob`, without the archived. -/
def getTokenJob (chainId collectionId : Nat) (tokenId : String) : JobsTx (Option BiddingJobRecord) := do
  let session ← get
  match session.db.selectTokenJob chainId collectionId tokenId with
  | none => pure none
  | some row =>
    let job ← check (mapBiddingJobRow env session.db.outside row)
    match job.target with
    | .token _ => pure (some job)
    | _ => pure none

/-- `listCollectionJobs`, without the archived. -/
def listCollectionJobs (chainId collectionId : Nat) : JobsTx (List BiddingJobRecord) := do
  let session ← get
  check ((session.db.selectCollectionJobs chainId collectionId).mapM
    (mapBiddingJobRow env session.db.outside))

/-- The job is the one that `findActiveCollectionJob` looks for. -/
def BiddingJobRecord.bidsOn (quantity : Int) (targetTraits : List TraitCriterion)
    (job : BiddingJobRecord) : Bool :=
  match job.target with
  | .collection jobQuantity jobTraits =>
    jobQuantity = quantity &&
      tradingTraitCriteriaKey env jobTraits = tradingTraitCriteriaKey env targetTraits
  | _ => false

def findActiveCollectionJob (chainId collectionId : Nat) (quantity : Int)
    (targetTraits : List TraitCriterion) : JobsTx (Option BiddingJobRecord) := do
  let jobs ← listCollectionJobs env chainId collectionId
  pure (jobs.find? (BiddingJobRecord.bidsOn env quantity targetTraits))

/-- The `require` reads: the job has to be there and its target of the kind. -/
def requireJobById (kind : String) (ofKind : JobTarget → Bool) (jobId : String) :
    JobsTx BiddingJobRecord := do
  let job ← getJobById env jobId
  match job.filter (fun job => ofKind job.target) with
  | none => throw (.error ("Expected persisted " ++ kind ++ "bidding job to exist for jobId=" ++ jobId))
  | some job => pure job

def JobTarget.isToken : JobTarget → Bool
  | .token _ => true
  | _ => false

def JobTarget.isCollection : JobTarget → Bool
  | .collection _ _ => true
  | _ => false

def requireBiddingJobById (jobId : String) : JobsTx BiddingJobRecord :=
  requireJobById env "" (fun _ => true) jobId

def requireTokenJobById (jobId : String) : JobsTx BiddingJobRecord :=
  requireJobById env "token " JobTarget.isToken jobId

def requireCollectionJobById (jobId : String) : JobsTx BiddingJobRecord :=
  requireJobById env "collection " JobTarget.isCollection jobId

/-- The order of a runtime row.  The row may be of an earlier revision; `revision` stands in for a row
that does not say. -/
def RuntimeRow.trackedActiveOrder (runtime : RuntimeRow) (revision : Nat) : Option TrackedActiveOrder :=
  match runtime.activeOrderId with
  | none => none
  | some orderId =>
    if orderId = "" then none
    else some {
      jobRevision := runtime.jobRevision.getD revision
      activeOrderId := orderId
      activeProtocolAddress := runtime.activeProtocolAddress
      activeOrderPlacedAt := runtime.activeOrderPlacedAt
      currentPriceWei := runtime.currentPriceWei
      activeExpirationTimeMs := runtime.activeExpirationTimeMs }

/-- The order that the bot tracks for a job. -/
def JobsDb.trackedActiveOrder (db : JobsDb) (jobId : String) (revision : Nat) :
    Option TrackedActiveOrder := do
  let row ← db.selectJobById jobId
  let runtime ← row.runtime
  runtime.trackedActiveOrder revision

variable (job : BiddingJobRecord)

def loadTrackedActiveOrder : JobsTx (Option TrackedActiveOrder) := do
  let session ← get
  pure (session.db.trackedActiveOrder job.jobId job.revision)

/-- `selectKnownBiddingMaker`, trimmed and in lower case; an empty address is none. -/
def JobsDb.knownBiddingMaker (db : JobsDb) (chainId : Nat) : Option String :=
  match db.outside.makers.find? (fun maker => maker.1 = chainId) with
  | none => none
  | some maker =>
    let makerAddress := toLowerCase env.platform (Js.trim maker.2)
    if makerAddress = "" then none else some makerAddress

def recordCancellationRequest (job : BiddingJobRecord)
    (activeOrder : Option TrackedActiveOrder) : JobsTx Unit := do
  let session ← get
  match activeOrder, session.db.knownBiddingMaker env job.chainId with
  | some order, some maker =>
    statement (insertCancellationRequest job.jobId order.activeOrderId maker order session.now)
  | _, _ => pure ()

def biddingJobCommandPayload : CommandPayload where
  chainId := job.chainId
  collectionId := job.collectionId
  jobId := job.jobId
  target := job.target

def biddingJobCancellationCommandPayload (activeOrder : Option TrackedActiveOrder) : CommandPayload :=
  { biddingJobCommandPayload job with activeOrder := activeOrder }

def insertCommandRecord (commandKind : CommandKind) (requestedRevision : Nat)
    (payload : CommandPayload) : JobsTx CommandRow := do
  statement (insertCommand jobId commandKind requestedRevision payload)
  let session ← get
  match session.db.commands.rows.getLast? with
  | none => throw (.error "Failed to reload trading job command")
  | some row => pure row

def updatedJobCommands (existing job : BiddingJobRecord) : JobsTx (List CommandRow) := do
  if job.status = .paused then
    let activeOrder ← loadTrackedActiveOrder existing
    recordCancellationRequest env existing activeOrder
    let cancelCommand ← insertCommandRecord job.jobId .cancelActiveOffer job.revision
      (biddingJobCancellationCommandPayload existing activeOrder)
    let pausedCommand ← insertCommandRecord job.jobId .jobPaused job.revision (biddingJobCommandPayload job)
    pure [cancelCommand, pausedCommand]
  else
    let updatedCommand ← insertCommandRecord job.jobId .jobUpdated job.revision
      (biddingJobCommandPayload job)
    pure [updatedCommand]

/-! ## 7. Operations -/

/-- What an operation returns of one job. -/
structure Written where
  job : BiddingJobRecord
  commands : List CommandRow

/-- The prices of an input; a source that is not given is `manual`. -/
structure JobPricing where
  floorWei : String
  ceilingWei : String
  deltaWei : String
  priceTierId : Option String
  pricingSource : Option PricingSource

/-- `UpsertTokenBiddingJobInput`. -/
structure UpsertTokenJobInput where
  chainId : Nat
  collectionId : Nat
  tokenId : String
  status : DeclaredStatus
  pricing : JobPricing

/-- `UpsertCollectionBiddingJobInput`; an omitted preset version keeps the reference, `null` clears it. -/
structure UpsertCollectionJobInput where
  chainId : Nat
  collectionId : Nat
  status : DeclaredStatus
  pricing : JobPricing
  quantity : Int
  targetTraits : List TraitCriterion
  competitionPresetVersionId : Option (Option String)

/-- `UpdateBiddingJobPricingByIdInput`. -/
structure UpdateJobPricingInput where
  chainId : Nat
  collectionId : Nat
  jobId : String
  floorWei : String
  ceilingWei : String
  deltaWei : String
  priceTierId : Option String
  pricingSource : PricingSource

/-- `TradingCompetitionPresetReapplySelection`. -/
structure ReapplySelection where
  jobId : String
  expectedRevision : Nat
  versionId : String

/-- `ReapplyCompetitionPresetWriteInput`; `assertTargetSupported` is the caller's guard. -/
structure ReapplyPresetInput where
  chainId : Nat
  collectionId : Nat
  presetId : String
  expectedRevision : Nat
  jobs : List ReapplySelection
  assertTargetSupported : BiddingJobRecord → Except JobsError Unit

/-- The spec that an upsert writes, with `biddingPricingPayload`. -/
def JobPricing.spec (pricing : JobPricing) (jobId : String) (quantity : Option Int)
    (targetTraits : Option (List TraitCriterion)) : SpecRow where
  jobId := jobId
  floorWei := pricing.floorWei
  ceilingWei := pricing.ceilingWei
  deltaWei := pricing.deltaWei
  quantity := quantity
  targetTraits := targetTraits
  competitorTraits := none
  priceTierId := pricing.priceTierId
  pricingSource := some (pricing.pricingSource.getD .manual)
  competitionPresetVersionId := none

/-- The row that `insertTradingJob` writes, with the defaults of its columns. -/
def newJob (chainId collectionId : Nat) (status : DeclaredStatus)
    (targetKind : JobTargetKind) (tokenId : Option String) (now : Nat) : JobRow where
  jobId := jobId
  chainId := chainId
  collectionId := collectionId
  status := status.toStatus
  targetKind := targetKind
  tokenId := tokenId
  revision := 1
  updatedAt := now
  archivedAt := none

/-- The lifecycle command of a job that was just created. -/
def insertCreatedCommand : JobsTx CommandRow :=
  insertCommandRecord job.jobId (if job.status = .paused then .jobPaused else .jobCreated) job.revision
    (biddingJobCommandPayload job)

def upsertTokenJobInTransaction (input : UpsertTokenJobInput) : JobsTx Written := do
  let existing ← getTokenJob env input.chainId input.collectionId input.tokenId
  let session ← get
  match existing with
  | some existing =>
    statement (updateTradingJobById existing.jobId input.status session.now)
    statement (updateBiddingSpecById (input.pricing.spec existing.jobId none none))
    let job ← requireTokenJobById env existing.jobId
    let commands ← updatedJobCommands env existing job
    pure ⟨job, commands⟩
  | none =>
    let jobId ← randomUUID
    statement (insertTradingJob (newJob jobId input.chainId input.collectionId input.status .token
      (some input.tokenId) session.now))
    statement (insertBiddingSpec (input.pricing.spec jobId none none))
    let job ← requireTokenJobById env jobId
    let command ← insertCreatedCommand job
    pure ⟨job, [command]⟩

def writeCompetitionPresetReference (versionId : Option (Option String)) : JobsTx Unit :=
  match versionId with
  | none => pure ()
  | some versionId => statement (writeCompetitionPresetVersion jobId versionId)

/-- The version that `assertCompetitionPresetSelection` selects, with its current revision. -/
def JobsDb.selectablePreset (env : JobsEnv) (db : JobsDb) (versionId : String)
    (chainId collectionId : Nat) : Except JobsError (Option SelectablePreset) :=
  match db.outside.versions.get? versionId with
  | none => .ok none
  | some version =>
    match db.outside.presets.get? version.presetId with
    | none => .ok none
    | some preset =>
      if preset.chainId = chainId ∧ preset.collectionId = collectionId then do
        let targetTraits ← normalizeCompetitionPresetTarget version.targetTraits
        .ok (some ⟨targetTraits, version.revision, preset.revision, preset.archivedAt⟩)
      else .ok none

/-- `assertCompetitionPresetSelection` of the repository: nothing to check unless a version is given. -/
def assertPresetSelection (input : UpsertCollectionJobInput)
    (targetTraits : List TraitCriterion) (existingVersionId : Option String) : JobsTx Unit := do
  let session ← get
  match input.competitionPresetVersionId with
  | some (some versionId) =>
    check (asTradingValidation (do
      let preset ← session.db.selectablePreset env versionId input.chainId input.collectionId
      assertCompetitionPresetSelection env preset targetTraits (some versionId = existingVersionId)))
  | _ => pure ()

/-- `upsertCollectionJob`, inside its transaction. -/
def upsertCollectionJobInTransaction (input : UpsertCollectionJobInput) : JobsTx Written := do
  let targetTraits := normalizeTradingTraitCriteria env input.targetTraits
  let existing ← findActiveCollectionJob env input.chainId input.collectionId input.quantity targetTraits
  assertPresetSelection env input targetTraits
    (existing.bind (fun job => job.competitionPreset.map (·.versionId)))
  let session ← get
  match existing with
  | some existing =>
    statement (updateTradingJobById existing.jobId input.status session.now)
    statement (updateBiddingSpecById
      (input.pricing.spec existing.jobId (some input.quantity) (some targetTraits)))
    writeCompetitionPresetReference existing.jobId input.competitionPresetVersionId
    let job ← requireCollectionJobById env existing.jobId
    let commands ← updatedJobCommands env existing job
    pure ⟨job, commands⟩
  | none =>
    let jobId ← randomUUID
    statement (insertTradingJob (newJob jobId input.chainId input.collectionId input.status .collection
      none session.now))
    statement (insertBiddingSpec (input.pricing.spec jobId (some input.quantity) (some targetTraits)))
    writeCompetitionPresetReference jobId input.competitionPresetVersionId
    let job ← requireCollectionJobById env jobId
    let command ← insertCreatedCommand job
    pure ⟨job, [command]⟩

/-- The job is an active one of the collection. -/
def BiddingJobRecord.activeIn (chainId collectionId : Nat) : Bool :=
  job.chainId = chainId && job.collectionId = collectionId && job.status ≠ .archived

def archiveJobByIdInTransaction (chainId collectionId : Nat) (jobId : String) :
    JobsTx (Option Written) := do
  let existing ← getJobById env jobId
  let session ← get
  match existing.filter (fun job => job.activeIn chainId collectionId) with
  | none => pure none
  | some existing =>
    let activeOrder ← loadTrackedActiveOrder existing
    statement (archiveTradingJobById existing.jobId session.now)
    recordCancellationRequest env existing activeOrder
    let job ← requireBiddingJobById env existing.jobId
    let cancelCommand ← insertCommandRecord job.jobId .cancelActiveOffer job.revision
      (biddingJobCancellationCommandPayload existing activeOrder)
    let archivedCommand ← insertCommandRecord job.jobId .jobArchived job.revision
      (biddingJobCommandPayload job)
    pure (some ⟨job, [cancelCommand, archivedCommand]⟩)

/-- `archiveTokenJob`, inside its transaction. -/
def archiveTokenJobInTransaction (chainId collectionId : Nat) (tokenId : String) :
    JobsTx (Option Written) := do
  let existing ← getTokenJob env chainId collectionId tokenId
  match existing with
  | none => pure none
  | some existing => archiveJobByIdInTransaction env chainId collectionId existing.jobId

/-- The status of an active job, for an update that keeps it. -/
def TradingJobStatus.declared : TradingJobStatus → DeclaredStatus
  | .paused => .paused
  | _ => .enabled

/-- The spec of `updateJobPricingByIdInTransaction`, with `biddingSpecTargetPayload`. -/
def UpdateJobPricingInput.spec (input : UpdateJobPricingInput) (existing : BiddingJobRecord) : SpecRow where
  jobId := existing.jobId
  floorWei := input.floorWei
  ceilingWei := input.ceilingWei
  deltaWei := input.deltaWei
  quantity :=
    match existing.target with
    | .token _ => none
    | .collection quantity _ => some quantity
    | .competitiveTrait quantity _ _ => some quantity
  targetTraits :=
    match existing.target with
    | .token _ => none
    | .collection _ targetTraits => some targetTraits
    | .competitiveTrait _ targetTraits _ => some targetTraits
  competitorTraits :=
    match existing.target with
    | .competitiveTrait _ _ competitorTraits => some competitorTraits
    | _ => none
  priceTierId := input.priceTierId
  pricingSource := some input.pricingSource
  competitionPresetVersionId := none

def updateJobPricingByIdInTransaction (input : UpdateJobPricingInput) : JobsTx (Option Written) := do
  let existing ← getJobById env input.jobId
  let session ← get
  match existing.filter (fun job => job.activeIn input.chainId input.collectionId) with
  | none => pure none
  | some existing =>
    statement (updateTradingJobById existing.jobId existing.status.declared session.now)
    statement (updateBiddingSpecById (input.spec existing))
    let job ← requireBiddingJobById env existing.jobId
    let commands ← updatedJobCommands env existing job
    pure (some ⟨job, commands⟩)

/-- `TradingCompetitionPreset`: the current version of a preset. -/
structure CompetitionPreset where
  presetId : String
  versionId : String
  revision : Nat
  targetTraits : List TraitSelector
  extraCompetitionTraits : List TraitSelector
  archivedAt : Option Nat

def JobsDb.readCurrentBiddingCompetitionPreset (env : JobsEnv) (db : JobsDb)
    (chainId collectionId : Nat) (presetId : String) : Except JobsError (Option CompetitionPreset) :=
  match db.outside.presets.get? presetId with
  | none => .ok none
  | some preset =>
    if preset.chainId = chainId ∧ preset.collectionId = collectionId then
      match db.outside.versions.rows.find? (fun version =>
          version.presetId = presetId && version.revision = preset.revision) with
      | none => .ok none
      | some version => do
        let targetTraits ← normalizeCompetitionPresetTarget version.targetTraits
        let extras ← normalizeExtraCompetitionTraits version.extraTraits
        .ok (some ⟨presetId, version.versionId, version.revision, targetTraits, extras, preset.archivedAt⟩)
    else .ok none

def requireReapplyCompetitionPreset (preset : Option CompetitionPreset) (expectedRevision : Nat) :
    Except JobsError CompetitionPreset :=
  match preset with
  | none =>
    .error (.tradingValidation "Extra targets preset is unavailable. Refresh the presets.")
  | some preset =>
    if preset.archivedAt ≠ none then
      .error (.tradingValidation "Extra targets preset is unavailable. Refresh the presets.")
    else if preset.revision ≠ expectedRevision then
      .error (.tradingValidation "Extra targets preset changed. Preview reapply again.")
    else .ok preset

def requireReapplyCompetitionPresetJob (job : Option BiddingJobRecord)
    (chainId collectionId : Nat) (preset : CompetitionPreset) (selection : ReapplySelection) :
    Except JobsError BiddingJobRecord :=
  let unlinked : JobsError := .tradingValidation
    "Selected jobs are no longer linked to this preset. Preview reapply again."
  match job with
  | none => .error unlinked
  | some job =>
    match job.target, job.competitionPreset with
    | .collection _ targetTraits, some linked =>
      if job.activeIn chainId collectionId = false ∨ linked.presetId ≠ preset.presetId then
        .error unlinked
      else if job.revision ≠ selection.expectedRevision ∨ linked.versionId ≠ selection.versionId ∨
          linked.versionId = preset.versionId then
        .error (.tradingValidation "Selected jobs changed. Preview reapply again.")
      else do
        asTradingValidation (assertCompetitionPresetSelection env
          (some ⟨preset.targetTraits, preset.revision, preset.revision, preset.archivedAt⟩)
          targetTraits false)
        .ok job
    | _, _ => .error unlinked

/-- One selected job of `reapplyCompetitionPreset`. -/
def reapplyJob (input : ReapplyPresetInput) (preset : CompetitionPreset)
    (selection : ReapplySelection) : JobsTx Written := do
  let found ← getJobById env selection.jobId
  let existing ← check
    (requireReapplyCompetitionPresetJob env found input.chainId input.collectionId preset selection)
  check (input.assertTargetSupported existing)
  let session ← get
  statement (updateTradingJobById existing.jobId existing.status.declared session.now)
  writeCompetitionPresetReference existing.jobId (some (some preset.versionId))
  let job ← requireCollectionJobById env existing.jobId
  let commands ← updatedJobCommands env existing job
  pure ⟨job, commands⟩

/-- `reapplyCompetitionPreset`, inside its transaction. -/
def reapplyCompetitionPresetInTransaction (input : ReapplyPresetInput) : JobsTx (List Written) := do
  let session ← get
  let current ← check (session.db.readCurrentBiddingCompetitionPreset env input.chainId
    input.collectionId input.presetId)
  let preset ← check (requireReapplyCompetitionPreset current input.expectedRevision)
  input.jobs.mapM (reapplyJob env input preset)

/-- The operations of the repository. -/
inductive JobsOp where
  | upsertTokenJob (input : UpsertTokenJobInput)
  | upsertTokenJobs (inputs : List UpsertTokenJobInput)
  | upsertCollectionJob (input : UpsertCollectionJobInput)
  | archiveTokenJob (chainId collectionId : Nat) (tokenId : String)
  | archiveJobById (chainId collectionId : Nat) (jobId : String)
  | updateJobsPricingById (inputs : List UpdateJobPricingInput)
  | reapplyCompetitionPreset (input : ReapplyPresetInput)

/-- The body of an operation's transaction, and what it wrote. -/
def JobsOp.body : JobsOp → JobsTx (List Written)
  | .upsertTokenJob input => do
    let written ← upsertTokenJobInTransaction env input
    pure [written]
  | .upsertTokenJobs inputs => inputs.mapM (upsertTokenJobInTransaction env)
  | .upsertCollectionJob input => do
    let written ← upsertCollectionJobInTransaction env input
    pure [written]
  | .archiveTokenJob chainId collectionId tokenId => do
    let written ← archiveTokenJobInTransaction env chainId collectionId tokenId
    pure written.toList
  | .archiveJobById chainId collectionId jobId => do
    let written ← archiveJobByIdInTransaction env chainId collectionId jobId
    pure written.toList
  | .updateJobsPricingById inputs => do
    let written ← inputs.mapM (updateJobPricingByIdInTransaction env)
    pure (written.filterMap id)
  | .reapplyCompetitionPreset input => reapplyCompetitionPresetInTransaction env input

/-- The transaction of an operation; its `COMMIT` can fail as well. -/
def JobsOp.transaction (op : JobsOp) : JobsTx (List Written) :=
  writeTransaction (do
    let written ← op.body env
    statement .ok
    pure written)

/-- A call of an operation, with the time, the random ids and the fault that it meets. -/
structure JobsCall where
  op : JobsOp
  now : Nat
  uuids : Nat → String
  faultAt : Option Nat

def JobsCall.session (call : JobsCall) (db : JobsDb) : Session :=
  ⟨db, call.now, call.uuids, 0, call.faultAt⟩

/-- What the call returns, and the database after it. -/
def JobsCall.exec (env : JobsEnv) (call : JobsCall) (db : JobsDb) :
    Except JobsError (List Written) × JobsDb :=
  let result := (call.op.transaction env).exec (call.session db)
  (result.1, result.2.db)

/-- What happens to the database: a call of the API, or what others write in between. -/
inductive JobsEvent where
  | api (call : JobsCall)
  | elsewhere (outside : Outside) (cancellations : Table CancellationRow.orderId)

def JobsEvent.apply (db : JobsDb) : JobsEvent → JobsDb
  | .api call => (call.exec env db).2
  | .elsewhere outside cancellations => { db with outside := outside, cancellations := cancellations }

/-- The database after a run. -/
def JobsDb.run (db : JobsDb) (events : List JobsEvent) : JobsDb :=
  events.foldl (JobsEvent.apply env) db

end Artgod.Trading
