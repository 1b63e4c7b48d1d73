/-
# Changes of jobs

What the operations of `JobDeclarations` do to the tables.  `JobChange` is one change of one job, with the
commands that `changeKinds` lists; every transaction that commits is a chain of such changes (`JobsOp.chain`).
The proof goes through the bodies: what each read returns (`Recorded`) and each statement writes (`SpecWrite`,
`Appends`).
-/
import Artgod.Trading.JobDeclarations
import Mathlib.Logic.Relation

namespace Artgod.Trading

open Store Store.Tx

/-! ## 1. What a change is -/

/-- The kinds of the commands of a change, the lifecycle command last. -/
def changeKinds (existed : Bool) : TradingJobStatus → List CommandKind
  | .enabled => [if existed then .jobUpdated else .jobCreated]
  | .paused => if existed then [.cancelActiveOffer, .jobPaused] else [.jobPaused]
  | .archived => [.cancelActiveOffer, .jobArchived]

/-- The order that the bot has persisted for a job, whichever revision placed it. -/
def JobsDb.persistedOrder (db : JobsDb) (job : JobRow) : Option TrackedActiveOrder :=
  (db.outside.runtime.get? job.jobId).bind (fun runtime => runtime.trackedActiveOrder job.revision)

/-- The commands of one change. -/
structure ChangeCommands (db : JobsDb) (before : Option JobRow) (after : JobRow)
    (news : List CommandRow) : Prop where
  kinds : news.map (·.commandKind) = changeKinds before.isSome after.status
  rows : ∀ c ∈ news, c.jobId = after.jobId ∧ c.requestedRevision = after.revision ∧ c.status = .pending
  order : ∀ c ∈ news, c.commandKind = .cancelActiveOffer →
    c.payload.activeOrder = before.bind db.persistedOrder

/-- The row is of the same job: neither its collection nor its token changed. -/
structure SameJob (job after : JobRow) : Prop where
  jobId : after.jobId = job.jobId
  chainId : after.chainId = job.chainId
  collectionId : after.collectionId = job.collectionId
  targetKind : after.targetKind = job.targetKind
  tokenId : after.tokenId = job.tokenId

/-- One change of one job, which was `before` and is `after`. -/
structure JobChange (db db' : JobsDb) (before : Option JobRow) (after : JobRow) : Prop where
  before_eq : db.jobs.get? after.jobId = before
  after_eq : db'.jobs.get? after.jobId = some after
  revision : after.revision = before.elim 0 (·.revision) + 1
  active : ∀ job, before = some job → job.status ≠ .archived ∧ SameJob job after
  created : before = none → after.status ≠ .archived
  others : ∀ jobId, jobId ≠ after.jobId →
    db'.jobs.get? jobId = db.jobs.get? jobId ∧ db'.specs.get? jobId = db.specs.get? jobId
  outside : db'.outside = db.outside
  commands : ∃ news, db'.commands.rows = db.commands.rows ++ news ∧ ChangeCommands db before after news

/-- The target that the rows of a job declare. -/
def JobRow.target (job : JobRow) (spec : SpecRow) : Option JobTarget :=
  match job.targetKind with
  | .token => job.tokenId.map JobTarget.token
  | .collection =>
    spec.quantity.map (fun quantity => .collection quantity (spec.targetTraits.getD []))
  | .competitiveTrait =>
    spec.quantity.map (fun quantity =>
      .competitiveTrait quantity (spec.targetTraits.getD []) (spec.competitorTraits.getD []))

def JobsDb.targetOf (db : JobsDb) (job : JobRow) : Option JobTarget :=
  (db.specs.get? job.jobId).bind job.target

/-- The same criteria, trimmed, in any order. -/
def SameTraits (traits traits' : List TraitCriterion) : Prop :=
  (traits.map TraitCriterion.trim).Perm (traits'.map TraitCriterion.trim)

instance (traits traits' : List TraitCriterion) : Decidable (SameTraits traits traits') :=
  inferInstanceAs (Decidable (List.Perm _ _))

/-- The same target: the token, or the quantity with the multiset of trimmed criteria. -/
def JobTarget.Same : JobTarget → JobTarget → Prop
  | .token tokenId, .token tokenId' => tokenId = tokenId'
  | .collection quantity traits, .collection quantity' traits' =>
    quantity = quantity' ∧ SameTraits traits traits'
  | .competitiveTrait quantity traits competitors, .competitiveTrait quantity' traits' competitors' =>
    quantity = quantity' ∧ SameTraits traits traits' ∧ SameTraits competitors competitors'
  | _, _ => False

/-- Two active jobs of one collection. -/
def ActiveTogether (job job' : JobRow) : Prop :=
  job.status ≠ .archived ∧ job'.status ≠ .archived ∧ job.chainId = job'.chainId ∧
    job.collectionId = job'.collectionId

/-- What a change does to targets: a job keeps its own, a new job has one that no active job of the
collection has. -/
structure ChangeKeeps (db db' : JobsDb) (before : Option JobRow) (after : JobRow) : Prop where
  kept : ∀ job, before = some job →
    ∃ t t', db.targetOf job = some t ∧ db'.targetOf after = some t' ∧ t.Same t'
  fresh : before = none → ∀ other ∈ db.jobs, ActiveTogether other after →
    ∀ t t', db.targetOf other = some t → db'.targetOf after = some t' → ¬ t.Same t'

/-- Some job changed, once; targets are kept where `good` holds. -/
def Changed (good : Prop) (db db' : JobsDb) : Prop :=
  ∃ before after, JobChange db db' before after ∧ (good → ChangeKeeps db db' before after)

/-- Nothing, or one change after another. -/
def Changes (good : Prop) : JobsDb → JobsDb → Prop := Relation.ReflTransGen (Changed good)

/-! ## 2. Reads -/

variable {s s' : Session} {env : JobsEnv} {db db' db1 : JobsDb} {job : JobRow}
  {record : BiddingJobRecord} {spec : SpecRow} {u : Unit} {row : BiddingJobRow}
  {found : Option BiddingJobRecord} {chainId collectionId : Nat} {input : UpsertCollectionJobInput}
  {news : List CommandRow} {traits : List TraitCriterion} {α : Type} {t : JobTarget} {good : Prop}
  {written : Written}

theorem statement_ok {write : JobsDb → Except JobsError JobsDb}
    (h : Returns (statement write) s u s') : write s.db = .ok s'.db := by
  simp only [statement, returns_bind, returns_get, returns_throwIf, returns_check, returns_set] at h
  obtain ⟨t, t', ⟨rfl, rfl⟩, -, t'', ⟨-, rfl⟩, db, t''', ⟨hwrite, rfl⟩, rfl⟩ := h
  exact hwrite

theorem mapTarget_ok {outside : Outside} {target : JobTarget}
    {preset : Option CompetitionPresetVersion} (h : mapTarget env outside row = .ok (target, preset)) :
    row.job.target row.spec = some target := by
  unfold mapTarget at h
  unfold JobRow.target
  cases hkind : row.job.targetKind with
  | token =>
    simp only [hkind] at h ⊢
    cases htoken : row.job.tokenId with
    | none =>
      rw [htoken] at h
      cases h
    | some tokenId =>
      simp only [htoken, ite_error_eq_ok] at h
      cases h.2
      rfl
  | collection =>
    simp only [hkind] at h ⊢
    cases hquantity : row.spec.quantity with
    | none =>
      rw [hquantity] at h
      cases h
    | some quantity =>
      simp only [hquantity, ite_error_eq_ok, bind_eq_ok] at h
      obtain ⟨-, preset', -, hok⟩ := h
      cases hok
      rfl
  | competitiveTrait =>
    simp only [hkind] at h ⊢
    cases hquantity : row.spec.quantity with
    | none =>
      rw [hquantity] at h
      cases h
    | some quantity =>
      simp only [hquantity, ite_error_eq_ok] at h
      cases h.2
      rfl

/-- The record is what the rows of a job say. -/
structure Recorded (db : JobsDb) (record : BiddingJobRecord) (job : JobRow) (spec : SpecRow) : Prop where
  row : db.selectJobById record.jobId = some ⟨job, spec, db.outside.runtime.get? record.jobId⟩
  job_eq : db.jobs.get? record.jobId = some job
  spec_eq : db.specs.get? record.jobId = some spec
  chainId : record.chainId = job.chainId
  collectionId : record.collectionId = job.collectionId
  status : record.status = job.status
  revision : record.revision = job.revision
  target : job.target spec = some record.target

theorem Recorded.jobId (h : Recorded db record job spec) : record.jobId = job.jobId :=
  (Table.get?_eq_some.mp h.job_eq).2.symm

theorem biddingJobRow_some (h : db.biddingJobRow job = some row) :
    row.job = job ∧ db.specs.get? job.jobId = some row.spec ∧
      row.runtime = db.outside.runtime.get? job.jobId := by
  simp only [JobsDb.biddingJobRow, Option.bind_eq_bind, Option.bind_eq_some_iff] at h
  obtain ⟨spec, hspec, collection, -, hrow⟩ := h
  cases hrow
  exact ⟨rfl, hspec, rfl⟩

theorem mapBiddingJobRow_recorded (hjob : job ∈ db.jobs) (hrow : db.biddingJobRow job = some row)
    (h : mapBiddingJobRow env db.outside row = .ok record) :
    record.jobId = job.jobId ∧ Recorded db record job row.spec := by
  obtain ⟨hrowjob, hspec, hruntime⟩ := biddingJobRow_some hrow
  simp only [mapBiddingJobRow, bind_eq_ok] at h
  obtain ⟨⟨target, preset⟩, htarget, hrecord⟩ := h
  cases hrecord
  have hget := Table.get?_of_mem hjob
  subst hrowjob
  refine ⟨rfl, ?_, hget, hspec, rfl, rfl, rfl, rfl, mapTarget_ok htarget⟩
  rw [JobsDb.selectJobById, hget]
  exact hrow.trans (congrArg some (by rw [← hruntime]))

theorem getJobById_returns {jobId : String}
    (h : Returns (getJobById env jobId) s found s') :
    s' = s ∧ ∀ record, found = some record →
      record.jobId = jobId ∧ ∃ job spec, Recorded s.db record job spec := by
  simp only [getJobById, returns_bind, returns_get] at h
  obtain ⟨t, t', ⟨rfl, rfl⟩, h⟩ := h
  split at h
  · obtain ⟨rfl, rfl⟩ := returns_pure.mp h
    exact ⟨rfl, fun record hrecord => by cases hrecord⟩
  next row hrow =>
  simp only [returns_bind, returns_check, returns_pure] at h
  obtain ⟨record, t', ⟨hmap, rfl⟩, rfl, rfl⟩ := h
  refine ⟨rfl, fun record' hrecord => ?_⟩
  cases hrecord
  rw [JobsDb.selectJobById, Option.bind_eq_bind, Option.bind_eq_some_iff] at hrow
  obtain ⟨job, hjob, hrow⟩ := hrow
  obtain ⟨hmem, hid⟩ := Table.get?_eq_some.mp hjob
  obtain ⟨hjobId, hrecorded⟩ := mapBiddingJobRow_recorded hmem hrow hmap
  exact ⟨hjobId.trans hid, job, row.spec, hrecorded⟩

theorem mem_latestFirst {rows : List BiddingJobRow} : row ∈ latestFirst rows ↔ row ∈ rows :=
  (List.perm_insertionSort _ rows).mem_iff

theorem getTokenJob_returns {tokenId : String}
    (h : Returns (getTokenJob env chainId collectionId tokenId) s found s') :
    s' = s ∧ ∀ record, found = some record → ∃ job spec, Recorded s.db record job spec ∧
      job.status ≠ .archived ∧ job.targetKind = .token ∧ job.tokenId = some tokenId := by
  simp only [getTokenJob, returns_bind, returns_get] at h
  obtain ⟨t, t', ⟨rfl, rfl⟩, h⟩ := h
  split at h
  · obtain ⟨rfl, rfl⟩ := returns_pure.mp h
    exact ⟨rfl, fun record hrecord => by cases hrecord⟩
  next row hrow =>
  simp only [returns_bind, returns_check] at h
  obtain ⟨record, t', ⟨hmap, rfl⟩, h⟩ := h
  have hrecorded : ∃ job spec, Recorded s.db record job spec ∧
      job.status ≠ .archived ∧ job.targetKind = .token ∧ job.tokenId = some tokenId := by
    have hmem := mem_latestFirst.mp (List.mem_of_head? hrow)
    obtain ⟨job, hjob, hrow⟩ := List.mem_filterMap.mp hmem
    rw [Table.mem_select] at hjob
    obtain ⟨hjob, hp⟩ := hjob
    simp only [Bool.and_eq_true, decide_eq_true_eq] at hp
    exact ⟨job, row.spec, (mapBiddingJobRow_recorded hjob hrow hmap).2, hp.2, hp.1.1.2, hp.1.2⟩
  split at h <;>
  · obtain ⟨rfl, rfl⟩ := returns_pure.mp h
    refine ⟨rfl, fun record' hrecord => ?_⟩
    cases hrecord <;> exact hrecorded

/-- An active job of the collection that bids on what the input asks for. -/
structure ActiveCollectionJob (env : JobsEnv) (input : UpsertCollectionJobInput) (job : JobRow)
    (spec : SpecRow) : Prop where
  chainId : job.chainId = input.chainId
  collectionId : job.collectionId = input.collectionId
  status : job.status ≠ .archived
  target : ∃ traits, job.target spec = some (.collection input.quantity traits) ∧
    tradingTraitCriteriaKey env traits =
      tradingTraitCriteriaKey env (normalizeTradingTraitCriteria env input.targetTraits)

theorem findActiveCollectionJob_returns
    (h : Returns (findActiveCollectionJob env input.chainId input.collectionId input.quantity
      (normalizeTradingTraitCriteria env input.targetTraits)) s found s') :
    s' = s ∧ (∀ record, found = some record → ∃ job spec, Recorded s.db record job spec ∧
        ActiveCollectionJob env input job spec) ∧
      (found = none → ∀ job ∈ s.db.jobs, ∀ row, s.db.biddingJobRow job = some row →
        ¬ ActiveCollectionJob env input job row.spec) := by
  simp only [findActiveCollectionJob, listCollectionJobs, returns_bind, returns_get, returns_check,
    returns_pure] at h
  obtain ⟨records, t, ⟨t', t'', ⟨rfl, rfl⟩, hmap, rfl⟩, hfound, rfl⟩ := h
  have hrows := forall₂_partners (mapM_ok hmap)
  -- the rows that the map runs over are those of the active jobs of the collection
  have hselected : ∀ row, row ∈ s.db.selectCollectionJobs input.chainId input.collectionId ↔
      ∃ job ∈ s.db.jobs, (job.chainId = input.chainId ∧ job.collectionId = input.collectionId ∧
        job.status ≠ .archived) ∧ s.db.biddingJobRow job = some row := by
    intro row
    rw [JobsDb.selectCollectionJobs, mem_latestFirst, List.mem_filterMap]
    constructor
    · rintro ⟨job, hjob, hrow⟩
      rw [Table.mem_select] at hjob
      refine ⟨job, hjob.1, ?_, hrow⟩
      simpa only [Bool.and_eq_true, decide_eq_true_eq, and_assoc] using hjob.2
    · rintro ⟨job, hjob, hactive, hrow⟩
      refine ⟨job, Table.mem_select.mpr ⟨hjob, ?_⟩, hrow⟩
      simpa only [Bool.and_eq_true, decide_eq_true_eq, and_assoc] using hactive
  refine ⟨rfl, ?_, ?_⟩
  · rintro record rfl
    have hbids := List.find?_some hfound
    obtain ⟨row, hrow, hmapped⟩ : ∃ row ∈ s.db.selectCollectionJobs input.chainId input.collectionId,
        mapBiddingJobRow env s.db.outside row = .ok record :=
      hrows.1 record (List.mem_of_find?_eq_some hfound)
    obtain ⟨job, hjob, ⟨hchain, hcollection, hstatus⟩, hjoin⟩ := (hselected row).mp hrow
    obtain ⟨-, hrecorded⟩ := mapBiddingJobRow_recorded hjob hjoin hmapped
    refine ⟨job, row.spec, hrecorded, hchain, hcollection, hstatus, ?_⟩
    rw [hrecorded.target]
    unfold BiddingJobRecord.bidsOn at hbids
    split at hbids
    · next quantity traits htarget =>
      rw [Bool.and_eq_true, decide_eq_true_eq, decide_eq_true_eq] at hbids
      exact ⟨traits, by rw [htarget, hbids.1], hbids.2⟩
    · cases hbids
  · rintro rfl job hjob row hjoin hactive
    have hrow := (hselected row).mpr
      ⟨job, hjob, ⟨hactive.chainId, hactive.collectionId, hactive.status⟩, hjoin⟩
    obtain ⟨record, hrecord, hmapped⟩ := hrows.2 row hrow
    obtain ⟨-, hrecorded⟩ := mapBiddingJobRow_recorded hjob hjoin hmapped
    obtain ⟨traits, htarget, hkey⟩ := hactive.target
    have hnot := List.find?_eq_none.mp hfound record hrecord
    rw [hrecorded.target, Option.some.injEq] at htarget
    unfold BiddingJobRecord.bidsOn at hnot
    rw [htarget] at hnot
    simp [hkey] at hnot

theorem requireJobById_returns {kind : String} {ofKind : JobTarget → Bool}
    {jobId : String}
    (h : Returns (requireJobById env kind ofKind jobId) s record s') :
    s' = s ∧ record.jobId = jobId ∧ ∃ job spec, Recorded s.db record job spec := by
  simp only [requireJobById, returns_bind] at h
  obtain ⟨found, t, hget, h⟩ := h
  obtain ⟨rfl, hfound⟩ := getJobById_returns hget
  split at h
  · exact absurd h (by simp)
  · next job hjob =>
    obtain ⟨rfl, rfl⟩ := returns_pure.mp h
    exact ⟨rfl, hfound job (Option.eq_some_of_filter_eq_some hjob)⟩

/-! ## 3. Writes -/

/-- Only commands were appended, and perhaps a cancellation requested. -/
structure Appends (db db' : JobsDb) (news : List CommandRow) : Prop where
  jobs : db'.jobs = db.jobs
  specs : db'.specs = db.specs
  outside : db'.outside = db.outside
  commands : db'.commands.rows = db.commands.rows ++ news

theorem Appends.trans {db'' : JobsDb} {news' : List CommandRow}
    (h : Appends db db' news) (h' : Appends db' db'' news') : Appends db db'' (news ++ news') where
  jobs := h'.jobs.trans h.jobs
  specs := h'.specs.trans h.specs
  outside := h'.outside.trans h.outside
  commands := by rw [h'.commands, h.commands, List.append_assoc]

theorem recordCancellationRequest_returns {job : BiddingJobRecord}
    {activeOrder : Option TrackedActiveOrder}
    (h : Returns (recordCancellationRequest env job activeOrder) s u s') : Appends s.db s'.db [] := by
  simp only [recordCancellationRequest, returns_bind, returns_get] at h
  obtain ⟨t, t', ⟨rfl, rfl⟩, h⟩ := h
  split at h
  · have hwrite := statement_ok h
    unfold insertCancellationRequest at hwrite
    split at hwrite
    · rw [Except.ok.injEq] at hwrite
      rw [← hwrite]
      exact ⟨rfl, rfl, rfl, (List.append_nil _).symm⟩
    · rw [Except.ok.injEq] at hwrite
      rw [← hwrite]
      exact ⟨rfl, rfl, rfl, (List.append_nil _).symm⟩
  · obtain ⟨-, rfl⟩ := returns_pure.mp h
    exact ⟨rfl, rfl, rfl, (List.append_nil _).symm⟩

theorem insertCommandRecord_returns {jobId : String} {commandKind : CommandKind} {revision : Nat}
    {payload : CommandPayload} {row : CommandRow}
    (h : Returns (insertCommandRecord jobId commandKind revision payload) s row s') :
    Appends s.db s'.db [s.db.commands.newRow jobId commandKind revision payload] := by
  simp only [insertCommandRecord, returns_bind, returns_get] at h
  obtain ⟨u, t, hwrite, t', t'', ⟨rfl, rfl⟩, h⟩ := h
  have hdb : s'.db = t.db := by
    split at h
    · exact absurd h (by simp)
    · obtain ⟨-, rfl⟩ := returns_pure.mp h
      rfl
  have hcommand := statement_ok hwrite
  rw [insertCommand, Except.ok.injEq] at hcommand
  rw [hdb, ← hcommand]
  exact ⟨rfl, rfl, rfl, rfl⟩

/-- The rows of a change: each of the kind, the job and the revision, and those that cancel with the
order. -/
theorem ChangeCommands.of_rows {before : Option JobRow} {after : JobRow}
    (hkinds : news.map (·.commandKind) = changeKinds before.isSome after.status)
    (hrows : ∀ c ∈ news, ∃ log : CommandLog, ∃ kind payload,
      c = log.newRow after.jobId kind after.revision payload ∧
        (kind = .cancelActiveOffer → payload.activeOrder = before.bind db.persistedOrder)) :
    ChangeCommands db before after news where
  kinds := hkinds
  rows := fun c hc => by
    obtain ⟨log, kind, payload, rfl, -⟩ := hrows c hc
    exact ⟨rfl, rfl, rfl⟩
  order := fun c hc hkind => by
    obtain ⟨log, kind, payload, rfl, horder⟩ := hrows c hc
    exact horder hkind

theorem Recorded.trackedActiveOrder (h : Recorded db record job spec) (revision : Nat) :
    db.trackedActiveOrder record.jobId revision =
      (db.outside.runtime.get? record.jobId).bind (fun runtime => runtime.trackedActiveOrder revision) := by
  rw [JobsDb.trackedActiveOrder, h.row]
  rfl

/-- `updatedJobCommands` appends the commands of a change from `job` to `after`, which is not archived.
`s` is the session in which the job has been written. -/
theorem updatedJobCommands_returns {existing : BiddingJobRecord}
    {after : JobRow} {commands : List CommandRow}
    (h : Returns (updatedJobCommands env existing record) s commands s')
    (hexisting : existing.jobId = record.jobId) (hrevision : existing.revision = job.revision)
    (hjob : job.jobId = record.jobId) (hrecord : Recorded s.db record after spec)
    (houtside : s.db.outside = db.outside) (hstatus : after.status ≠ .archived) :
    ∃ news, Appends s.db s'.db news ∧ ChangeCommands db (some job) after news := by
  have hid : after.jobId = record.jobId := hrecord.jobId.symm
  unfold updatedJobCommands at h
  rw [returns_ite] at h
  rcases h with ⟨hpaused, h⟩ | ⟨hpaused, h⟩
  · simp only [loadTrackedActiveOrder, returns_bind, returns_get, returns_pure] at h
    obtain ⟨order, t, ⟨t', t'', ⟨rfl, rfl⟩, horder, rfl⟩, _, t1, hcancel, _, t2, hfirst, _, t3, hsecond,
      -, rfl⟩ := h
    have horder' : order = db.persistedOrder job := by
      rw [← horder, hexisting, hrecord.trackedActiveOrder, houtside, hrevision, JobsDb.persistedOrder, hjob]
    have happends := ((recordCancellationRequest_returns hcancel).trans
      (insertCommandRecord_returns hfirst)).trans (insertCommandRecord_returns hsecond)
    refine ⟨_, happends, ChangeCommands.of_rows ?_ ?_⟩
    · rw [hrecord.status] at hpaused
      rw [hpaused]
      rfl
    intro c hc
    rw [hid, ← hrecord.revision]
    simp only [List.nil_append, List.cons_append, List.mem_cons, List.not_mem_nil, or_false] at hc
    rcases hc with rfl | rfl
    · exact ⟨_, _, _, rfl, fun _ => horder'⟩
    · exact ⟨_, _, _, rfl, fun hkind => by cases hkind⟩
  · simp only [returns_bind, returns_pure] at h
    obtain ⟨_, t1, hinsert, -, rfl⟩ := h
    refine ⟨_, insertCommandRecord_returns hinsert, ChangeCommands.of_rows ?_ ?_⟩
    · rw [hrecord.status] at hpaused
      cases hs : after.status with
      | enabled => rfl
      | paused => exact absurd hs hpaused
      | archived => exact absurd hs hstatus
    · intro c hc
      rw [hid, ← hrecord.revision]
      rw [List.mem_singleton] at hc
      exact ⟨_, _, _, hc, fun hkind => by cases hkind⟩

/-- Only the spec of the job was written. -/
structure SpecWrite (db db' : JobsDb) (jobId : String) : Prop where
  jobs : db'.jobs = db.jobs
  commands : db'.commands = db.commands
  outside : db'.outside = db.outside
  others : ∀ id, id ≠ jobId → db'.specs.get? id = db.specs.get? id

theorem SpecWrite.trans {db'' : JobsDb} {jobId : String} (h : SpecWrite db db' jobId)
    (h' : SpecWrite db' db'' jobId) : SpecWrite db db'' jobId where
  jobs := h'.jobs.trans h.jobs
  commands := h'.commands.trans h.commands
  outside := h'.outside.trans h.outside
  others := fun id hid => (h'.others id hid).trans (h.others id hid)

theorem SpecWrite.refl (db : JobsDb) (jobId : String) : SpecWrite db db jobId :=
  ⟨rfl, rfl, rfl, fun _ _ => rfl⟩

theorem get?_updateWhere_ne {key : α → String} {t : Table key} {k id : String} (f : α → α)
    (hf : ∀ a, key (f a) = key a) (hid : id ≠ k) :
    (t.updateWhere (fun a => key a = k) f hf).get? id = t.get? id := by
  rw [Table.get?_updateWhere]
  cases hget : t.get? id with
  | none => rfl
  | some a =>
    have hkey := (Table.get?_eq_some.mp hget).2
    rw [Option.map_some, if_neg (by simpa [hkey] using hid)]

theorem get?_updateWhere_self {key : α → String} {t : Table key} {k : String} (f : α → α)
    (hf : ∀ a, key (f a) = key a) {a : α} (hget : t.get? k = some a) :
    (t.updateWhere (fun a => key a = k) f hf).get? k = some (f a) := by
  have hkey := (Table.get?_eq_some.mp hget).2
  rw [Table.get?_updateWhere, hget, Option.map_some, if_pos (by simpa using hkey)]

theorem updateBiddingSpecById_ok
    (h : updateBiddingSpecById spec db = .ok db') : SpecWrite db db' spec.jobId ∧
      ∀ old, db.specs.get? spec.jobId = some old → db'.specs.get? spec.jobId = some (spec.overwrite old) := by
  simp only [updateBiddingSpecById, bind_eq_ok] at h
  obtain ⟨_, -, hdb⟩ := h
  cases hdb
  exact ⟨⟨rfl, rfl, rfl, fun id hid => get?_updateWhere_ne spec.overwrite (fun _ => rfl) hid⟩,
    fun old hold => get?_updateWhere_self spec.overwrite (fun _ => rfl) hold⟩

theorem writeCompetitionPresetVersion_ok {jobId : String} {versionId : Option String}
    (h : writeCompetitionPresetVersion jobId versionId db = .ok db') : SpecWrite db db' jobId ∧
      ∀ old, db.specs.get? jobId = some old → db'.specs.get? jobId = some (old.refer versionId) := by
  unfold writeCompetitionPresetVersion at h
  rw [ite_error_eq_ok] at h
  cases h.2
  exact ⟨⟨rfl, rfl, rfl, fun id hid => get?_updateWhere_ne (SpecRow.refer versionId) (fun _ => rfl) hid⟩,
    fun old hold => get?_updateWhere_self (SpecRow.refer versionId) (fun _ => rfl) hold⟩

theorem insertBiddingSpec_ok (h : insertBiddingSpec spec db = .ok db') : SpecWrite db db' spec.jobId ∧
      db'.specs.get? spec.jobId = some spec := by
  simp only [insertBiddingSpec, bind_eq_ok, ite_error_eq_ok] at h
  obtain ⟨_, -, hfresh, hdb⟩ := h
  rw [Bool.not_eq_true] at hfresh
  cases hdb
  have hnone : db.specs.get? spec.jobId = none := by
    rw [Table.get?_eq_none]
    exact Table.not_has_iff.mp hfresh
  refine ⟨⟨rfl, rfl, rfl, fun id hid => ?_⟩, ?_⟩
  · rw [Table.get?_insertOrIgnore, if_neg (fun h => hid h.symm)]
  · rw [Table.get?_insertOrIgnore, if_pos rfl, hnone]
    rfl

theorem writeCompetitionPresetReference_returns {jobId : String} {versionId : Option (Option String)}
    (h : Returns (writeCompetitionPresetReference jobId versionId) s u s') :
    SpecWrite s.db s'.db jobId ∧ ∀ old, s.db.specs.get? jobId = some old →
      ∃ v, s'.db.specs.get? jobId = some (old.refer v) := by
  unfold writeCompetitionPresetReference at h
  split at h
  · obtain ⟨-, rfl⟩ := returns_pure.mp h
    exact ⟨SpecWrite.refl _ _, fun old hold => ⟨old.competitionPresetVersionId, hold⟩⟩
  · next v =>
    obtain ⟨hwrite, hspec⟩ := writeCompetitionPresetVersion_ok (statement_ok h)
    exact ⟨hwrite, fun old hold => ⟨v, hspec old hold⟩⟩

/-! ## 4. Putting a change together -/

theorem SameTraits.refl (traits : List TraitCriterion) : SameTraits traits traits := List.Perm.refl _

theorem SameTraits.symm {traits' : List TraitCriterion} (h : SameTraits traits traits') :
    SameTraits traits' traits :=
  List.Perm.symm h

theorem SameTraits.trans {traits' traits'' : List TraitCriterion}
    (h : SameTraits traits traits') (h' : SameTraits traits' traits'') : SameTraits traits traits'' :=
  List.Perm.trans h h'

theorem sameTraits_normalize (env : JobsEnv) (traits : List TraitCriterion) :
    SameTraits (normalizeTradingTraitCriteria env traits) traits := by
  have htrim : (traits.map TraitCriterion.trim).map TraitCriterion.trim =
      traits.map TraitCriterion.trim := by
    rw [List.map_map]
    refine List.map_congr_left (fun trait _ => ?_)
    simp only [Function.comp_apply, TraitCriterion.trim, Js.trim_trim]
  have hsorted : ((normalizeTradingTraitCriteria env traits).map TraitCriterion.trim).Perm
      ((traits.map TraitCriterion.trim).map TraitCriterion.trim) :=
    (List.perm_insertionSort _ _).map _
  rw [htrim] at hsorted
  exact hsorted

theorem JobTarget.Same.refl (t : JobTarget) : t.Same t := by
  cases t with
  | token tokenId => rfl
  | collection quantity traits => exact ⟨rfl, .refl _⟩
  | competitiveTrait quantity traits competitors => exact ⟨rfl, .refl _, .refl _⟩

theorem JobTarget.Same.symm {t' : JobTarget} (h : t.Same t') : t'.Same t := by
  cases t <;> cases t' <;> simp only [JobTarget.Same] at h ⊢
  · exact Eq.symm h
  · exact ⟨h.1.symm, h.2.symm⟩
  · exact ⟨h.1.symm, h.2.1.symm, h.2.2.symm⟩

theorem JobTarget.Same.trans {t' t'' : JobTarget} (h : t.Same t') (h' : t'.Same t'') : t.Same t'' := by
  cases t <;> cases t' <;> simp only [JobTarget.Same] at h <;> cases t'' <;>
    simp only [JobTarget.Same] at h' ⊢
  · exact Eq.trans h h'
  · exact ⟨h.1.trans h'.1, h.2.trans h'.2⟩
  · exact ⟨h.1.trans h'.1, h.2.1.trans h'.2.1, h.2.2.trans h'.2.2⟩

theorem Recorded.targetOf (h : Recorded db record job spec) : db.targetOf job = some record.target := by
  rw [JobsDb.targetOf, ← h.jobId, h.spec_eq]
  exact h.target

theorem JobChange.of_update {db2 db3 : JobsDb} {f : JobRow → JobRow}
    {hf : ∀ row, (f row).jobId = row.jobId}
    (hjob : db.jobs.get? job.jobId = some job) (hactive : job.status ≠ .archived)
    (hsame : SameJob job (f job)) (hrevision : (f job).revision = job.revision + 1)
    (hrow : db1 = { db with jobs := db.jobs.updateWhere (fun row => row.jobId = job.jobId) f hf })
    (hspec : SpecWrite db1 db2 job.jobId) (hcommands : Appends db2 db3 news)
    (hnews : ChangeCommands db (some job) (f job) news) : JobChange db db3 (some job) (f job) where
  before_eq := by rw [hsame.jobId, hjob]
  after_eq := by
    rw [hcommands.jobs, hspec.jobs, hrow, hsame.jobId]
    exact get?_updateWhere_self f hf hjob
  revision := hrevision
  active := fun row hrow => by
    cases hrow
    exact ⟨hactive, hsame⟩
  created := fun h => by cases h
  others := fun jobId hid => by
    rw [hsame.jobId] at hid
    rw [hcommands.jobs, hspec.jobs, hcommands.specs, hspec.others jobId hid, hrow]
    exact ⟨get?_updateWhere_ne f hf hid, rfl⟩
  outside := by rw [hcommands.outside, hspec.outside, hrow]
  commands := ⟨news, by rw [hcommands.commands, hspec.commands, hrow], hnews⟩

theorem insertTradingJob_ok {row : JobRow} (h : insertTradingJob row db = .ok db') :
    db.jobs.has row.jobId = false ∧ db.jobs.rows.any (sameActiveToken row) = false ∧
      db.outside.collections.has row.collectionId = true ∧
      db' = { db with jobs := db.jobs.insertOrIgnore row } := by
  unfold insertTradingJob at h
  simp only [ite_error_eq_ok, Bool.not_eq_true, Bool.not_eq_false] at h
  obtain ⟨hid, htoken, hcollection, hdb⟩ := h
  cases hdb
  exact ⟨hid, htoken, hcollection, rfl⟩

theorem JobChange.of_create {db2 db3 : JobsDb} {row : JobRow}
    (hinsert : insertTradingJob row db = .ok db1) (hrevision : row.revision = 1)
    (hstatus : row.status ≠ .archived) (hspec : SpecWrite db1 db2 row.jobId)
    (hcommands : Appends db2 db3 news) (hnews : ChangeCommands db none row news) :
    JobChange db db3 none row := by
  obtain ⟨hid, -, -, rfl⟩ := insertTradingJob_ok hinsert
  have hnone : db.jobs.get? row.jobId = none := by
    rw [Table.get?_eq_none]
    exact Table.not_has_iff.mp hid
  refine ⟨hnone, ?_, by rw [hrevision]; rfl, (fun job h => by cases h), fun _ => hstatus, ?_, ?_,
    news, ?_, hnews⟩
  · rw [hcommands.jobs, hspec.jobs]
    simp only [Table.get?_insertOrIgnore, if_true, hnone]
    rfl
  · intro jobId hne
    rw [hcommands.jobs, hspec.jobs, hcommands.specs, hspec.others jobId hne]
    refine ⟨?_, rfl⟩
    rw [Table.get?_insertOrIgnore, if_neg (fun h : row.jobId = jobId => hne h.symm)]
  · rw [hcommands.outside, hspec.outside]
  · rw [hcommands.commands, hspec.commands]

/-! ## 5. Operations -/

theorem sameJob_declared (status : DeclaredStatus) (now : Nat) (job : JobRow) :
    SameJob job (job.declared status now) :=
  ⟨rfl, rfl, rfl, rfl, rfl⟩

theorem DeclaredStatus.toStatus_ne (status : DeclaredStatus) : status.toStatus ≠ .archived := by
  cases status <;> simp [DeclaredStatus.toStatus]

/-- The common course of the updates: the row of the active job `job` is declared anew, its spec is
written, the job is read back as `record`, and `updatedJobCommands` follows. -/
structure Redeclared (env : JobsEnv) (s s' : Session) (existing record : BiddingJobRecord)
    (status : DeclaredStatus) (spec spec' : SpecRow) (job : JobRow) : Prop where
  existing_eq : Recorded s.db existing job spec
  active : job.status ≠ .archived
  course : ∃ (now : Nat) (db1 : JobsDb) (s2 : Session) (commands : List CommandRow),
    updateTradingJobById existing.jobId status now s.db = .ok db1 ∧
      SpecWrite db1 s2.db existing.jobId ∧ s2.db.specs.get? existing.jobId = some spec' ∧
      record.jobId = existing.jobId ∧ (∃ after spec2, Recorded s2.db record after spec2) ∧
      Returns (updatedJobCommands env existing record) s2 commands s'

theorem Redeclared.changed {existing : BiddingJobRecord}
    {status : DeclaredStatus} {spec' : SpecRow}
    (h : Redeclared env s s' existing record status spec spec' job)
    (hkeeps : good → ∀ t', job.target spec' = some t' → existing.target.Same t') :
    Changed good s.db s'.db := by
  obtain ⟨now, db1, s2, commands, hupdate, hspec, hget, hid, ⟨after, spec2, hrecord⟩, hcommands⟩ :=
    h.course
  have hjobId := h.existing_eq.jobId
  have hjob : s.db.jobs.get? job.jobId = some job := by
    rw [← hjobId]
    exact h.existing_eq.job_eq
  rw [updateTradingJobById, Except.ok.injEq] at hupdate
  -- the row that is read back is the declared one
  have hafter : after = job.declared status now := by
    have hread := hrecord.job_eq
    rw [hid, hspec.jobs, ← hupdate, hjobId] at hread
    exact (Option.some.inj ((get?_updateWhere_self (JobRow.declared status now) (fun _ => rfl)
      hjob).symm.trans hread)).symm
  subst hafter
  have hspec2 : spec2 = spec' := by
    have hread := hrecord.spec_eq
    rw [hid, hget] at hread
    exact (Option.some.inj hread).symm
  subst hspec2
  rw [hjobId] at hspec hupdate
  have houtside : s2.db.outside = s.db.outside := by rw [hspec.outside, ← hupdate]
  obtain ⟨news, happends, hnews⟩ := updatedJobCommands_returns hcommands hid.symm
    h.existing_eq.revision (hjobId.symm.trans hid.symm) hrecord houtside status.toStatus_ne
  refine ⟨some job, job.declared status now, JobChange.of_update hjob h.active
    (sameJob_declared status now job) rfl hupdate.symm hspec happends hnews, fun hgood => ⟨?_, ?_⟩⟩
  · intro row hrow
    cases hrow
    refine ⟨existing.target, record.target, h.existing_eq.targetOf, ?_,
      hkeeps hgood record.target hrecord.target⟩
    rw [JobsDb.targetOf, happends.specs]
    exact hrecord.targetOf
  · intro hnone
    cases hnone

/-- The common course of the creations: the row is inserted, its spec is written, the job is read back as
`record`, and the lifecycle command follows. -/
theorem created_changed {s2 : Session} {row : JobRow}
    {command : CommandRow}
    (hinsert : insertTradingJob row db = .ok db1) (hrevision : row.revision = 1)
    (hstatus : row.status ≠ .archived) (hspec : SpecWrite db1 s2.db row.jobId)
    (hget : s2.db.specs.get? row.jobId = some spec) (hid : record.jobId = row.jobId)
    (hrecord : ∃ after spec2, Recorded s2.db record after spec2)
    (hcommand : Returns (insertCreatedCommand record) s2 command s')
    (hfresh : good → ∀ other ∈ db.jobs, ActiveTogether other row → ∀ t t', db.targetOf other = some t →
      row.target spec = some t' → ¬ t.Same t') : Changed good db s'.db := by
  obtain ⟨after, spec2, hrecord⟩ := hrecord
  obtain ⟨hnew, -, -, hdb1⟩ := insertTradingJob_ok hinsert
  have hafter : after = row := by
    have hread := hrecord.job_eq
    rw [hid, hspec.jobs, hdb1] at hread
    have hmem : row ∈ db.jobs.insertOrIgnore row := Table.mem_insertOrIgnore.mpr (.inr ⟨rfl, hnew⟩)
    exact (Option.some.inj ((Table.get?_of_mem hmem).symm.trans hread)).symm
  subst hafter
  have happends := insertCommandRecord_returns hcommand
  have hkinds : [if record.status = .paused then CommandKind.jobPaused else .jobCreated] =
      changeKinds false after.status := by
    rw [hrecord.status]
    cases hs : after.status with
    | enabled => rfl
    | paused => rfl
    | archived => exact absurd hs hstatus
  refine ⟨none, after, JobChange.of_create hinsert hrevision hstatus hspec happends
    (ChangeCommands.of_rows hkinds ?_), fun hgood => ⟨(fun job h => by cases h), ?_⟩⟩
  · intro c hc
    rw [List.mem_singleton] at hc
    rw [← hrecord.revision, ← hid]
    refine ⟨_, _, _, hc, fun hkind => ?_⟩
    split at hkind <;> cases hkind
  · intro _ other hother htogether t t' ht ht'
    refine hfresh hgood other hother htogether t t' ht ?_
    rw [JobsDb.targetOf, happends.specs, hget] at ht'
    exact ht'

theorem upsertTokenJobInTransaction_changed {input : UpsertTokenJobInput}
    (h : Returns (upsertTokenJobInTransaction env input) s written s') (good : Prop) :
    Changed good s.db s'.db := by
  simp only [upsertTokenJobInTransaction, returns_bind, returns_get] at h
  obtain ⟨found, t, hfind, t0, t0', ⟨rfl, rfl⟩, h⟩ := h
  obtain ⟨rfl, hfound⟩ := getTokenJob_returns hfind
  cases found with
  | some existing =>
    obtain ⟨job, spec, hrecorded, hactive, hkind, htoken⟩ := hfound existing rfl
    simp only [returns_bind, returns_pure] at h
    obtain ⟨_, t1, hupdate, _, t2, hspec, record, t3, hrequire, commands, t4, hcommands, -, rfl⟩ := h
    obtain ⟨hwrite, hget⟩ := updateBiddingSpecById_ok (statement_ok hspec)
    obtain ⟨rfl, hid, hread⟩ := requireJobById_returns hrequire
    have hold : t1.db.specs.get? existing.jobId = some spec := by
      rw [← hrecorded.spec_eq]
      have hdb := statement_ok hupdate
      rw [updateTradingJobById, Except.ok.injEq] at hdb
      rw [← hdb]
    have hcourse : Redeclared env _ _ existing record input.status spec _ job :=
      ⟨hrecorded, hactive, _, t1.db, t3, commands, statement_ok hupdate, hwrite, hget spec hold, hid,
        hread, hcommands⟩
    refine hcourse.changed (fun _ t' ht' => ?_)
    -- a token job bids on its token, whatever its spec
    have htarget := hrecorded.target
    simp only [JobRow.target, hkind] at htarget ht'
    rw [htarget] at ht'
    cases ht'
    exact .refl _
  | none =>
    simp only [randomUUID, returns_bind, returns_pure, returns_modifyGet] at h
    obtain ⟨jobId, t1, huuid, _, t2, hinsert, _, t3, hspec, record, t4, hrequire, command, t5, hcommand,
      -, rfl⟩ := h
    cases huuid
    obtain ⟨hwrite, hget⟩ := insertBiddingSpec_ok (statement_ok hspec)
    obtain ⟨rfl, hid, hread⟩ := requireJobById_returns hrequire
    have hinserted := statement_ok hinsert
    refine created_changed hinserted rfl input.status.toStatus_ne hwrite hget hid hread hcommand ?_
    -- the index of active tokens has no row of the token
    intro _ other hother htogether t t' ht ht' hsame
    obtain ⟨-, hindex, -, -⟩ := insertTradingJob_ok hinserted
    have hnot := List.any_eq_false.mp hindex other hother
    cases ht'
    obtain ⟨spec, -, ht⟩ := Option.bind_eq_some_iff.mp ht
    obtain ⟨hactive, -, hchain, hcollection⟩ := htogether
    unfold JobRow.target at ht
    split at ht
    · next hkind =>
      obtain ⟨tokenId, htokenId, rfl⟩ := Option.map_eq_some_iff.mp ht
      have heq : tokenId = input.tokenId := hsame
      refine hnot ?_
      have hstatus := input.status.toStatus_ne
      simp only [newJob] at hchain hcollection
      simp [sameActiveToken, newJob, hkind, hchain, hcollection, htokenId, heq, hactive, hstatus]
    · obtain ⟨quantity, -, rfl⟩ := Option.map_eq_some_iff.mp ht
      exact hsame
    · obtain ⟨quantity, -, rfl⟩ := Option.map_eq_some_iff.mp ht
      exact hsame

/-- For every active job of the input's collection and quantity, the key tells apart exactly the
different multisets of trimmed criteria. -/
def UpsertCollectionJobInput.keysAgree (env : JobsEnv) (input : UpsertCollectionJobInput) (db : JobsDb) :
    Bool :=
  db.jobs.rows.all (fun job =>
    if job.chainId = input.chainId ∧ job.collectionId = input.collectionId ∧ job.status ≠ .archived then
      match db.targetOf job with
      | some (.collection quantity traits) =>
        quantity ≠ input.quantity ||
          decide (tradingTraitCriteriaKey env traits =
            tradingTraitCriteriaKey env (normalizeTradingTraitCriteria env input.targetTraits)) ==
          decide (SameTraits traits input.targetTraits)
      | _ => true
    else true)

theorem UpsertCollectionJobInput.keysAgree_iff (h : input.keysAgree env db = true) (hjob : job ∈ db.jobs)
    (hchain : job.chainId = input.chainId) (hcollection : job.collectionId = input.collectionId)
    (hstatus : job.status ≠ .archived)
    (htarget : db.targetOf job = some (.collection input.quantity traits)) :
    tradingTraitCriteriaKey env traits =
        tradingTraitCriteriaKey env (normalizeTradingTraitCriteria env input.targetTraits) ↔
      SameTraits traits input.targetTraits := by
  have hrow := List.all_eq_true.mp h job hjob
  rw [if_pos ⟨hchain, hcollection, hstatus⟩, htarget] at hrow
  simpa using hrow

theorem assertPresetSelection_returns
    {targetTraits : List TraitCriterion} {existingVersionId : Option String}
    (h : Returns (assertPresetSelection env input targetTraits existingVersionId) s u s') : s' = s := by
  simp only [assertPresetSelection, returns_bind, returns_get] at h
  obtain ⟨t, t', ⟨rfl, rfl⟩, h⟩ := h
  split at h
  · exact (returns_check.mp h).2.symm
  · exact (returns_pure.mp h).2.symm

theorem JobRow.target_collection {quantity : Int}
    (h : job.target spec = some (.collection quantity traits)) :
    job.targetKind = .collection := by
  unfold JobRow.target at h
  split at h
  · obtain ⟨_, -, h⟩ := Option.map_eq_some_iff.mp h
    cases h
  · next hkind => exact hkind
  · obtain ⟨_, -, h⟩ := Option.map_eq_some_iff.mp h
    cases h

theorem biddingJobRow_of_target
    (ht : db.targetOf job = some t) (hcollection : db.outside.collections.has job.collectionId = true) :
    ∃ row, db.biddingJobRow job = some row ∧ job.target row.spec = some t := by
  obtain ⟨spec, hspec, ht⟩ := Option.bind_eq_some_iff.mp ht
  obtain ⟨collection, hget⟩ := Option.isSome_iff_exists.mp hcollection
  refine ⟨⟨job, spec, db.outside.runtime.get? job.jobId⟩, ?_, ht⟩
  rw [JobsDb.biddingJobRow, hspec, Option.bind_eq_bind, Option.bind_some, hget]
  rfl

theorem upsertCollectionJobInTransaction_changed
    (h : Returns (upsertCollectionJobInTransaction env input) s written s') :
    Changed (input.keysAgree env s.db = true) s.db s'.db := by
  simp only [upsertCollectionJobInTransaction, returns_bind, returns_get] at h
  obtain ⟨found, t, hfind, _, ta, hassert, t0, t0', ⟨rfl, rfl⟩, h⟩ := h
  obtain ⟨rfl, hfound, hnone⟩ := findActiveCollectionJob_returns hfind
  obtain rfl := assertPresetSelection_returns hassert
  cases found with
  | some existing =>
    obtain ⟨job, spec, hrecorded, hactive⟩ := hfound existing rfl
    simp only [returns_bind, returns_pure] at h
    obtain ⟨_, t1, hupdate, _, t2, hspec, _, t3, hrefer, record, t4, hrequire, commands, t5, hcommands,
      -, rfl⟩ := h
    obtain ⟨hwrite, hget⟩ := updateBiddingSpecById_ok (statement_ok hspec)
    obtain ⟨hwrite', hget'⟩ := writeCompetitionPresetReference_returns hrefer
    obtain ⟨rfl, hid, hread⟩ := requireJobById_returns hrequire
    have hold : t1.db.specs.get? existing.jobId = some spec := by
      rw [← hrecorded.spec_eq]
      have hdb := statement_ok hupdate
      rw [updateTradingJobById, Except.ok.injEq] at hdb
      rw [← hdb]
    obtain ⟨v, hget'⟩ := hget' _ (hget spec hold)
    have hcourse : Redeclared env _ _ existing record input.status spec _ job :=
      ⟨hrecorded, hactive.status, _, t1.db, t4, commands, statement_ok hupdate, hwrite.trans hwrite',
        hget', hid, hread, hcommands⟩
    refine hcourse.changed (fun hagree t' ht' => ?_)
    obtain ⟨traits, htarget, hkey⟩ := hactive.target
    have hmem := (Table.get?_eq_some.mp hrecorded.job_eq).1
    have hsame := (UpsertCollectionJobInput.keysAgree_iff hagree hmem hactive.chainId
      hactive.collectionId hactive.status (hrecorded.targetOf.trans
        (hrecorded.target.symm.trans htarget))).mp hkey
    have hkind := JobRow.target_collection htarget
    rw [hrecorded.target, Option.some.injEq] at htarget
    rw [htarget]
    simp only [JobRow.target, hkind] at ht'
    cases ht'
    exact ⟨rfl, hsame.trans (sameTraits_normalize env _).symm⟩
  | none =>
    simp only [randomUUID, returns_bind, returns_pure, returns_modifyGet] at h
    obtain ⟨jobId, t1, huuid, _, t2, hinsert, _, t3, hspec, _, t4, hrefer, record, t5, hrequire,
      command, t6, hcommand, -, rfl⟩ := h
    cases huuid
    obtain ⟨hwrite, hget⟩ := insertBiddingSpec_ok (statement_ok hspec)
    obtain ⟨hwrite', hget'⟩ := writeCompetitionPresetReference_returns hrefer
    obtain ⟨rfl, hid, hread⟩ := requireJobById_returns hrequire
    obtain ⟨v, hget'⟩ := hget' _ hget
    have hinserted := statement_ok hinsert
    refine created_changed hinserted rfl input.status.toStatus_ne (hwrite.trans hwrite') hget' hid hread
      hcommand ?_
    intro hagree other hother htogether t t' ht ht' hsame
    obtain ⟨-, -, hcollectionRow, -⟩ := insertTradingJob_ok hinserted
    obtain ⟨hactive, -, hchain, hcollection⟩ := htogether
    cases ht'
    -- a job with the target would have been found
    cases t with
    | token tokenId => exact hsame
    | competitiveTrait quantity traits competitors => exact hsame
    | collection quantity traits =>
      obtain ⟨rfl, hsame⟩ : quantity = input.quantity ∧ SameTraits traits _ := hsame
      have hkey := (UpsertCollectionJobInput.keysAgree_iff hagree hother hchain hcollection hactive
        ht).mpr (hsame.trans (sameTraits_normalize env _))
      obtain ⟨row, hrow, htarget⟩ := biddingJobRow_of_target ht (by rw [hcollection]; exact hcollectionRow)
      exact hnone rfl other hother row hrow ⟨hchain, hcollection, hactive, traits, htarget, hkey⟩

theorem activeIn_status (h : found.filter (fun job => job.activeIn chainId collectionId) = some record) :
    found = some record ∧ record.status ≠ .archived := by
  obtain ⟨hfound, hactive⟩ := Option.filter_eq_some_iff.mp h
  simp only [BiddingJobRecord.activeIn, Bool.and_eq_true, decide_eq_true_eq] at hactive
  exact ⟨hfound, hactive.2⟩

theorem archiveJobByIdInTransaction_changes {jobId : String}
    {written : Option Written}
    (h : Returns (archiveJobByIdInTransaction env chainId collectionId jobId) s written s')
    (good : Prop) : Changes good s.db s'.db := by
  simp only [archiveJobByIdInTransaction, returns_bind, returns_get] at h
  obtain ⟨found, t, hget, t0, t0', ⟨rfl, rfl⟩, h⟩ := h
  obtain ⟨rfl, hfound⟩ := getJobById_returns hget
  split at h
  · obtain ⟨-, rfl⟩ := returns_pure.mp h
    exact .refl
  next existing hexisting =>
  obtain ⟨rfl, hactive⟩ := activeIn_status hexisting
  obtain ⟨-, job, spec, hrecorded⟩ := hfound existing rfl
  rw [hrecorded.status] at hactive
  simp only [loadTrackedActiveOrder, returns_bind, returns_get, returns_pure] at h
  obtain ⟨order, t, ⟨t', t'', ⟨rfl, rfl⟩, horder, rfl⟩, _, t1, harchive, _, t2, hcancel, record, t3,
    hrequire, _, t4, hfirst, _, t5, hsecond, -, rfl⟩ := h
  obtain ⟨rfl, hid, after, spec2, hrecord⟩ := requireJobById_returns hrequire
  have hjobId := hrecorded.jobId
  have hjob : t.db.jobs.get? job.jobId = some job := by
    rw [← hjobId]
    exact hrecorded.job_eq
  have hdb := statement_ok harchive
  rw [archiveTradingJobById, Except.ok.injEq, hjobId] at hdb
  have hcancelled := recordCancellationRequest_returns hcancel
  have hafter : after = job.archive t.now := by
    have hread := hrecord.job_eq
    rw [hid, hcancelled.jobs, ← hdb, hjobId] at hread
    exact (Option.some.inj ((get?_updateWhere_self (JobRow.archive t.now) (fun _ => rfl)
      hjob).symm.trans hread)).symm
  subst hafter
  have horder' : order = t.db.persistedOrder job := by
    rw [← horder, hrecorded.trackedActiveOrder, hrecorded.revision, JobsDb.persistedOrder, hjobId]
  have happends := (hcancelled.trans (insertCommandRecord_returns hfirst)).trans
    (insertCommandRecord_returns hsecond)
  refine .single ⟨some job, job.archive t.now,
    JobChange.of_update hjob hactive ⟨rfl, rfl, rfl, rfl, rfl⟩ rfl hdb.symm (SpecWrite.refl _ _)
      happends (ChangeCommands.of_rows rfl ?_), fun _ => ⟨?_, fun hnone => by cases hnone⟩⟩
  · intro c hc
    rw [← hrecord.jobId, ← hrecord.revision]
    simp only [List.nil_append, List.cons_append, List.mem_cons, List.not_mem_nil, or_false] at hc
    rcases hc with rfl | rfl
    · exact ⟨_, _, _, rfl, fun _ => horder'⟩
    · exact ⟨_, _, _, rfl, fun hkind => by cases hkind⟩
  · intro row hrow
    cases hrow
    refine ⟨existing.target, existing.target, hrecorded.targetOf, ?_, .refl _⟩
    rw [JobsDb.targetOf, happends.specs, ← hdb, JobRow.archive]
    exact hrecorded.targetOf

theorem archiveTokenJobInTransaction_changes {tokenId : String} {written : Option Written}
    (h : Returns (archiveTokenJobInTransaction env chainId collectionId tokenId) s written s')
    (good : Prop) : Changes good s.db s'.db := by
  simp only [archiveTokenJobInTransaction, returns_bind] at h
  obtain ⟨found, t, hget, h⟩ := h
  obtain ⟨rfl, -⟩ := getTokenJob_returns hget
  cases found with
  | none =>
    obtain ⟨-, rfl⟩ := returns_pure.mp h
    exact .refl
  | some existing => exact archiveJobByIdInTransaction_changes h good

theorem target_repriced {input : UpdateJobPricingInput}
    (h : job.target spec = some record.target) :
    job.target ((input.spec record).overwrite spec) = some record.target := by
  unfold JobRow.target at h ⊢
  split
  · next hkind => rw [hkind] at h; exact h
  · next hkind =>
    rw [hkind] at h
    obtain ⟨quantity, -, htarget⟩ := Option.map_eq_some_iff.mp h
    simp only [UpdateJobPricingInput.spec, SpecRow.overwrite, ← htarget]
    rfl
  · next hkind =>
    rw [hkind] at h
    obtain ⟨quantity, -, htarget⟩ := Option.map_eq_some_iff.mp h
    simp only [UpdateJobPricingInput.spec, SpecRow.overwrite, ← htarget]
    rfl

theorem updateJobPricingByIdInTransaction_changes {input : UpdateJobPricingInput}
    {written : Option Written}
    (h : Returns (updateJobPricingByIdInTransaction env input) s written s') (good : Prop) :
    Changes good s.db s'.db := by
  simp only [updateJobPricingByIdInTransaction, returns_bind, returns_get] at h
  obtain ⟨found, t, hget, t0, t0', ⟨rfl, rfl⟩, h⟩ := h
  obtain ⟨rfl, hfound⟩ := getJobById_returns hget
  split at h
  · obtain ⟨-, rfl⟩ := returns_pure.mp h
    exact .refl
  next existing hexisting =>
  obtain ⟨rfl, hactive⟩ := activeIn_status hexisting
  obtain ⟨-, job, spec, hrecorded⟩ := hfound existing rfl
  rw [hrecorded.status] at hactive
  simp only [returns_bind, returns_pure] at h
  obtain ⟨_, t1, hupdate, _, t2, hspec, record, t3, hrequire, commands, t4, hcommands, -, rfl⟩ := h
  obtain ⟨hwrite, hget⟩ := updateBiddingSpecById_ok (statement_ok hspec)
  obtain ⟨rfl, hid, hread⟩ := requireJobById_returns hrequire
  have hold : t1.db.specs.get? existing.jobId = some spec := by
    rw [← hrecorded.spec_eq]
    have hdb := statement_ok hupdate
    rw [updateTradingJobById, Except.ok.injEq] at hdb
    rw [← hdb]
  have hcourse : Redeclared env _ _ existing record existing.status.declared spec _ job :=
    ⟨hrecorded, hactive, _, t1.db, t3, commands, statement_ok hupdate, hwrite, hget spec hold, hid,
      hread, hcommands⟩
  refine .single (hcourse.changed (fun _ t' ht' => ?_))
  rw [target_repriced hrecorded.target] at ht'
  cases ht'
  exact .refl _

theorem reapplyJob_changed {input : ReapplyPresetInput} {preset : CompetitionPreset}
    {selection : ReapplySelection}
    (h : Returns (reapplyJob env input preset selection) s written s') (good : Prop) :
    Changed good s.db s'.db := by
  simp only [reapplyJob, returns_bind, returns_get, returns_check, returns_pure] at h
  obtain ⟨found, t, hget, existing, ta, ⟨hrequired, rfl⟩, _, tb, ⟨-, rfl⟩, t0, t0', ⟨rfl, rfl⟩, _, t1,
    hupdate, _, t2, hrefer, record, t3, hrequire, commands, t4, hcommands, -, rfl⟩ := h
  obtain ⟨rfl, hfound⟩ := getJobById_returns hget
  -- the guard returns the job that was found, and only if it is active
  have hguard : found = some existing ∧ existing.status ≠ .archived := by
    unfold requireReapplyCompetitionPresetJob at hrequired
    dsimp only at hrequired
    split at hrequired
    · cases hrequired
    next job =>
    split at hrequired
    · simp only [ite_error_eq_ok, bind_eq_ok] at hrequired
      obtain ⟨hlinked, -, _, -, hok⟩ := hrequired
      cases hok
      rw [not_or, Bool.not_eq_false] at hlinked
      have hactive := hlinked.1
      simp only [BiddingJobRecord.activeIn, Bool.and_eq_true, decide_eq_true_eq] at hactive
      exact ⟨rfl, hactive.2⟩
    · cases hrequired
  obtain ⟨rfl, hactive⟩ := hguard
  obtain ⟨-, job, spec, hrecorded⟩ := hfound existing rfl
  rw [hrecorded.status] at hactive
  obtain ⟨hwrite, hget⟩ := writeCompetitionPresetReference_returns hrefer
  obtain ⟨rfl, hid, hread⟩ := requireJobById_returns hrequire
  have hold : t1.db.specs.get? existing.jobId = some spec := by
    rw [← hrecorded.spec_eq]
    have hdb := statement_ok hupdate
    rw [updateTradingJobById, Except.ok.injEq] at hdb
    rw [← hdb]
  obtain ⟨v, hget⟩ := hget _ hold
  have hcourse : Redeclared env _ _ existing record existing.status.declared spec _ job :=
    ⟨hrecorded, hactive, _, t1.db, t3, commands, statement_ok hupdate, hwrite, hget, hid, hread, hcommands⟩
  refine hcourse.changed (fun _ t' ht' => ?_)
  have htarget : job.target (spec.refer v) = job.target spec := rfl
  rw [htarget, hrecorded.target] at ht'
  cases ht'
  exact .refl _

theorem changes_mapM {β : Type} {f : α → JobsTx β}
    (hstep : ∀ x s b s', Returns (f x) s b s' → Changes good s.db s'.db) {xs : List α}
    {bs : List β} (h : Returns (xs.mapM f) s bs s') : Changes good s.db s'.db := by
  refine Returns.mapM_induct (I := fun t : Session => Changes good s.db t.db) h ?_ ?_
  · exact Relation.ReflTransGen.refl
  · intro x _ t t' b hchain hx
    exact hchain.trans (hstep x t b t' hx)

/-- The condition under which an operation keeps targets: only an upsert of a collection job has one. -/
def JobsOp.meets (env : JobsEnv) (db : JobsDb) : JobsOp → Bool
  | .upsertCollectionJob input => input.keysAgree env db
  | _ => true

theorem JobsOp.chain {op : JobsOp} {written : List Written}
    (h : Returns (op.body env) s written s') : Changes (op.meets env s.db = true) s.db s'.db := by
  cases op with
  | upsertTokenJob input =>
    simp only [JobsOp.body, returns_bind, returns_pure] at h
    obtain ⟨_, t, h, -, rfl⟩ := h
    exact .single (upsertTokenJobInTransaction_changed h _)
  | upsertTokenJobs inputs =>
    exact changes_mapM (fun input t b t' hstep => .single (upsertTokenJobInTransaction_changed hstep _)) h
  | upsertCollectionJob input =>
    simp only [JobsOp.body, returns_bind, returns_pure] at h
    obtain ⟨_, t, h, -, rfl⟩ := h
    exact .single (upsertCollectionJobInTransaction_changed h)
  | archiveTokenJob chainId collectionId tokenId =>
    simp only [JobsOp.body, returns_bind, returns_pure] at h
    obtain ⟨_, t, h, -, rfl⟩ := h
    exact archiveTokenJobInTransaction_changes h _
  | archiveJobById chainId collectionId jobId =>
    simp only [JobsOp.body, returns_bind, returns_pure] at h
    obtain ⟨_, t, h, -, rfl⟩ := h
    exact archiveJobByIdInTransaction_changes h _
  | updateJobsPricingById inputs =>
    simp only [JobsOp.body, returns_bind, returns_pure] at h
    obtain ⟨_, t, h, -, rfl⟩ := h
    exact changes_mapM (fun input t b t' hstep => updateJobPricingByIdInTransaction_changes hstep _) h
  | reapplyCompetitionPreset input =>
    simp only [JobsOp.body, reapplyCompetitionPresetInTransaction, returns_bind, returns_get,
      returns_check] at h
    obtain ⟨t, t', ⟨rfl, rfl⟩, current, ta, ⟨-, rfl⟩, preset, tb, ⟨-, rfl⟩, h⟩ := h
    exact changes_mapM (fun selection t b t' hstep => .single (reapplyJob_changed hstep _)) h

end Artgod.Trading
