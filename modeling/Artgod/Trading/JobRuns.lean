/-
# Runs of job declarations

What holds of the tables over every sequence of calls: a collection has at most one active job for a token and
at most one for a quantity and a multiset of trimmed criteria (`UniqueTargets`).  Targets rest on
`tradingTraitCriteriaKey`: a text with U+0000 or U+0001 in it can spell the key of another multiset, and criteria
that `localeCompare` does not tell apart give one multiset two keys.  `keysAgree` excludes both.
-/
import Artgod.Js.Joined
import Artgod.Trading.JobChanges
import Mathlib.Order.Basic

namespace Artgod.Trading

open Store Store.Tx

/-! ## 1. One change -/

/-- The targets that the operations can give a new job. -/
def JobTarget.declarable : JobTarget → Bool
  | .competitiveTrait _ _ _ => false
  | _ => true

theorem JobTarget.Same.declarable {t t' : JobTarget} (h : t.Same t') : t.declarable = t'.declarable := by
  cases t <;> cases t' <;> first | rfl | exact absurd h id

/-- Active jobs of one collection with the same target are one job. -/
def UniqueTargets (db : JobsDb) : Prop :=
  ∀ a ∈ db.jobs, ∀ b ∈ db.jobs, ActiveTogether a b → ∀ t t', db.targetOf a = some t →
    db.targetOf b = some t' → t.declarable = true → t.Same t' → a = b

variable {db db' : JobsDb} {a b : JobRow} {good : Prop} {env : JobsEnv}

theorem ActiveTogether.symm (h : ActiveTogether a b) : ActiveTogether b a :=
  ⟨h.2.1, h.1, h.2.2.1.symm, h.2.2.2.symm⟩

/-- The job keeps its target, and its row if it is archived. -/
structure JobKept (db db' : JobsDb) (job job' : JobRow) : Prop where
  same : SameJob job job'
  target : ∀ t, db.targetOf job = some t → ∃ t', db'.targetOf job' = some t' ∧ t.Same t'
  archived : job.status = .archived → job' = job

/-- Every job is still there with its target. -/
def TargetsKept (db db' : JobsDb) : Prop :=
  ∀ job ∈ db.jobs, ∃ job' ∈ db'.jobs, JobKept db db' job job'

theorem SameJob.refl (job : JobRow) : SameJob job job := ⟨rfl, rfl, rfl, rfl, rfl⟩

theorem SameJob.trans {c : JobRow} (h : SameJob a b) (h' : SameJob b c) : SameJob a c :=
  ⟨h'.jobId.trans h.jobId, h'.chainId.trans h.chainId, h'.collectionId.trans h.collectionId,
    h'.targetKind.trans h.targetKind, h'.tokenId.trans h.tokenId⟩

theorem TargetsKept.refl (db : JobsDb) : TargetsKept db db :=
  fun job hjob => ⟨job, hjob, .refl job, fun t ht => ⟨t, ht, .refl t⟩, fun _ => rfl⟩

theorem TargetsKept.trans {db'' : JobsDb} (h : TargetsKept db db') (h' : TargetsKept db' db'') :
    TargetsKept db db'' := by
  intro job hjob
  obtain ⟨job', hjob', hsame, htarget, harchived⟩ := h job hjob
  obtain ⟨job'', hjob'', hsame', htarget', harchived'⟩ := h' job' hjob'
  refine ⟨job'', hjob'', hsame.trans hsame', fun t ht => ?_, fun hstatus => ?_⟩
  · obtain ⟨t', ht', hs⟩ := htarget t ht
    obtain ⟨t'', ht'', hs'⟩ := htarget' t' ht'
    exact ⟨t'', ht'', hs.trans hs'⟩
  · have hrow := harchived hstatus
    rw [harchived' (by rw [hrow]; exact hstatus), hrow]

section OneChange

variable {db db' : JobsDb} {before : Option JobRow} {after : JobRow}

variable {job : JobRow}

theorem JobChange.other (h : JobChange db db' before after) (hid : job.jobId ≠ after.jobId) :
    (job ∈ db'.jobs ↔ job ∈ db.jobs) ∧ db'.targetOf job = db.targetOf job := by
  obtain ⟨hjobs, hspecs⟩ := h.others job.jobId hid
  constructor
  · constructor
    · intro hmem
      rw [Table.get?_of_mem hmem] at hjobs
      exact (Table.get?_eq_some.mp hjobs.symm).1
    · intro hmem
      rw [Table.get?_of_mem hmem] at hjobs
      exact (Table.get?_eq_some.mp hjobs).1
  · rw [JobsDb.targetOf, hspecs]
    rfl

theorem JobChange.after_mem (h : JobChange db db' before after) : after ∈ db'.jobs :=
  (Table.get?_eq_some.mp h.after_eq).1

theorem JobChange.mem_after (h : JobChange db db' before after) (hjob : job ∈ db'.jobs) :
    job = after ∨ (job.jobId ≠ after.jobId ∧ job ∈ db.jobs) := by
  by_cases hid : job.jobId = after.jobId
  · exact .inl (Table.eq_of_key_eq hjob h.after_mem hid)
  · exact .inr ⟨hid, (h.other hid).1.mp hjob⟩

theorem JobChange.no_twin (h : JobChange db db' before after) (hk : ChangeKeeps db db' before after)
    (hu : UniqueTargets db) {other : JobRow} (hother : other ∈ db.jobs)
    (hid : other.jobId ≠ after.jobId) (htogether : ActiveTogether other after) {t t' : JobTarget}
    (ht : db.targetOf other = some t) (ht' : db'.targetOf after = some t')
    (hdeclarable : t.declarable = true) : ¬ t.Same t' := by
  intro hsame
  cases hbefore : before with
  | none => exact hk.fresh hbefore other hother htogether t t' ht ht' hsame
  | some job =>
    obtain ⟨hactive, hjob⟩ := h.active job hbefore
    obtain ⟨t0, t1, ht0, ht1, hsame'⟩ := hk.kept job hbefore
    rw [ht', Option.some.injEq] at ht1
    subst ht1
    have hmem : job ∈ db.jobs := by
      have hget := h.before_eq.trans hbefore
      exact (Table.get?_eq_some.mp hget).1
    have heq := hu other hother job hmem ⟨htogether.1, hactive, htogether.2.2.1.trans hjob.chainId,
        htogether.2.2.2.trans hjob.collectionId⟩
      t t0 ht ht0 hdeclarable (hsame.trans hsame'.symm)
    exact hid (by rw [heq, hjob.jobId])

theorem UniqueTargets.change (hu : UniqueTargets db) (h : JobChange db db' before after)
    (hk : ChangeKeeps db db' before after) : UniqueTargets db' := by
  intro a ha b hb htogether t t' ht ht' hdeclarable hsame
  rcases h.mem_after ha with rfl | ⟨hida, ha⟩
  · rcases h.mem_after hb with rfl | ⟨hidb, hb⟩
    · rfl
    · rw [(h.other hidb).2] at ht'
      rw [hsame.declarable] at hdeclarable
      exact absurd hsame.symm (h.no_twin hk hu hb hidb htogether.symm ht' ht hdeclarable)
  · rw [(h.other hida).2] at ht
    rcases h.mem_after hb with rfl | ⟨hidb, hb⟩
    · exact absurd hsame (h.no_twin hk hu ha hida htogether ht ht' hdeclarable)
    · rw [(h.other hidb).2] at ht'
      exact hu a ha b hb htogether t t' ht ht' hdeclarable hsame

theorem TargetsKept.change (h : JobChange db db' before after) (hk : ChangeKeeps db db' before after) :
    TargetsKept db db' := by
  intro job hjob
  by_cases hid : job.jobId = after.jobId
  · have hbefore : before = some job := by
      rw [← h.before_eq, ← hid]
      exact Table.get?_of_mem hjob
    obtain ⟨hactive, hsame⟩ := h.active job hbefore
    obtain ⟨t0, t1, ht0, ht1, hsame'⟩ := hk.kept job hbefore
    refine ⟨after, h.after_mem, hsame, fun t ht => ?_, fun hstatus => absurd hstatus hactive⟩
    rw [ht0, Option.some.injEq] at ht
    exact ⟨t1, ht1, ht ▸ hsame'⟩
  · obtain ⟨hmem, htarget⟩ := h.other hid
    refine ⟨job, hmem.mpr hjob, .refl job, fun t ht => ⟨t, ?_, .refl t⟩, fun _ => rfl⟩
    rw [htarget, ht]

end OneChange

theorem Changes.kept (h : Changes good db db') (hgood : good)
    (hu : UniqueTargets db) : UniqueTargets db' ∧ TargetsKept db db' := by
  induction h with
  | refl => exact ⟨hu, .refl db⟩
  | tail _ hlast ih =>
    obtain ⟨before, after, hchange, hkeeps⟩ := hlast
    exact ⟨ih.1.change hchange (hkeeps hgood), ih.2.trans (TargetsKept.change hchange (hkeeps hgood))⟩

/-! ## 2. Calls and runs -/

/-- What every call does. -/
structure JobsCallKept (env : JobsEnv) (db : JobsDb) (call : JobsCall) : Prop where
  unique : UniqueTargets (call.exec env db).2
  targets : TargetsKept db (call.exec env db).2
  chain : Changes True db (call.exec env db).2
  failed : ∀ e, (call.exec env db).1 = .error e → (call.exec env db).2 = db

theorem JobsCall.exec_cases (env : JobsEnv) (call : JobsCall) (db : JobsDb) :
    (∃ (written : List Written) (t : Session), (call.exec env db).1 = .ok written ∧
      (call.exec env db).2 = t.db ∧ Returns (call.op.body env) (call.session db) written t) ∨
    ∃ e, (call.exec env db).1 = .error e ∧ (call.exec env db).2 = db := by
  rcases writeTransaction_run (do
      let written ← call.op.body env
      statement .ok
      pure written) (call.session db) with ⟨written, s', hreturns, hexec⟩ | ⟨e, hexec⟩
  · simp only [returns_bind, returns_pure] at hreturns
    obtain ⟨w, t, hbody, _, t', hcommit, rfl, rfl⟩ := hreturns
    have hdb : t.db = t'.db := Except.ok.inj (statement_ok hcommit)
    exact .inl ⟨w, t, congrArg Prod.fst hexec, (congrArg (fun r => r.2.db) hexec).trans hdb.symm, hbody⟩
  · exact .inr ⟨e, congrArg Prod.fst hexec, congrArg (fun r => r.2.db) hexec⟩

theorem JobsCall.changes (env : JobsEnv) (call : JobsCall) (db : JobsDb) :
    Changes (call.op.meets env db = true) db (call.exec env db).2 := by
  rcases call.exec_cases env db with ⟨written, t, -, hdb, hbody⟩ | ⟨e, -, hdb⟩
  · rw [hdb]
    exact JobsOp.chain hbody
  · rw [hdb]
    exact .refl

theorem Changes.mono {good' : Prop} (himp : good' → good)
    (h : Changes good db db') : Changes good' db db' := by
  induction h with
  | refl => exact .refl
  | tail _ hlast ih =>
    obtain ⟨before, after, hchange, hkeeps⟩ := hlast
    exact ih.tail ⟨before, after, hchange, fun hgood => hkeeps (himp hgood)⟩

theorem UniqueTargets.call {call : JobsCall} (hu : UniqueTargets db)
    (hmeets : call.op.meets env db = true) : JobsCallKept env db call := by
  have hchain := call.changes env db
  obtain ⟨hunique, htargets⟩ := hchain.kept hmeets hu
  refine ⟨hunique, htargets, hchain.mono (fun _ => hmeets), fun e he => ?_⟩
  rcases call.exec_cases env db with ⟨written, t, hok, -⟩ | ⟨e', -, hdb⟩
  · rw [hok] at he
    cases he
  · exact hdb

namespace JobsEvent

/-- The condition of an event: that of its operation. -/
def meets (env : JobsEnv) (db : JobsDb) : JobsEvent → Bool
  | .api call => call.op.meets env db
  | .elsewhere _ _ => true

/-- Every event meets its condition when its turn comes. -/
def meetsThroughout (env : JobsEnv) : JobsDb → List JobsEvent → Bool
  | _, [] => true
  | db, event :: rest => event.meets env db && meetsThroughout env (event.apply env db) rest

end JobsEvent

theorem UniqueTargets.event {event : JobsEvent} (hu : UniqueTargets db)
    (hmeets : event.meets env db = true) : UniqueTargets (event.apply env db) := by
  cases event with
  | api call => exact (hu.call hmeets).unique
  | elsewhere outside cancellations => exact hu

/-- In a run whose events meet their conditions, what follows a prefix meets them from where it ends,
and targets are unique there. -/
theorem UniqueTargets.run {env : JobsEnv} {before after : List JobsEvent} {db : JobsDb}
    (hu : UniqueTargets db) (hmeets : JobsEvent.meetsThroughout env db (before ++ after) = true) :
    UniqueTargets (db.run env before) ∧ JobsEvent.meetsThroughout env (db.run env before) after = true := by
  induction before generalizing db with
  | nil => exact ⟨hu, hmeets⟩
  | cons event rest ih =>
    rw [List.cons_append, JobsEvent.meetsThroughout, Bool.and_eq_true] at hmeets
    exact ih (hu.event hmeets.1) hmeets.2

/-- **Declarations and their outbox stay in step.**  In every run whose events meet their conditions, in
every state the targets of active jobs are unique, and every call keeps targets, is a chain of changes
each with its revision and commands, and changes nothing if it throws. -/
theorem job_declarations_kept (env : JobsEnv) (db : JobsDb) (hunique : UniqueTargets db)
    (events : List JobsEvent) (hmeets : JobsEvent.meetsThroughout env db events = true) :
    ∀ before after, events = before ++ after → UniqueTargets (db.run env before) ∧
        ∀ call rest, after = .api call :: rest → JobsCallKept env (db.run env before) call := by
  rintro before after rfl
  obtain ⟨hu, hafter⟩ := hunique.run hmeets
  refine ⟨hu, ?_⟩
  rintro call rest rfl
  rw [JobsEvent.meetsThroughout, Bool.and_eq_true] at hafter
  exact hu.call hafter.1

/-! ## 3. Two targets, one key; one target, two keys -/

/-- The letter with its accent, for the letter and the accent after it. -/
def composeAcute : List Char → List Char
  | 'e' :: '\u0301' :: rest => '\u00e9' :: composeAcute rest
  | c :: rest => c :: composeAcute rest
  | [] => []

/-- A comparison that takes canonically equivalent spellings as equal. -/
def acuteCompare (a b : String) : Int :=
  let x := String.ofList (composeAcute a.toList)
  let y := String.ofList (composeAcute b.toList)
  if x = y then 0 else if x < y then -1 else 1

def acuteEnv : JobsEnv where
  localeCompare := acuteCompare
  platform := ⟨fun c => [c], id⟩

/-- One collection and no job. -/
def emptyJobsDb : JobsDb where
  jobs := .empty
  specs := .empty
  cancellations := .empty
  commands := .empty
  outside := ⟨.empty, .empty, .empty, Table.empty.insertOrIgnore ⟨1, some "c", "0x1"⟩, []⟩

/-- An upsert of a collection job for one item. -/
def upsertCall (uuid : String) (status : DeclaredStatus) (targetTraits : List TraitCriterion) : JobsEvent :=
  .api {
    op := .upsertCollectionJob {
      chainId := 1
      collectionId := 1
      status := status
      pricing := ⟨"1", "2", "1", none, none⟩
      quantity := 1
      targetTraits := targetTraits
      competitionPresetVersionId := none }
    now := 0
    uuids := fun _ => uuid
    faultAt := none }

/-- A job is created and paused. -/
def pausedEvents : List JobsEvent :=
  [upsertCall "a" .enabled [⟨"Mood", "Calm"⟩], upsertCall "b" .paused [⟨" Mood", "Calm "⟩]]

theorem job_declarations_kept_sample :
    (emptyJobsDb.run acuteEnv pausedEvents).commands.rows.map (·.commandKind) =
        [.jobCreated, .cancelActiveOffer, .jobPaused] ∧
      UniqueTargets (emptyJobsDb.run acuteEnv pausedEvents) :=
  ⟨by decide +kernel,
    (job_declarations_kept acuteEnv emptyJobsDb (fun a ha => absurd ha Table.not_mem_empty) pausedEvents
      (by decide +kernel) pausedEvents [] (List.append_nil _).symm).1⟩

/-- Two spellings of one word, as criteria in either order. -/
def accentEvents : List JobsEvent :=
  [upsertCall "a" .enabled [⟨"Mood", "\u00e9"⟩, ⟨"Mood", "e\u0301"⟩],
    upsertCall "b" .enabled [⟨"Mood", "e\u0301"⟩, ⟨"Mood", "\u00e9"⟩]]

/-- A criterion, and one that the separator makes look like it. -/
def separatorEvents : List JobsEvent :=
  [upsertCall "a" .enabled [⟨"x\u0000y", "z"⟩], upsertCall "b" .enabled [⟨"x", "y\u0000z"⟩]]

/-- The row that these events create. -/
def createdRow (jobId : String) (revision : Nat) : JobRow :=
  { newJob jobId 1 1 .enabled .collection none 0 with revision := revision }

/-- **One multiset of criteria gets two active jobs, and a job loses its target to another.** -/
theorem job_declarations_not_kept : ¬ UniqueTargets (emptyJobsDb.run acuteEnv accentEvents) ∧
      ¬ TargetsKept (emptyJobsDb.run acuteEnv (separatorEvents.take 1))
        (emptyJobsDb.run acuteEnv separatorEvents) := by
  constructor
  · intro hunique
    have ha : createdRow "a" 1 ∈ (emptyJobsDb.run acuteEnv accentEvents).jobs.rows := by decide +kernel
    have hb : createdRow "b" 1 ∈ (emptyJobsDb.run acuteEnv accentEvents).jobs.rows := by decide +kernel
    have hta : (emptyJobsDb.run acuteEnv accentEvents).targetOf (createdRow "a" 1) =
        some (.collection 1 [⟨"Mood", "\u00e9"⟩, ⟨"Mood", "e\u0301"⟩]) := by decide +kernel
    have htb : (emptyJobsDb.run acuteEnv accentEvents).targetOf (createdRow "b" 1) =
        some (.collection 1 [⟨"Mood", "e\u0301"⟩, ⟨"Mood", "\u00e9"⟩]) := by decide +kernel
    have hsame : JobTarget.Same (.collection 1 [⟨"Mood", "\u00e9"⟩, ⟨"Mood", "e\u0301"⟩])
        (.collection 1 [⟨"Mood", "e\u0301"⟩, ⟨"Mood", "\u00e9"⟩]) :=
      ⟨rfl, by decide +kernel⟩
    have heq := hunique _ ha _ hb ⟨by decide, by decide, rfl, rfl⟩ _ _ hta htb rfl hsame
    exact absurd heq (by decide)
  · intro hkept
    have ha : createdRow "a" 1 ∈ (emptyJobsDb.run acuteEnv (separatorEvents.take 1)).jobs.rows := by
      decide +kernel
    have hta : (emptyJobsDb.run acuteEnv (separatorEvents.take 1)).targetOf (createdRow "a" 1) =
        some (.collection 1 [⟨"x\u0000y", "z"⟩]) := by decide +kernel
    obtain ⟨job, hjob, hrow⟩ := hkept _ ha
    have hrows : (emptyJobsDb.run acuteEnv separatorEvents).jobs.rows = [createdRow "a" 2] := by
      decide +kernel
    rw [Table.mem_def, hrows, List.mem_singleton] at hjob
    subst hjob
    have htb : (emptyJobsDb.run acuteEnv separatorEvents).targetOf (createdRow "a" 2) =
        some (.collection 1 [⟨"x", "y\u0000z"⟩]) := by decide +kernel
    obtain ⟨t, ht, hsame⟩ := hrow.target _ hta
    rw [htb, Option.some.injEq] at ht
    subst ht
    have hnot : ¬ SameTraits [⟨"x\u0000y", "z"⟩] [⟨"x", "y\u0000z"⟩] := by decide +kernel
    exact hnot hsame.2

end Artgod.Trading
