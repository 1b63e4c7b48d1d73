/-
# The schedule of the bidder

`Bidder` holds its jobs in a map, with two indexes of the token jobs and a count of each kind of target.
`addJob` changes the map before the step that refuses a second job for one token, so that a call that throws
leaves them apart; as long as no such call is made, they agree (`schedule_indexes_kept`).
-/
import Artgod.Js.OrderedMap
import Artgod.Machine.Runs
import Artgod.Store.SecondaryIndex
import Artgod.Trading.BidderJobs

namespace Artgod.Trading

open Store Js
open Function (update_apply update_self update_of_ne)

/-! ## 1. The schedule -/

structure BidderSchedule where
  jobs : OrderedMap String ScheduledJob
  tokenJobIdByCollectionToken : OrderedMap String String
  /-- The sets are the ids in the order they were added. -/
  tokenJobIdsByCollection : OrderedMap String (List String)
  jobTargetCounts : BidderTargetType → Nat

/-- What `addJobToIndexes` throws. -/
inductive ScheduleError
  | duplicateTokenJob (jobId existingJobId : String)
  deriving DecidableEq

namespace BidderSchedule

def create : BidderSchedule := ⟨.empty, .empty, .empty, fun _ => 0⟩

def makeCollectionTokenKey (collectionSlug tokenId : String) : String := collectionSlug ++ ":" ++ tokenId

section

variable (s : BidderSchedule)

/-- `adjustJobTargetCount` by one up. -/
def countUp (targetType : BidderTargetType) : BidderSchedule :=
  { s with
    jobTargetCounts := Function.update s.jobTargetCounts targetType (s.jobTargetCounts targetType + 1) }

/-- `adjustJobTargetCount` by one down, at zero at the least. -/
def countDown (targetType : BidderTargetType) : BidderSchedule :=
  { s with
    jobTargetCounts := Function.update s.jobTargetCounts targetType (s.jobTargetCounts targetType - 1) }

/-- The id leaves the set of a collection, and an empty set leaves the index. -/
def removeFromCollection (collectionSlug jobId : String) : BidderSchedule :=
  match s.tokenJobIdsByCollection.get collectionSlug with
  | none => s
  | some ids =>
    if ids.filter (· ≠ jobId) = [] then
      { s with tokenJobIdsByCollection := s.tokenJobIdsByCollection.delete collectionSlug }
    else
      { s with tokenJobIdsByCollection := s.tokenJobIdsByCollection.set collectionSlug (ids.filter (· ≠ jobId)) }

def removeJobFromIndexes (job : ScheduledJob) : BidderSchedule :=
  match job.target with
  | .token tokenId =>
    let collectionTokenKey := makeCollectionTokenKey job.collectionSlug tokenId
    let s :=
      if s.tokenJobIdByCollectionToken.get collectionTokenKey = some job.id then
        { s with tokenJobIdByCollectionToken := s.tokenJobIdByCollectionToken.delete collectionTokenKey }
      else s
    s.removeFromCollection job.collectionSlug job.id
  | _ => s

/-- The id joins the set of a collection. -/
def addToCollection (collectionSlug jobId : String) : BidderSchedule :=
  let ids := (s.tokenJobIdsByCollection.get collectionSlug).getD []
  { s with
    tokenJobIdsByCollection :=
      s.tokenJobIdsByCollection.set collectionSlug (if jobId ∈ ids then ids else ids ++ [jobId]) }

/-- `addJobToIndexes`.  An id that is empty does not count as one that is there. -/
def addJobToIndexes (job : ScheduledJob) : Except ScheduleError BidderSchedule :=
  match job.target with
  | .token tokenId =>
    let collectionTokenKey := makeCollectionTokenKey job.collectionSlug tokenId
    let existingJobId := (s.tokenJobIdByCollectionToken.get collectionTokenKey).getD ""
    if existingJobId ≠ "" ∧ existingJobId ≠ job.id then .error (.duplicateTokenJob job.id existingJobId)
    else
      .ok ({ s with
        tokenJobIdByCollectionToken :=
          s.tokenJobIdByCollectionToken.set collectionTokenKey job.id }.addToCollection job.collectionSlug job.id)
  | _ => .ok s

end

/-- The job that replaces one with its id keeps the state of its order, if it is for the same target. -/
def inheritState (engine : TraitEngine) (existingJob job : ScheduledJob) : ScheduledJob :=
  if hasSameTargetIdentity engine existingJob job then { job with state := existingJob.state.spread job.state }
  else job

/-- The part of `addJob` that cannot throw, with the job that goes into the map. -/
def replaceJob (engine : TraitEngine) (s : BidderSchedule) (job : ScheduledJob) :
    ScheduledJob × BidderSchedule :=
  match s.jobs.get job.id with
  | none => (job, { s with jobs := s.jobs.set job.id job })
  | some existingJob =>
    let job := inheritState engine existingJob job
    let s := (s.removeJobFromIndexes existingJob).countDown existingJob.target.type
    (job, { s with jobs := s.jobs.set job.id job })

/-- `addJob`: what it throws, if it does, and the schedule it leaves. -/
def addJob (engine : TraitEngine) (s : BidderSchedule) (job : ScheduledJob) :
    Option ScheduleError × BidderSchedule :=
  let (job, s) := s.replaceJob engine job
  match s.addJobToIndexes job with
  | .error error => (some error, s)
  | .ok s => (none, s.countUp job.target.type)

def removeJob (s : BidderSchedule) (jobId : String) : Option ScheduledJob × BidderSchedule :=
  match s.jobs.get jobId with
  | none => (none, s)
  | some existingJob =>
    let s := s.removeJobFromIndexes existingJob
    (some existingJob, { s with jobs := s.jobs.delete jobId }.countDown existingJob.target.type)

end BidderSchedule

/-! ## 2. Indexes computed from jobs -/

/-- The key of a token job. -/
def ScheduledJob.tokenKey (job : ScheduledJob) : Option String :=
  match job.target with
  | .token tokenId => some (BidderSchedule.makeCollectionTokenKey job.collectionSlug tokenId)
  | _ => none

/-- The collection of a token job. -/
def ScheduledJob.tokenSlug (job : ScheduledJob) : Option String :=
  match job.target with
  | .token _ => some job.collectionSlug
  | _ => none

/-- The indexes of the schedule are those of these jobs, of which there are so many of each kind. -/
structure IndexedBy (held : String → Option ScheduledJob) (total : BidderTargetType → Nat)
    (s : BidderSchedule) : Prop where
  ids : ∀ id job, held id = some job → job.id = id
  token : UniqueIndex ScheduledJob.tokenKey held s.tokenJobIdByCollectionToken.get
  collection : GroupIndex ScheduledJob.tokenSlug held fun slug id =>
    id ∈ (s.tokenJobIdsByCollection.get slug).getD []
  sets : ∀ slug ids, s.tokenJobIdsByCollection.get slug = some ids → ids ≠ [] ∧ ids.Nodup
  counts : ∀ targetType, s.jobTargetCounts targetType = total targetType

/-- How many jobs have a kind of target. -/
def countTargets (jobs : OrderedMap String ScheduledJob) (targetType : BidderTargetType) : Nat :=
  jobs.count fun job => job.target.type = targetType

/-- **The indexes are the ones computed from the jobs map.** -/
def Indexed (s : BidderSchedule) : Prop := IndexedBy s.jobs.get (countTargets s.jobs) s

theorem indexed_create : Indexed .create where
  ids := fun _ _ h => nomatch h
  token := fun _ _ => ⟨(fun h => nomatch h), fun ⟨_, h, _⟩ => nomatch h⟩
  collection := fun _ _ => ⟨fun h => absurd h List.not_mem_nil, fun ⟨_, h, _⟩ => nomatch h⟩
  sets := fun _ _ h => nomatch h
  counts := fun _ => rfl

section Indexes

variable {held : String → Option ScheduledJob} {total : BidderTargetType → Nat} {s : BidderSchedule}
  {job : ScheduledJob}

theorem mem_removeFromCollection {slug jobId : String}
    (hsets : ∀ slug ids, s.tokenJobIdsByCollection.get slug = some ids → ids ≠ [] ∧ ids.Nodup) :
    (∀ slug' id, id ∈ ((s.removeFromCollection slug jobId).tokenJobIdsByCollection.get slug').getD [] ↔
      id ∈ (s.tokenJobIdsByCollection.get slug').getD [] ∧ ¬ (slug' = slug ∧ id = jobId)) ∧
    ∀ slug' ids, (s.removeFromCollection slug jobId).tokenJobIdsByCollection.get slug' = some ids →
      ids ≠ [] ∧ ids.Nodup := by
  unfold BidderSchedule.removeFromCollection
  split
  · next hnone =>
    refine ⟨fun slug' id => ⟨fun hid => ⟨hid, ?_⟩, fun hid => hid.1⟩, hsets⟩
    rintro ⟨rfl, -⟩
    rw [hnone] at hid
    exact absurd hid List.not_mem_nil
  next ids hids =>
  have hkept : ∀ id, id ∈ ids.filter (· ≠ jobId) ↔ id ∈ ids ∧ id ≠ jobId := by
    intro id
    rw [List.mem_filter, decide_eq_true_iff]
  split
  · next hempty =>
    refine ⟨fun slug' id => ?_, fun slug' ids' hids' => ?_⟩
    · rw [OrderedMap.get_delete]
      by_cases hslug : slug' = slug
      · subst hslug
        rw [if_pos rfl, hids]
        refine ⟨fun hid => absurd hid List.not_mem_nil, fun hid => ?_⟩
        have hmem := (hkept id).mpr ⟨hid.1, fun heq => hid.2 ⟨rfl, heq⟩⟩
        rw [hempty] at hmem
        exact absurd hmem List.not_mem_nil
      · rw [if_neg hslug]
        exact ⟨fun hid => ⟨hid, fun h => hslug h.1⟩, fun hid => hid.1⟩
    · rw [OrderedMap.get_delete] at hids'
      split at hids'
      · cases hids'
      · exact hsets slug' ids' hids'
  · next hsome =>
    refine ⟨fun slug' id => ?_, fun slug' ids' hids' => ?_⟩
    · rw [OrderedMap.get_set]
      by_cases hslug : slug' = slug
      · subst hslug
        rw [if_pos rfl, hids]
        exact (hkept id).trans (and_congr_right fun _ => ⟨fun hne h => hne h.2, fun h heq => h ⟨rfl, heq⟩⟩)
      · rw [if_neg hslug]
        exact ⟨fun hid => ⟨hid, fun h => hslug h.1⟩, fun hid => hid.1⟩
    · rw [OrderedMap.get_set] at hids'
      split at hids'
      · cases hids'
        exact ⟨hsome, (hsets slug ids hids).2.filter _⟩
      · exact hsets slug' ids' hids'

theorem mem_addToCollection {slug jobId : String}
    (hsets : ∀ slug ids, s.tokenJobIdsByCollection.get slug = some ids → ids ≠ [] ∧ ids.Nodup) :
    (∀ slug' id, id ∈ ((s.addToCollection slug jobId).tokenJobIdsByCollection.get slug').getD [] ↔
      id ∈ (s.tokenJobIdsByCollection.get slug').getD [] ∨ (slug' = slug ∧ id = jobId)) ∧
    ∀ slug' ids, (s.addToCollection slug jobId).tokenJobIdsByCollection.get slug' = some ids →
      ids ≠ [] ∧ ids.Nodup := by
  obtain ⟨old, hold⟩ : ∃ old, (s.tokenJobIdsByCollection.get slug).getD [] = old := ⟨_, rfl⟩
  have hnodup : old.Nodup := by
    cases hget : s.tokenJobIdsByCollection.get slug with
    | none =>
      rw [hget] at hold
      exact hold ▸ List.nodup_nil
    | some ids =>
      rw [hget] at hold
      exact hold ▸ (hsets slug ids hget).2
  have hget : ∀ slug', (s.addToCollection slug jobId).tokenJobIdsByCollection.get slug' =
      if slug' = slug then some (if jobId ∈ old then old else old ++ [jobId])
      else s.tokenJobIdsByCollection.get slug' := by
    intro slug'
    unfold BidderSchedule.addToCollection
    dsimp only
    rw [OrderedMap.get_set, hold]
  have hnew : ∀ id, id ∈ (if jobId ∈ old then old else old ++ [jobId]) ↔ id ∈ old ∨ id = jobId := by
    intro id
    split
    · next hmem => exact ⟨.inl, fun h => h.elim (fun h => h) fun h => h ▸ hmem⟩
    · rw [List.mem_append, List.mem_singleton]
  refine ⟨fun slug' id => ?_, fun slug' ids hids => ?_⟩
  · rw [hget]
    by_cases hslug : slug' = slug
    · subst hslug
      rw [if_pos rfl, hold]
      exact (hnew id).trans (or_congr_right ⟨fun h => ⟨rfl, h⟩, fun h => h.2⟩)
    · rw [if_neg hslug]
      exact ⟨.inl, fun h => h.resolve_right fun h => hslug h.1⟩
  · rw [hget] at hids
    split at hids
    · cases hids
      refine ⟨List.ne_nil_of_mem ((hnew jobId).mpr (.inr rfl)), ?_⟩
      split
      · exact hnodup
      · next hnot => exact List.nodup_append.mpr ⟨hnodup, List.nodup_singleton _, by
          intro a ha b hb heq
          exact hnot (List.mem_singleton.mp hb ▸ heq ▸ ha)⟩
    · exact hsets slug' ids hids

theorem removeJobFromIndexes_spec
    (hsets : ∀ slug ids, s.tokenJobIdsByCollection.get slug = some ids → ids ≠ [] ∧ ids.Nodup)
    (hindexed : ∀ key, job.tokenKey = some key → s.tokenJobIdByCollectionToken.get key = some job.id) :
    (s.removeJobFromIndexes job).tokenJobIdByCollectionToken.get =
      updateKey s.tokenJobIdByCollectionToken.get job.tokenKey none ∧
    (∀ slug id, id ∈ ((s.removeJobFromIndexes job).tokenJobIdsByCollection.get slug).getD [] ↔
      id ∈ (s.tokenJobIdsByCollection.get slug).getD [] ∧ ¬ (job.tokenSlug = some slug ∧ id = job.id)) ∧
    (∀ slug ids, (s.removeJobFromIndexes job).tokenJobIdsByCollection.get slug = some ids →
      ids ≠ [] ∧ ids.Nodup) ∧
    (s.removeJobFromIndexes job).jobTargetCounts = s.jobTargetCounts ∧
    (s.removeJobFromIndexes job).jobs = s.jobs := by
  have hrest : ∀ (s' : BidderSchedule) slug id,
      (s'.removeFromCollection slug id).tokenJobIdByCollectionToken = s'.tokenJobIdByCollectionToken ∧
      (s'.removeFromCollection slug id).jobTargetCounts = s'.jobTargetCounts ∧
      (s'.removeFromCollection slug id).jobs = s'.jobs := by
    intro s' slug id
    unfold BidderSchedule.removeFromCollection
    split
    · exact ⟨rfl, rfl, rfl⟩
    · split <;> exact ⟨rfl, rfl, rfl⟩
  unfold BidderSchedule.removeJobFromIndexes ScheduledJob.tokenKey ScheduledJob.tokenSlug
  unfold ScheduledJob.tokenKey at hindexed
  cases htarget : job.target with
  | token tokenId =>
    rw [htarget] at hindexed
    dsimp only
    rw [if_pos (hindexed _ rfl)]
    obtain ⟨hmem, hsets'⟩ := @mem_removeFromCollection { s with
      tokenJobIdByCollectionToken := s.tokenJobIdByCollectionToken.delete
        (BidderSchedule.makeCollectionTokenKey job.collectionSlug tokenId) } job.collectionSlug job.id hsets
    obtain ⟨htokens, hcounts, hjobs⟩ := hrest { s with
      tokenJobIdByCollectionToken := s.tokenJobIdByCollectionToken.delete
        (BidderSchedule.makeCollectionTokenKey job.collectionSlug tokenId) } job.collectionSlug job.id
    refine ⟨?_, fun slug id => (hmem slug id).trans ?_, hsets', hcounts, hjobs⟩
    · rw [htokens]
      funext key
      rw [OrderedMap.get_delete]
      exact (update_apply ..).symm
    · rw [Option.some.injEq, eq_comm (a := slug)]
  | collection quantity traits => exact ⟨rfl, fun slug id => by simp, hsets, rfl, rfl⟩
  | competitiveTrait quantity targetTrait competitorTraits => exact ⟨rfl, fun slug id => by simp, hsets, rfl, rfl⟩

theorem addJobToIndexes_spec
    (hsets : ∀ slug ids, s.tokenJobIdsByCollection.get slug = some ids → ids ≠ [] ∧ ids.Nodup)
    (hfree : ∀ key, job.tokenKey = some key → s.tokenJobIdByCollectionToken.get key = none) :
    ∃ s', s.addJobToIndexes job = .ok s' ∧ s'.tokenJobIdByCollectionToken.get =
        updateKey s.tokenJobIdByCollectionToken.get job.tokenKey (some job.id) ∧
      (∀ slug id, id ∈ (s'.tokenJobIdsByCollection.get slug).getD [] ↔
        id ∈ (s.tokenJobIdsByCollection.get slug).getD [] ∨ job.tokenSlug = some slug ∧ id = job.id) ∧
      (∀ slug ids, s'.tokenJobIdsByCollection.get slug = some ids → ids ≠ [] ∧ ids.Nodup) ∧
      s'.jobTargetCounts = s.jobTargetCounts ∧ s'.jobs = s.jobs := by
  unfold BidderSchedule.addJobToIndexes ScheduledJob.tokenKey ScheduledJob.tokenSlug
  unfold ScheduledJob.tokenKey at hfree
  cases htarget : job.target with
  | token tokenId =>
    rw [htarget] at hfree
    dsimp only
    rw [hfree _ rfl, if_neg (by simp)]
    obtain ⟨hmem, hsets'⟩ := @mem_addToCollection { s with
      tokenJobIdByCollectionToken := s.tokenJobIdByCollectionToken.set
        (BidderSchedule.makeCollectionTokenKey job.collectionSlug tokenId) job.id } job.collectionSlug job.id hsets
    refine ⟨_, rfl, ?_, fun slug id => (hmem slug id).trans ?_, hsets', rfl, rfl⟩
    · funext key
      exact OrderedMap.get_set.trans (update_apply ..).symm
    · rw [Option.some.injEq, eq_comm (a := slug)]
  | collection quantity traits => exact ⟨s, rfl, rfl, fun slug id => by simp, hsets, rfl, rfl⟩
  | competitiveTrait quantity targetTrait competitorTraits =>
    exact ⟨s, rfl, rfl, fun slug id => by simp, hsets, rfl, rfl⟩

theorem counts_changed {counts counts' : BidderTargetType → Nat} (h : ∀ t, counts t = total t)
    {changed : BidderTargetType} {f : Nat → Nat}
    (hcounts : counts' = Function.update counts changed (f (counts changed))) (t : BidderTargetType) :
    counts' t = Function.update total changed (f (total changed)) t := by
  rw [hcounts, h changed]
  by_cases ht : t = changed
  · rw [ht, update_self, update_self]
  · rw [update_of_ne ht, update_of_ne ht]
    exact h t

theorem IndexedBy.remove (h : IndexedBy held total s) {id : String} (hjob : held id = some job) :
    IndexedBy (Function.update held id none)
      (Function.update total job.target.type (total job.target.type - 1))
      ((s.removeJobFromIndexes job).countDown job.target.type) := by
  have hid : job.id = id := h.ids id job hjob
  obtain ⟨htokens, hgroups, hsets, hcounts, -⟩ := @removeJobFromIndexes_spec s job h.sets fun key hkey =>
    (h.token key job.id).mpr ⟨job, hid ▸ hjob, hkey⟩
  refine ⟨fun id' job' hjob' => h.ids id' job' ((held_removed id' job').mp hjob').1, ?_, fun slug id' => ?_, hsets,
    counts_changed h.counts (f := (· - 1)) ?_⟩
  · show UniqueIndex _ _ (s.removeJobFromIndexes job).tokenJobIdByCollectionToken.get
    rw [htokens]
    exact h.token.remove hjob
  · refine Iff.trans (hgroups slug id') ?_
    rw [hid]
    exact h.collection.remove hjob slug id'
  · show Function.update (s.removeJobFromIndexes job).jobTargetCounts _ _ = _
    rw [hcounts]

/-- No other of the jobs is for the token of this one. -/
def Free (held : String → Option ScheduledJob) (job : ScheduledJob) : Prop :=
  ∀ id other, held id = some other → id ≠ job.id → job.tokenKey ≠ none → other.tokenKey ≠ job.tokenKey

/-- **A job joins the schedule's indexes,** when no other is for its token. -/
theorem IndexedBy.add (h : IndexedBy held total s) (hnew : held job.id = none) (hfree : Free held job) :
    ∃ s', s.addJobToIndexes job = .ok s' ∧ s'.jobs = s.jobs ∧
      IndexedBy (Function.update held job.id (some job))
        (Function.update total job.target.type (total job.target.type + 1)) (s'.countUp job.target.type) := by
  have hother : ∀ id other, held id = some other → job.tokenKey ≠ none → other.tokenKey ≠ job.tokenKey := by
    intro id other hheld
    refine hfree id other hheld fun heq => ?_
    rw [heq, hnew] at hheld
    cases hheld
  obtain ⟨s', hadd, htokens, hgroups, hsets, hcounts, hjobs⟩ := @addJobToIndexes_spec s job h.sets fun key hkey => by
    refine Option.eq_none_iff_forall_not_mem.mpr fun id hid => ?_
    obtain ⟨other, hheld, hsame⟩ := (h.token key id).mp hid
    exact hother id other hheld (by rw [hkey]; exact Option.some_ne_none key) (hsame.trans hkey.symm)
  refine ⟨s', hadd, hjobs, fun id' job' hjob' => ?_, ?_, fun slug id' => ?_, hsets,
    counts_changed h.counts (f := (· + 1)) ?_⟩
  · rcases (held_added hnew id' job').mp hjob' with hheld | ⟨rfl, rfl⟩
    · exact h.ids id' job' hheld
    · rfl
  · show UniqueIndex _ _ s'.tokenJobIdByCollectionToken.get
    rw [htokens]
    exact h.token.add hnew hother
  · exact Iff.trans (hgroups slug id') (h.collection.add hnew slug id')
  · show Function.update s'.jobTargetCounts _ _ = _
    rw [hcounts]

end Indexes

/-! ## 3. One call -/

theorem inheritState_frame (engine : TraitEngine) (existingJob job : ScheduledJob) :
    (BidderSchedule.inheritState engine existingJob job).id = job.id ∧
      (BidderSchedule.inheritState engine existingJob job).target = job.target ∧
      (BidderSchedule.inheritState engine existingJob job).tokenKey = job.tokenKey := by
  unfold BidderSchedule.inheritState
  split
  · exact ⟨rfl, rfl, rfl⟩
  · exact ⟨rfl, rfl, rfl⟩

variable {s : BidderSchedule} {job : ScheduledJob}

theorem IndexedBy.withJobs {held : String → Option ScheduledJob} {total : BidderTargetType → Nat}
    (h : IndexedBy held total s) (jobs : OrderedMap String ScheduledJob) :
    IndexedBy held total { s with jobs := jobs } :=
  ⟨h.ids, h.token, h.collection, h.sets, h.counts⟩

theorem countTargets_set (jobs : OrderedMap String ScheduledJob) (id : String) (job : ScheduledJob)
    (t : BidderTargetType) :
    countTargets (jobs.set id job) t + OrderedMap.tally (fun job => job.target.type = t) (jobs.get id) =
      countTargets jobs t + if job.target.type = t then 1 else 0 := by
  have hcount := @OrderedMap.count_set _ _ _ jobs (fun job : ScheduledJob => job.target.type = t) id job
  rw [OrderedMap.tally_some] at hcount
  unfold countTargets
  rw [hcount]
  simp only [decide_eq_true_iff]

theorem get_set_eq_update (jobs : OrderedMap String ScheduledJob) (id : String) (job : ScheduledJob) :
    (jobs.set id job).get = Function.update jobs.get id (some job) := by
  funext id'
  rw [OrderedMap.get_set, update_apply]

theorem get_delete_eq_update (jobs : OrderedMap String ScheduledJob) (id : String) :
    (jobs.delete id).get = Function.update jobs.get id none := by
  funext id'
  rw [OrderedMap.get_delete, update_apply]

theorem jobs_removeJobFromIndexes (s : BidderSchedule) (job : ScheduledJob) :
    (s.removeJobFromIndexes job).jobs = s.jobs := by
  unfold BidderSchedule.removeJobFromIndexes BidderSchedule.removeFromCollection
  split
  · dsimp only
    split <;> split <;> (try split) <;> rfl
  · rfl

theorem jobs_addJobToIndexes {s' : BidderSchedule}
    (h : s.addJobToIndexes job = .ok s') : s'.jobs = s.jobs := by
  unfold BidderSchedule.addJobToIndexes at h
  split at h
  · dsimp only at h
    split at h
    · cases h
    · cases h
      rfl
  · cases h
    rfl

theorem replaceJob_spec (engine : TraitEngine) (s : BidderSchedule) (job : ScheduledJob) :
    (s.replaceJob engine job).1.tokenKey = job.tokenKey ∧
      (s.replaceJob engine job).2.jobs = s.jobs.set job.id (s.replaceJob engine job).1 := by
  unfold BidderSchedule.replaceJob
  split
  · exact ⟨rfl, rfl⟩
  next existingJob _ =>
  obtain ⟨hid, -, hkey⟩ := inheritState_frame engine existingJob job
  refine ⟨hkey, ?_⟩
  show OrderedMap.set _ _ _ = _
  have hjobs : ((s.removeJobFromIndexes existingJob).countDown existingJob.target.type).jobs = s.jobs :=
    jobs_removeJobFromIndexes s existingJob
  rw [hjobs, hid]

theorem jobs_addJob_set (engine : TraitEngine) (s : BidderSchedule) (job : ScheduledJob) :
    (s.addJob engine job).2.jobs = s.jobs.set job.id (s.replaceJob engine job).1 := by
  unfold BidderSchedule.addJob
  dsimp only
  split
  · exact (replaceJob_spec engine s job).2
  next s' hs' =>
  show s'.jobs = _
  rw [jobs_addJobToIndexes hs']
  exact (replaceJob_spec engine s job).2

theorem jobs_addJob (engine : TraitEngine) (s : BidderSchedule) (job : ScheduledJob) :
    ∃ job', job'.tokenKey = job.tokenKey ∧ (s.addJob engine job).2.jobs = s.jobs.set job.id job' :=
  ⟨_, (replaceJob_spec engine s job).1, jobs_addJob_set engine s job⟩

/-- **A job that is not free leaves the indexes apart from the map.** -/
theorem not_indexed_addJob (engine : TraitEngine)
    (h : ¬ Free s.jobs.get job) : ¬ Indexed (s.addJob engine job).2 := by
  unfold Free at h
  push Not at h
  obtain ⟨id, other, hother, hne, htoken, hsame⟩ := h
  obtain ⟨job', hkey', hjobs⟩ := jobs_addJob engine s job
  obtain ⟨key, hkey⟩ := Option.ne_none_iff_exists'.mp htoken
  intro hindexed
  -- two jobs of the map have one key, and the index has room for one
  refine hne (hindexed.token.eq_of_key ?_ ?_ (hsame.trans hkey) (hkey'.trans hkey))
  · rw [hjobs, OrderedMap.get_set, if_neg hne]
    exact hother
  · rw [hjobs, OrderedMap.get_set, if_pos rfl]

theorem Indexed.addJob (engine : TraitEngine) (h : Indexed s) (hfree : Free s.jobs.get job) :
    (s.addJob engine job).1 = none ∧ Indexed (s.addJob engine job).2 := by
  unfold BidderSchedule.addJob BidderSchedule.replaceJob
  cases hget : s.jobs.get job.id with
  | none =>
    dsimp only
    obtain ⟨s', hadd, hjobs, hindexed⟩ := (h.withJobs (s.jobs.set job.id job)).add hget hfree
    rw [hadd]
    refine ⟨rfl, ?_⟩
    show IndexedBy s'.jobs.get (countTargets s'.jobs) _
    rw [hjobs, get_set_eq_update]
    refine ⟨hindexed.ids, hindexed.token, hindexed.collection, hindexed.sets, fun t => ?_⟩
    have hcount := countTargets_set s.jobs job.id job t
    rw [hget, OrderedMap.tally_none] at hcount
    refine (hindexed.counts t).trans (Eq.trans ?_ hcount.symm)
    rw [update_apply]
    by_cases ht : t = job.target.type
    · rw [if_pos ht, if_pos ht.symm, ht]
    · rw [if_neg ht, if_neg (Ne.symm ht)]
      rfl
  | some existingJob =>
    dsimp only
    obtain ⟨hid, htarget, hkey⟩ := inheritState_frame engine existingJob job
    obtain ⟨job', hjob'⟩ : ∃ job', BidderSchedule.inheritState engine existingJob job = job' := ⟨_, rfl⟩
    rw [hjob'] at hid htarget hkey ⊢
    have hremoved := (IndexedBy.remove h hget).withJobs (s.jobs.set job'.id job')
    rw [← hid] at hremoved hget
    obtain ⟨s', hadd, hjobs, hindexed⟩ := @IndexedBy.add _ _ _ job' hremoved (update_self ..) (by
      intro id other hother hne htoken
      rw [hkey] at htoken ⊢
      rw [hid] at hne
      exact hfree id other ((held_removed id other).mp hother).1 hne htoken)
    have hstate : ({ (s.removeJobFromIndexes existingJob).countDown existingJob.target.type with
        jobs := s.jobs.set job'.id job' } : BidderSchedule) =
        { (s.removeJobFromIndexes existingJob).countDown existingJob.target.type with
          jobs := ((s.removeJobFromIndexes existingJob).countDown existingJob.target.type).jobs.set
            job'.id job' } := by
      have hsame : ((s.removeJobFromIndexes existingJob).countDown existingJob.target.type).jobs = s.jobs :=
        (@removeJobFromIndexes_spec s existingJob h.sets fun key hkey =>
          (h.token key existingJob.id).mpr ⟨existingJob, by rw [h.ids _ _ hget]; exact hget, hkey⟩).2.2.2.2
      rw [hsame]
    rw [← hstate, hadd]
    refine ⟨rfl, ?_⟩
    show IndexedBy s'.jobs.get (countTargets s'.jobs) _
    rw [hjobs, get_set_eq_update]
    rw [Function.update_idem] at hindexed
    refine ⟨hindexed.ids, hindexed.token, hindexed.collection, hindexed.sets, fun t => ?_⟩
    have hcount := countTargets_set s.jobs job'.id job' t
    have hpresent := @OrderedMap.count_delete _ _ _ s.jobs (fun job : ScheduledJob => job.target.type = t) job'.id
    rw [hget, OrderedMap.tally_some] at hcount hpresent
    simp only [decide_eq_true_iff] at hcount hpresent
    refine (hindexed.counts t).trans ?_
    show _ = countTargets (s.jobs.set job'.id job') t
    have htotal : countTargets s.jobs t = s.jobs.count fun job => job.target.type = t := rfl
    simp only [update_apply]
    by_cases hnew : t = job'.target.type
    · rw [if_pos hnew]
      rw [if_pos hnew.symm] at hcount
      by_cases hold : job'.target.type = existingJob.target.type
      · rw [if_pos hold]
        rw [if_pos (hold.symm.trans hnew.symm)] at hcount hpresent
        rw [← hold, ← hnew]
        omega
      · rw [if_neg hold]
        rw [if_neg (fun heq => hold (heq.trans hnew).symm)] at hcount
        rw [← hnew]
        omega
    · rw [if_neg hnew]
      rw [if_neg (Ne.symm hnew)] at hcount
      by_cases hold : t = existingJob.target.type
      · rw [if_pos hold]
        rw [if_pos hold.symm] at hcount hpresent
        rw [← hold]
        omega
      · rw [if_neg hold]
        rw [if_neg (Ne.symm hold)] at hcount
        omega

theorem Indexed.removeJob (h : Indexed s) (jobId : String) : Indexed (s.removeJob jobId).2 := by
  unfold BidderSchedule.removeJob
  cases hget : s.jobs.get jobId with
  | none => exact h
  | some existingJob =>
    have hremoved := IndexedBy.remove h hget
    have hsame : (s.removeJobFromIndexes existingJob).jobs = s.jobs :=
      (@removeJobFromIndexes_spec s existingJob h.sets fun key hkey =>
        (h.token key existingJob.id).mpr ⟨existingJob, by rw [h.ids _ _ hget]; exact hget, hkey⟩).2.2.2.2
    show IndexedBy ((s.removeJobFromIndexes existingJob).jobs.delete jobId).get
      (countTargets ((s.removeJobFromIndexes existingJob).jobs.delete jobId)) _
    rw [hsame, get_delete_eq_update]
    refine ⟨hremoved.ids, hremoved.token, hremoved.collection, hremoved.sets, fun t => ?_⟩
    refine (hremoved.counts t).trans ?_
    have hpresent := @OrderedMap.count_delete _ _ _ s.jobs (fun job : ScheduledJob => job.target.type = t) jobId
    rw [hget, OrderedMap.tally_some] at hpresent
    simp only [decide_eq_true_iff] at hpresent
    have htotal : countTargets s.jobs t = s.jobs.count fun job => job.target.type = t := rfl
    show _ = (s.jobs.delete jobId).count fun job => job.target.type = t
    rw [update_apply]
    by_cases ht : t = existingJob.target.type
    · rw [if_pos ht]
      rw [if_pos ht.symm] at hpresent
      rw [← ht]
      omega
    · rw [if_neg ht]
      rw [if_neg (Ne.symm ht)] at hpresent
      omega

/-! ## 4. Runs -/

/-- A call that changes the schedule. -/
inductive ScheduleCall
  | addJob (job : ScheduledJob)
  | removeJob (jobId : String)

namespace BidderSchedule

def step (engine : TraitEngine) (s : BidderSchedule) : ScheduleCall → BidderSchedule
  | .addJob job => (s.addJob engine job).2
  | .removeJob jobId => (s.removeJob jobId).2

/-- No other job of the map is for the token of this one. -/
def isTokenFree (s : BidderSchedule) (job : ScheduledJob) : Bool :=
  job.tokenKey = none ∨ ∀ entry ∈ s.jobs.entries, entry.1 ≠ job.id → entry.2.tokenKey ≠ job.tokenKey

/-- The call asks for no token that another job is for. -/
def isUncontested (s : BidderSchedule) : ScheduleCall → Bool
  | .addJob job => s.isTokenFree job
  | .removeJob _ => true

theorem isTokenFree_iff {s : BidderSchedule} {job : ScheduledJob} :
    s.isTokenFree job = true ↔ Free s.jobs.get job := by
  unfold isTokenFree Free
  rw [decide_eq_true_iff]
  constructor
  · rintro (hnone | hall) id other hother hne htoken
    · exact absurd hnone htoken
    · exact hall (id, other) (OrderedMap.mem_entries.mpr hother) hne
  intro hfree
  by_cases htoken : job.tokenKey = none
  · exact .inl htoken
  · exact .inr fun entry hentry hne => hfree entry.1 entry.2 (OrderedMap.mem_entries.mp hentry) hne htoken

end BidderSchedule

theorem Indexed.step (engine : TraitEngine) {call : ScheduleCall} (h : Indexed s)
    (hcall : s.isUncontested call = true) : Indexed (s.step engine call) := by
  cases call with
  | addJob job => exact (h.addJob engine (BidderSchedule.isTokenFree_iff.mp hcall)).2
  | removeJob jobId => exact h.removeJob jobId

/-- **The indexes of the schedule are those of its jobs as long as no call asks for a token that another job
is for.**  One call of `addJob` on a consistent schedule keeps it consistent, and leaves it alone when it
throws, exactly when no other job is for the token.  In a run of such calls every state is consistent, and no
call throws. -/
theorem schedule_indexes_kept (engine : TraitEngine) :
    (∀ (s : BidderSchedule) (job : ScheduledJob), Indexed s →
      ((Indexed (s.addJob engine job).2 ∧ ((s.addJob engine job).1 ≠ none → (s.addJob engine job).2 = s)) ↔
        s.isTokenFree job = true)) ∧
    ∀ calls, Machine.meetsThroughout BidderSchedule.isUncontested (BidderSchedule.step engine) .create calls →
      ∀ before after, calls = before ++ after →
        Indexed (Machine.run (BidderSchedule.step engine) .create before) ∧
        ∀ job rest, after = .addJob job :: rest →
          ((Machine.run (BidderSchedule.step engine) .create before).addJob engine job).1 = none := by
  constructor
  · intro s job h
    rw [BidderSchedule.isTokenFree_iff]
    constructor
    · intro hkept
      by_contra hfree
      exact not_indexed_addJob engine hfree hkept.1
    · intro hfree
      obtain ⟨hnone, hindexed⟩ := h.addJob engine hfree
      exact ⟨hindexed, fun hthrown => absurd hnone hthrown⟩
  · intro calls hcalls before after heq
    subst heq
    obtain ⟨hbefore, hafter⟩ := Machine.meetsThroughout_append.mp hcalls
    have hindexed := Machine.run_invariant_of_meets (fun _ _ h hcall => Indexed.step engine h hcall)
      indexed_create hbefore
    refine ⟨hindexed, fun job rest heq => ?_⟩
    subst heq
    obtain ⟨hcall, -⟩ := Machine.meetsThroughout_cons.mp hafter
    exact (hindexed.addJob engine (BidderSchedule.isTokenFree_iff.mp hcall)).1

/-- A token job for the first token of a collection. -/
def firstTokenJob (id : String) : ScheduledJob where
  collectionId := 1
  collectionAddress := "0xc0"
  collectionSlug := "terraforms"
  target := .token "1"
  id := id
  revision := 1
  config := ⟨2, 1, 1, []⟩
  state := .empty

/-- **The second job for a token is refused, and stays in the map:** the index has the first one, and the
count says that there is one token job. -/
theorem refused_job_stays : ∃ engine : TraitEngine,
    let calls := [ScheduleCall.addJob (firstTokenJob "a")]
    let s := Machine.run (BidderSchedule.step engine) .create calls
    let refused := s.addJob engine (firstTokenJob "b")
    refused.1 = some (.duplicateTokenJob "b" "a") ∧ refused.2.jobs.get "b" = some (firstTokenJob "b") ∧
      refused.2.jobTargetCounts .token = 1 ∧ refused.2 ≠ s ∧ ¬ Indexed refused.2 := by
  refine ⟨⟨fun _ _ => 0, fun _ => ""⟩, by decide +kernel, by decide +kernel, by decide +kernel, ?_, ?_⟩
  · intro heq
    exact absurd (congrArg (fun s => s.jobs.get "b") heq) (by decide +kernel)
  · refine not_indexed_addJob _ fun hfree => ?_
    exact hfree "a" (firstTokenJob "a") (by decide +kernel) (by decide +kernel) (by decide +kernel) (by decide +kernel)

end Artgod.Trading
