/-
# Maker revalidation loses no request

Any interleaving of requests, claims, renewals, releases, checkpoints, wakeup recoveries and cleanups of runs.
A world keeps beside the store the drawn ids, the copies that executors work with, the admitted requests with
the run each joined, the passes with their starts, and the orders handled in each.  A pass is identified by its
run and its `passGeneration`.
-/
import Artgod.Indexer.MakerRuns

namespace Artgod.Indexer

open Store

/-! ## 1. Interleavings -/

/-- A request as it was admitted. -/
structure MakerRequest where
  runId : String
  blockNumber : Option Nat
  requiredAt : Nat
deriving DecidableEq

/-- A pass when it started. -/
structure MakerPassStart where
  runId : String
  generation : Nat
  blockNumber : Option Nat
  startedAt : Nat
  requestedAt : Nat

structure MakerWorld where
  store : MakerStore
  runIds : List String
  copies : List MakerRevalidationRun
  requests : List MakerRequest
  passes : List MakerPassStart
  completed : List (String × Nat)
  handled : List (String × Nat × OrderId)

/-- No run yet, over any chain tables. -/
def MakerWorld.start (db : Db) : MakerWorld := ⟨⟨db, .empty⟩, [], [], [], [], [], []⟩

/-- One transaction, of whichever process. -/
inductive MakerEvent where
  | request (input : MakerAdmission) (runId : String) (outboxId : Nat)
  | claim (runId owner : String) (now : Nat)
  | renew (run : MakerRevalidationRun) (now : Nat)
  | release (run : MakerRevalidationRun) (error : Option MakerStepError)
  | checkpoint (c : MakerCheckpoint) (now nowSeconds outboxId : Nat)
  | scheduleWakeup (runId : String) (outboxId : Nat)
  | recoverWakeup (run : MakerRevalidationRun) (now outboxId : Nat)
  | cleanup (acknowledged : MakerRevalidationRun → Bool)
  /-- Any other write to the chain tables. -/
  | writeChain (db : Db)

/-- The pass a run is in. -/
def MakerRevalidationRun.passStart (run : MakerRevalidationRun) : MakerPassStart :=
  ⟨run.runId, run.passGeneration, run.payload.blockNumber, run.passStartedAt, run.requestedAt⟩

/-- The passes that a transaction started: of new runs, and of runs with a new pass generation. -/
def startedPasses (before after : MakerStore) : List MakerPassStart :=
  (after.runs.rows.filter (fun r =>
    (before.runs.get? r.runId).map (·.passGeneration) ≠ some r.passGeneration)).map (·.passStart)

/-- What a transaction adds to the ghosts. -/
structure MakerGhosts where
  runIds : List String := []
  copies : List MakerRevalidationRun := []
  requests : List MakerRequest := []
  completed : List (String × Nat) := []
  handled : List (String × Nat × OrderId) := []

def MakerWorld.next (w : MakerWorld) (store : MakerStore) (g : MakerGhosts) : MakerWorld where
  store := store
  runIds := g.runIds ++ w.runIds
  copies := g.copies ++ w.copies
  requests := g.requests ++ w.requests
  passes := startedPasses w.store store ++ w.passes
  completed := g.completed ++ w.completed
  handled := g.handled ++ w.handled

/-- The job created a run before: this delivery is the same request. -/
def isRedelivered (s : MakerStore) (input : MakerAdmission) : Bool :=
  s.runs.rows.any (fun r => r.sourceJobId = input.jobId)

def admittedGhosts (s : MakerStore) (input : MakerAdmission) (runId : String) :
    Except SyncError String → MakerGhosts
  | .ok id =>
    { runIds := [runId]
      requests :=
        if isRedelivered s input then []
        else [⟨id, input.payload.blockNumber, input.demandAt.getD input.now⟩] }
  | .error _ => {}

def claimedGhosts : Except SyncError (Option MakerRevalidationRun) → MakerGhosts
  | .ok (some run) => { copies := [run] }
  | _ => {}

def checkpointGhosts (c : MakerCheckpoint) : Except SyncError MakerRevalidationRun → MakerGhosts
  | .ok run =>
    { copies := [run]
      completed := if c.complete then [(c.run.runId, c.run.passGeneration)] else []
      handled := c.resolutions.map (fun e =>
        (c.run.runId, c.run.passGeneration, e.candidate.order.id)) }
  | .error _ => {}

/-- The transaction of an event.  An identifier that is not fresh and a copy that was never
returned are impossible, and change nothing. -/
def makerStep (w : MakerWorld) : MakerEvent → MakerWorld
  | .request input runId outboxId =>
    if runId ∈ w.runIds then w
    else
      let out := (admitMaker input runId outboxId).exec w.store
      w.next out.2 (admittedGhosts w.store input runId out.1)
  | .claim runId owner now =>
    let out := (claimMaker runId owner now).exec w.store
    w.next out.2 (claimedGhosts out.1)
  | .renew run now => w.next ((renewMaker run now).exec w.store).2 {}
  | .release run error => w.next ((releaseMaker run error).exec w.store).2 {}
  | .checkpoint c now nowSeconds outboxId =>
    if c.run ∈ w.copies then
      let out := (checkpointMaker c now nowSeconds outboxId).exec w.store
      w.next out.2 (checkpointGhosts c out.1)
    else w
  | .scheduleWakeup runId outboxId => w.next ((scheduleWakeup runId outboxId).exec w.store).2 {}
  | .recoverWakeup run now outboxId => w.next ((recoverWakeup run now outboxId).exec w.store).2 {}
  | .cleanup acknowledged => w.next ((cleanupRuns acknowledged).exec w.store).2 {}
  | .writeChain db => w.next { w.store with db := db } {}

/-- A run: any events in any order. -/
def makerRun (w : MakerWorld) (events : List MakerEvent) : MakerWorld := events.foldl makerStep w

/-! ## 2. The invariant of a run -/

/-- The pass is one that the request asked for: its block is as high, and it started, or was asked
to observe, no earlier than required. -/
def MakerPassStart.Covers (p : MakerPassStart) (q : MakerRequest) : Prop :=
  blockOrMinusOne q.blockNumber ≤ blockOrMinusOne p.blockNumber ∧
    q.requiredAt ≤ max p.startedAt p.requestedAt

/-- The next pass will cover the request. -/
def MakerRevalidationRun.Requests (row : MakerRevalidationRun) (q : MakerRequest) : Prop :=
  row.passGeneration < row.generation ∧
    blockOrMinusOne q.blockNumber ≤ blockOrMinusOne row.requestedPayload.blockNumber ∧
    q.requiredAt ≤ row.requestedAt

/-- A completed pass covered the request, the current one does, or the next one will. -/
def Answered (w : MakerWorld) (row : MakerRevalidationRun) (q : MakerRequest) : Prop :=
  (∃ p ∈ w.passes, p.runId = row.runId ∧ p.Covers q ∧
    (p.generation = row.passGeneration ∨ (p.runId, p.generation) ∈ w.completed)) ∨
  row.Requests q

/-- A copy of a row: with the step of the row it has its pass, too. -/
structure CopyOf (copy row : MakerRevalidationRun) : Prop where
  leaseVersion : copy.leaseVersion ≤ row.leaseVersion
  step : copy.step ≤ row.step
  passGeneration : copy.step = row.step → copy.passGeneration = row.passGeneration
  afterId : copy.step = row.step → copy.afterId = row.afterId

/-- What holds of a row and the ghosts. -/
structure RunInv (w : MakerWorld) (row : MakerRevalidationRun) : Prop where
  generation : row.passGeneration ≤ row.generation
  current : ∃ p ∈ w.passes, p.runId = row.runId ∧ p.generation = row.passGeneration ∧
    p.blockNumber = row.payload.blockNumber ∧ p.startedAt = row.passStartedAt
  done : row.status = .completed → row.passGeneration = row.generation ∧
    (row.runId, row.passGeneration) ∈ w.completed
  answered : ∀ q ∈ w.requests, q.runId = row.runId → Answered w row q
  copies : ∀ copy ∈ w.copies, copy.runId = row.runId → CopyOf copy row
  handled : ∀ g id, (row.runId, g, id) ∈ w.handled →
    g ≤ row.passGeneration ∧ (g = row.passGeneration → id ≤ row.afterId)

structure MakerInv (w : MakerWorld) : Prop where
  runs : ∀ row ∈ w.store.runs, RunInv w row
  /-- Ghosts are of runs that were drawn. -/
  rows : ∀ row ∈ w.store.runs, row.runId ∈ w.runIds
  copies : ∀ copy ∈ w.copies, copy.runId ∈ w.runIds
  requests : ∀ q ∈ w.requests, q.runId ∈ w.runIds
  passes : ∀ p ∈ w.passes, p.runId ∈ w.runIds
  handled : ∀ h ∈ w.handled, h.1 ∈ w.runIds
  once : w.handled.Nodup

theorem MakerInv.start (db : Db) : MakerInv (.start db) := by
  constructor <;> simp [MakerWorld.start]

/-! ## 3. Rows that stay in their pass -/

/-- A row after a write to its lease, its failures or its wakeup. -/
structure MakerRevalidationRun.Kept (row row' : MakerRevalidationRun) : Prop where
  runId : row'.runId = row.runId
  payload : row'.payload = row.payload
  requestedPayload : row'.requestedPayload = row.requestedPayload
  generation : row'.generation = row.generation
  passGeneration : row'.passGeneration = row.passGeneration
  passStartedAt : row'.passStartedAt = row.passStartedAt
  requestedAt : row'.requestedAt = row.requestedAt
  status : row'.status = row.status
  afterId : row'.afterId = row.afterId
  step : row'.step = row.step
  leaseVersion : row.leaseVersion ≤ row'.leaseVersion

theorem MakerRevalidationRun.Kept.refl (row : MakerRevalidationRun) : row.Kept row :=
  ⟨rfl, rfl, rfl, rfl, rfl, rfl, rfl, rfl, rfl, rfl, Nat.le_refl _⟩

theorem CopyOf.refl (row : MakerRevalidationRun) : CopyOf row row :=
  ⟨Nat.le_refl _, Nat.le_refl _, fun _ => rfl, fun _ => rfl⟩

variable {w : MakerWorld} {current row row' : MakerRevalidationRun} {store : MakerStore}
  {id runId : String} {deferred now outboxId requiredAt : Nat} {g : MakerGhosts}
  {c : MakerCheckpoint} {p : MakerRevalidationRun → Bool}
  {f : MakerRevalidationRun → MakerRevalidationRun} {payload : OrderUpdateByMakerPayload}
  {afterId upperOrderId : OrderId}

theorem CopyOf.later {copy : MakerRevalidationRun} (h : CopyOf copy row)
    (hlease : row.leaseVersion ≤ row'.leaseVersion) (hstep : row.step < row'.step) :
    CopyOf copy row' := by
  have hle := h.step
  refine ⟨Nat.le_trans h.leaseVersion hlease, by omega, fun heq => ?_, fun heq => ?_⟩ <;> omega

theorem RunInv.kept (h : RunInv w row) (hk : row.Kept row') : RunInv w row' where
  generation := by
    rw [hk.passGeneration, hk.generation]
    exact h.generation
  current := by
    rw [hk.runId, hk.passGeneration, hk.payload, hk.passStartedAt]
    exact h.current
  done hstatus := by
    rw [hk.status] at hstatus
    rw [hk.runId, hk.passGeneration, hk.generation]
    exact h.done hstatus
  answered q hq hid := by
    rw [hk.runId] at hid
    rw [Answered, MakerRevalidationRun.Requests, hk.runId, hk.passGeneration, hk.generation,
      hk.requestedPayload, hk.requestedAt]
    exact h.answered q hq hid
  copies copy hcopy hid := by
    rw [hk.runId] at hid
    have hof := h.copies copy hcopy hid
    refine ⟨Nat.le_trans hof.leaseVersion hk.leaseVersion, ?_, ?_, ?_⟩
    · rw [hk.step]
      exact hof.step
    · rw [hk.step, hk.passGeneration]
      exact hof.passGeneration
    · rw [hk.step, hk.afterId]
      exact hof.afterId
  handled g id hmem := by
    rw [hk.runId] at hmem
    rw [hk.passGeneration, hk.afterId]
    exact h.handled g id hmem

/-! ## 4. Ghosts that grow -/

theorem Answered.mono {q : MakerRequest} (h : Answered w row q) :
    Answered (w.next store g) row q := by
  rcases h with ⟨p, hp, hid, hcovers, hgeneration⟩ | hrequests
  · refine Or.inl ⟨p, List.mem_append_right _ hp, hid, hcovers, ?_⟩
    rcases hgeneration with hcurrent | hcompleted
    · exact Or.inl hcurrent
    · exact Or.inr (List.mem_append_right _ hcompleted)
  · exact Or.inr hrequests

theorem RunInv.grow (h : RunInv w row)
    (hrequests : ∀ q ∈ g.requests, q.runId = row.runId → Answered (w.next store g) row q)
    (hcopies : ∀ copy ∈ g.copies, copy.runId = row.runId → CopyOf copy row)
    (hhandled : ∀ gen id, (row.runId, gen, id) ∈ g.handled →
      gen ≤ row.passGeneration ∧ (gen = row.passGeneration → id ≤ row.afterId)) :
    RunInv (w.next store g) row where
  generation := h.generation
  current := by
    obtain ⟨p, hp, hrest⟩ := h.current
    exact ⟨p, List.mem_append_right _ hp, hrest⟩
  done hstatus := ⟨(h.done hstatus).1, List.mem_append_right _ (h.done hstatus).2⟩
  answered q hq hid := by
    rcases List.mem_append.mp hq with hq | hq
    · exact hrequests q hq hid
    · exact (h.answered q hq hid).mono
  copies copy hcopy hid := by
    rcases List.mem_append.mp hcopy with hcopy | hcopy
    · exact hcopies copy hcopy hid
    · exact h.copies copy hcopy hid
  handled gen id hmem := by
    rcases List.mem_append.mp hmem with hmem | hmem
    · exact hhandled gen id hmem
    · exact h.handled gen id hmem

/-- The ghosts of a transaction are of runs that were drawn. -/
structure GhostsKnown (w : MakerWorld) (g : MakerGhosts) : Prop where
  copies : ∀ copy ∈ g.copies, copy.runId ∈ g.runIds ++ w.runIds
  requests : ∀ q ∈ g.requests, q.runId ∈ g.runIds ++ w.runIds
  handled : ∀ h ∈ g.handled, h.1 ∈ g.runIds ++ w.runIds

/-- **A transaction keeps the invariant** if it does so for every row, if the ghosts it adds are of
known runs, and if no order is handled again. -/
theorem MakerInv.next (h : MakerInv w) (hruns : ∀ row ∈ store.runs, RunInv (w.next store g) row)
    (hrows : ∀ row ∈ store.runs, row.runId ∈ g.runIds ++ w.runIds) (hknown : GhostsKnown w g)
    (honce : (g.handled ++ w.handled).Nodup) : MakerInv (w.next store g) where
  runs := hruns
  rows := hrows
  copies copy hcopy := by
    rcases List.mem_append.mp hcopy with hcopy | hcopy
    · exact hknown.copies copy hcopy
    · exact List.mem_append_right _ (h.copies copy hcopy)
  requests q hq := by
    rcases List.mem_append.mp hq with hq | hq
    · exact hknown.requests q hq
    · exact List.mem_append_right _ (h.requests q hq)
  passes p hp := by
    rcases List.mem_append.mp hp with hp | hp
    · obtain ⟨row, hrow, rfl⟩ := List.mem_map.mp hp
      exact hrows row (List.mem_filter.mp hrow).1
    · exact List.mem_append_right _ (h.passes p hp)
  handled e he := by
    rcases List.mem_append.mp he with he | he
    · exact hknown.handled e he
    · exact List.mem_append_right _ (h.handled e he)
  once := honce

theorem ghostsKnown_nil : GhostsKnown w {} := by
  constructor <;> simp

theorem MakerInv.kept (h : MakerInv w) (hkept : ∀ row' ∈ store.runs, ∃ row ∈ w.store.runs, row.Kept row') :
    MakerInv (w.next store {}) := by
  refine h.next ?_ ?_ ghostsKnown_nil h.once
  · intro row' hrow'
    obtain ⟨row, hrow, hk⟩ := hkept row' hrow'
    exact ((h.runs row hrow).kept hk).grow (by simp) (by simp) (by simp)
  intro row' hrow'
  obtain ⟨row, hrow, hk⟩ := hkept row' hrow'
  rw [hk.runId]
  exact h.rows row hrow

variable {hf : ∀ r, (f r).runId = r.runId} {s : MakerStore} {requested : OrderUpdateByMakerPayload}
  {nowSeconds : Nat} {event : MakerEvent}

theorem kept_updateRun (h : ∀ r : MakerRevalidationRun, r.Kept (f r)) :
    ∀ row' ∈ (s.updateRun runId p f hf).runs, ∃ row ∈ s.runs, row.Kept row' := by
  intro row' hrow'
  obtain ⟨row, hrow, ⟨-, rfl⟩ | ⟨-, -, rfl⟩⟩ := mem_updateRun hrow'
  · exact ⟨row', hrow, .refl row'⟩
  · exact ⟨row, hrow, h row⟩

theorem MakerRevalidationRun.kept_claimed (run : MakerRevalidationRun) (owner : String)
    (now : Nat) : run.Kept (run.claimed owner now) :=
  ⟨rfl, rfl, rfl, rfl, rfl, rfl, rfl, rfl, rfl, rfl, Nat.le_succ _⟩

theorem MakerInv.claim (h : MakerInv w) (runId owner : String) (now : Nat) :
    MakerInv (makerStep w (.claim runId owner now)) := by
  have hout : (claimMaker runId owner now).exec w.store =
      (.ok (((w.store.runs.get? runId).filter (·.claimable now)).map (·.claimed owner now)),
        w.store.updateRun runId (·.claimable now) (·.claimed owner now)
          (fun r => r.runId_claimed owner now)) := rfl
  rw [makerStep, hout]
  cases hrun : (w.store.runs.get? runId).filter (·.claimable now) with
  | none => exact h.kept (kept_updateRun (fun r => r.kept_claimed owner now))
  | some run =>
    obtain ⟨hget, hclaimable⟩ := Option.filter_eq_some_iff.mp hrun
    obtain ⟨hmem, hid⟩ := Table.get?_eq_some.mp hget
    refine h.next ?_ ?_ ⟨?_, by simp [claimedGhosts], by simp [claimedGhosts]⟩ h.once
    · intro row' hrow'
      obtain ⟨row, hrow, hcases⟩ := mem_updateRun hrow'
      have hk : row.Kept row' := by
        rcases hcases with ⟨-, rfl⟩ | ⟨-, -, rfl⟩
        · exact .refl row'
        · exact row.kept_claimed owner now
      refine ((h.runs row hrow).kept hk).grow (by simp [claimedGhosts]) ?_ (by simp [claimedGhosts])
      intro copy hcopy hcopyId
      obtain rfl : copy = run.claimed owner now := by simpa [claimedGhosts] using hcopy
      -- the copy is the row that was claimed
      have heq : row = run := by
        refine Table.eq_of_key_eq hrow hmem ?_
        exact hk.runId.symm.trans hcopyId.symm
      subst heq
      rcases hcases with ⟨hnot, -⟩ | ⟨-, -, rfl⟩
      · rw [hnot hid] at hclaimable
        cases hclaimable
      · exact .refl _
    · intro row' hrow'
      obtain ⟨row, hrow, ⟨-, rfl⟩ | ⟨-, -, rfl⟩⟩ := mem_updateRun hrow'
      · exact List.mem_append_right _ (h.rows row' hrow)
      · exact List.mem_append_right _ (h.rows row hrow)
    · intro copy hcopy
      obtain rfl : copy = run.claimed owner now := by simpa [claimedGhosts] using hcopy
      exact List.mem_append_right _ (h.rows run hmem)

/-! ## 5. Requests -/

theorem blockNumber_canonicalMakerRequest {canonical : OrderUpdateByMakerPayload}
    (h : canonicalMakerRequest payload = .ok canonical) :
    canonical.blockNumber = payload.blockNumber := by
  rw [canonicalMakerRequest] at h
  split at h
  · cases h
  split at h
  · cases h
  split at h
  · cases h
  · cases h
    rfl

theorem mergeMakerRequirements_block {run : MakerRevalidationRun}
    (h : mergeMakerRequirements run payload requiredAt = .ok requested) :
    blockOrMinusOne run.requestedPayload.blockNumber ≤ blockOrMinusOne requested.blockNumber ∧
      blockOrMinusOne payload.blockNumber ≤ blockOrMinusOne requested.blockNumber := by
  rw [mergeMakerRequirements] at h
  rw [blockNumber_canonicalMakerRequest h]
  split_ifs <;> (try dsimp only) <;> omega

theorem makerAdmissionIncludes_covers {required : OrderUpdateByMakerPayload}
    {at_ : Nat} (h : makerAdmissionIncludes payload at_ required requiredAt = true) :
    requiredAt ≤ at_ ∧ blockOrMinusOne required.blockNumber ≤ blockOrMinusOne payload.blockNumber := by
  simp only [makerAdmissionIncludes, Bool.and_eq_true, decide_eq_true_eq] at h
  exact ⟨h.1.1.2, h.1.2⟩

theorem RunInv.represented {w : MakerWorld} {store : MakerStore} {g : MakerGhosts}
    {row : MakerRevalidationRun} {payload : OrderUpdateByMakerPayload} {requiredAt : Nat}
    {q : MakerRequest} (h : RunInv w row)
    (hadvances : advancesMakerDemand row payload requiredAt = false)
    (hblock : q.blockNumber = payload.blockNumber) (hat : q.requiredAt = requiredAt) :
    Answered (w.next store g) row q := by
  rw [advancesMakerDemand] at hadvances
  split at hadvances
  · next hincludes =>
    obtain ⟨htime, hcovers⟩ := makerAdmissionIncludes_covers hincludes
    obtain ⟨p, hp, hid, hgeneration, hblock', hstart⟩ := h.current
    refine Or.inl ⟨p, List.mem_append_right _ hp, hid, ⟨?_, ?_⟩, Or.inl hgeneration⟩
    · rw [hblock, hblock']
      exact hcovers
    · rw [hat, hstart]
      exact Nat.le_trans htime (Nat.le_max_left _ _)
  · simp only [Bool.or_eq_false_iff, decide_eq_false_iff_not, Bool.not_eq_false'] at hadvances
    obtain ⟨htime, hcovers⟩ := makerAdmissionIncludes_covers hadvances.2
    have hle := h.generation
    refine Or.inr ⟨by omega, ?_, ?_⟩
    · rw [hblock]
      exact hcovers
    · rw [hat]
      exact htime

theorem RunInv.merged (h : RunInv w row) (hpending : row.status ≠ .completed)
    (hblock : blockOrMinusOne row.requestedPayload.blockNumber ≤ blockOrMinusOne requested.blockNumber) :
    RunInv w (row.merged requested requiredAt) where
  generation := Nat.le_succ_of_le h.generation
  current := h.current
  done hstatus := absurd hstatus hpending
  answered q hq hid := by
    rcases h.answered q hq hid with hpass | ⟨hlt, hle, htime⟩
    · exact Or.inl hpass
    · exact Or.inr ⟨Nat.lt_succ_of_lt hlt, Int.le_trans hle hblock,
        Nat.le_trans htime (Nat.le_max_left _ _)⟩
  copies copy hcopy hid := by
    have hof := h.copies copy hcopy hid
    exact ⟨hof.leaseVersion, hof.step, hof.passGeneration, hof.afterId⟩
  handled := h.handled

/-- **A new pass covers what was requested**, and what the pass before it covered is completed.
The row takes a step, so the copies of it are old. -/
theorem RunInv.passStarted (h : RunInv w row) (hrunId : row'.runId = row.runId)
    (hgeneration : row'.passGeneration = row'.generation)
    (hlater : row.passGeneration < row'.passGeneration) (hstatus : row'.status ≠ .completed)
    (hstep : row.step < row'.step) (hlease : row.leaseVersion ≤ row'.leaseVersion)
    (hpass : row'.passStart ∈ startedPasses w.store store)
    (hblock : blockOrMinusOne row.requestedPayload.blockNumber ≤ blockOrMinusOne row'.payload.blockNumber)
    (hat : row.requestedAt ≤ row'.requestedAt)
    (hcompleted : (row.runId, row.passGeneration) ∈ g.completed ++ w.completed)
    (hrequests : ∀ q ∈ g.requests, q.runId = row.runId → row'.passStart.Covers q)
    (hcopies : ∀ copy ∈ g.copies, copy.runId = row.runId → copy = row')
    (hhandled : ∀ gen id, (row.runId, gen, id) ∈ g.handled → gen = row.passGeneration) :
    RunInv (w.next store g) row' where
  generation := Nat.le_of_eq hgeneration
  current := ⟨row'.passStart, List.mem_append_left _ hpass, rfl, rfl, rfl, rfl⟩
  done h' := absurd h' hstatus
  answered q hq hid := by
    have hnew : row'.passStart.Covers q → Answered (w.next store g) row' q := fun hcovers =>
      Or.inl ⟨row'.passStart, List.mem_append_left _ hpass, rfl, hcovers, Or.inl rfl⟩
    rw [hrunId] at hid
    rcases List.mem_append.mp hq with hq | hq
    · exact hnew (hrequests q hq hid)
    rcases h.answered q hq hid with ⟨p, hp, hpid, hcovers, hp'⟩ | ⟨-, hle, htime⟩
    · refine Or.inl ⟨p, List.mem_append_right _ hp, hpid.trans hrunId.symm, hcovers, Or.inr ?_⟩
      rcases hp' with hcurrent | hdone
      · rw [hpid, hcurrent]
        exact hcompleted
      · exact List.mem_append_right _ hdone
    · exact hnew ⟨Int.le_trans hle hblock, Nat.le_trans (Nat.le_trans htime hat) (Nat.le_max_right _ _)⟩
  copies copy hcopy hid := by
    rw [hrunId] at hid
    rcases List.mem_append.mp hcopy with hcopy | hcopy
    · rw [hcopies copy hcopy hid]
      exact .refl row'
    · exact (h.copies copy hcopy hid).later hlease hstep
  handled gen id hmem := by
    rw [hrunId] at hmem
    have hle : gen ≤ row.passGeneration := by
      rcases List.mem_append.mp hmem with hmem | hmem
      · exact Nat.le_of_eq (hhandled gen id hmem)
      · exact (h.handled gen id hmem).1
    exact ⟨by omega, fun heq => by omega⟩

theorem mem_startedPasses {before after : MakerStore} {row : MakerRevalidationRun}
    (hrow : row ∈ after.runs)
    (hnew : ∀ old, before.runs.get? row.runId = some old → old.passGeneration ≠ row.passGeneration) :
    row.passStart ∈ startedPasses before after := by
  refine List.mem_map_of_mem (List.mem_filter.mpr ⟨hrow, ?_⟩)
  cases hold : before.runs.get? row.runId with
  | none => simp
  | some old => simpa using hnew old hold

theorem admittedGhosts_ok {s : MakerStore} {input : MakerAdmission} {runId id : String} :
    ∃ requests, admittedGhosts s input runId (.ok id) = { runIds := [runId], requests := requests } ∧
      ∀ q ∈ requests, q = ⟨id, input.payload.blockNumber, input.demandAt.getD input.now⟩ := by
  refine ⟨_, rfl, fun q hq => ?_⟩
  split at hq
  · cases hq
  · exact List.mem_singleton.mp hq

theorem MakerInv.admitted {requests : List MakerRequest} (h : MakerInv w)
    (hids : ∀ q ∈ requests, q.runId = id) (hid : id ∈ runId :: w.runIds)
    (hrows : ∀ row ∈ store.runs, row.runId ≠ id → row ∈ w.store.runs)
    (hrun : ∀ row ∈ store.runs, row.runId = id →
      RunInv (w.next store { runIds := [runId], requests := requests }) row) :
    MakerInv (w.next store { runIds := [runId], requests := requests }) := by
  refine h.next ?_ ?_ ⟨by simp, ?_, by simp⟩ h.once
  · intro row hrow
    by_cases heq : row.runId = id
    · exact hrun row hrow heq
    · refine (h.runs row (hrows row hrow heq)).grow ?_ (by simp) (by simp)
      intro q hq hq'
      exact absurd (hq'.symm.trans (hids q hq)) heq
  · intro row hrow
    by_cases heq : row.runId = id
    · rw [heq]
      exact hid
    · exact List.mem_append_right _ (h.rows row (hrows row hrow heq))
  · intro q hq
    rw [hids q hq]
    exact hid

theorem RunInv.inserted {w : MakerWorld} {store : MakerStore} {runId jobId : String}
    {payload : OrderUpdateByMakerPayload} {scopeKey : Option MakerScopeKey} {requiredAt now : Nat}
    {upperOrderId : OrderId} {requests : List MakerRequest} (h : MakerInv w)
    (hfresh : runId ∉ w.runIds)
    (hmem : MakerRevalidationRun.ofRequest runId jobId payload scopeKey requiredAt now upperOrderId ∈
      store.runs)
    (hrequests : ∀ q ∈ requests, q = ⟨runId, payload.blockNumber, requiredAt⟩) :
    RunInv (w.next store { runIds := [runId], requests := requests })
      (.ofRequest runId jobId payload scopeKey requiredAt now upperOrderId) := by
  have hpass := @mem_startedPasses w.store store _ hmem (fun old hold _ => by
    obtain ⟨hrow, hid⟩ := Table.get?_eq_some.mp hold
    have hknown := h.rows old hrow
    rw [hid] at hknown
    exact hfresh hknown)
  refine ⟨Nat.le_refl _, ⟨_, List.mem_append_left _ hpass, rfl, rfl, rfl, rfl⟩, ?_, ?_, ?_, ?_⟩
  · intro hstatus
    cases hstatus
  · intro q hq hid
    rcases List.mem_append.mp hq with hq | hq
    · rw [hrequests q hq]
      exact Or.inl ⟨_, List.mem_append_left _ hpass, rfl, ⟨Int.le_refl _, Nat.le_max_right _ _⟩, Or.inl rfl⟩
    · have hknown := h.requests q hq
      rw [hid] at hknown
      exact absurd hknown hfresh
  · intro copy hcopy hid
    have hknown := h.copies copy hcopy
    rw [hid] at hknown
    exact absurd hknown hfresh
  · intro g orderId hmem'
    exact absurd (h.handled _ hmem') hfresh

theorem RunInv.joined {w : MakerWorld} {store : MakerStore} {runId : String}
    {requests : List MakerRequest} {row : MakerRevalidationRun}
    {payload requested : OrderUpdateByMakerPayload} {requiredAt now outboxId : Nat}
    {upperOrderId : OrderId} (h : RunInv w row) (hrow : w.store.runs.get? row.runId = some row)
    (hmerge : mergeMakerRequirements row payload requiredAt = .ok requested)
    (hmem : row.admitted requested requiredAt upperOrderId now outboxId ∈ store.runs)
    (hrequests : ∀ q ∈ requests, q = ⟨row.runId, payload.blockNumber, requiredAt⟩) :
    RunInv (w.next store { runIds := [runId], requests := requests })
      (row.admitted requested requiredAt upperOrderId now outboxId) := by
  obtain ⟨hprevious, hpayload⟩ := mergeMakerRequirements_block hmerge
  rw [MakerRevalidationRun.admitted] at hmem ⊢
  by_cases hstatus : row.status = .completed
  · rw [if_pos hstatus] at hmem ⊢
    obtain ⟨hgeneration, hcompleted⟩ := h.done hstatus
    have hlater : row.passGeneration < row.generation + 1 := by omega
    refine h.passStarted rfl rfl hlater (by simp [MakerRevalidationRun.restarted,
      MakerRevalidationRun.wake]) (Nat.lt_succ_self _) (Nat.le_refl _) ?_ hprevious
      (Nat.le_max_left _ _) hcompleted ?_ (by simp) (by simp)
    · refine mem_startedPasses hmem (fun old hold => ?_)
      obtain rfl : row = old := Option.some.inj (hrow.symm.trans hold)
      exact Nat.ne_of_lt hlater
    · intro q hq _
      rw [hrequests q hq]
      exact ⟨hpayload, Nat.le_trans (Nat.le_max_right _ _) (Nat.le_max_right _ _)⟩
  · rw [if_neg hstatus]
    refine (h.merged hstatus hprevious).grow ?_ (by simp) (by simp)
    intro q hq _
    rw [hrequests q hq]
    exact Or.inr ⟨Nat.lt_succ_of_le h.generation, hpayload, Nat.le_max_right _ _⟩

theorem MakerInv.request (h : MakerInv w) (input : MakerAdmission)
    (runId : String) (outboxId : Nat) : MakerInv (makerStep w (.request input runId outboxId)) := by
  rw [makerStep]
  split
  · exact h
  next hfresh =>
  dsimp only
  rcases hrun : (admitMaker input runId outboxId).exec w.store with ⟨r, store⟩
  cases r with
  | error e =>
    obtain rfl := Tx.writeTransaction_error hrun
    exact h.kept (fun row hrow => ⟨row, hrow, .refl row⟩)
  | ok id =>
    have hknown : ∀ row ∈ w.store.runs, row.runId ∈ runId :: w.runIds :=
      fun row hrow => List.mem_cons_of_mem _ (h.rows row hrow)
    obtain ⟨requests, hghosts, hrequests⟩ := @admittedGhosts_ok w.store input runId id
    have hids : ∀ q ∈ requests, q.runId = id := fun q hq => by rw [hrequests q hq]
    cases admitMaker_effect hrun with
    | @redelivered row hrow hjob =>
      have hagain : isRedelivered w.store input = true :=
        List.any_eq_true.mpr ⟨row, hrow, decide_eq_true hjob⟩
      simp only [admittedGhosts, hagain, if_true]
      exact h.admitted (by simp) (hknown row hrow) (fun r hr _ => hr)
        (fun r hr _ => (h.runs r hr).grow (by simp) (by simp) (by simp))
    | @inserted payload scopeKey hpayload hnew =>
      rw [hghosts]
      refine h.admitted hids List.mem_cons_self ?_ ?_
      · intro r hr hne
        rcases Table.mem_insertOrIgnore.mp hr with hr | ⟨rfl, -⟩
        · exact hr
        · exact absurd rfl hne
      · intro r hr heq
        rcases Table.mem_insertOrIgnore.mp hr with hold | ⟨rfl, -⟩
        · exact absurd (heq ▸ h.rows r hold) hfresh
        · refine .inserted h hfresh hr (fun q hq => ?_)
          rw [hrequests q hq, blockNumber_canonicalMakerRequest hpayload]
    | @represented row payload requiredAt hrow hpayload hdemand hadvances =>
      rw [hghosts]
      refine h.admitted hids (hknown row hrow) (fun r hr _ => hr) (fun r hr heq => ?_)
      obtain rfl : r = row := Table.eq_of_key_eq hr hrow heq
      refine (h.runs r hr).grow (fun q hq _ => ?_) (by simp) (by simp)
      have hq' := hrequests q hq
      refine (h.runs r hr).represented hadvances ?_ ?_
      · rw [hq', blockNumber_canonicalMakerRequest hpayload]
      · rw [hq', hdemand]
        rfl
    | @joined row payload requested requiredAt hrow hpayload hdemand hmerge =>
      rw [hghosts]
      refine h.admitted hids (hknown row hrow) ?_ ?_
      · intro r hr hne
        obtain ⟨old, hold, ⟨-, rfl⟩ | ⟨hid, -, rfl⟩⟩ := mem_updateRun hr
        · exact hold
        · exact absurd ((MakerRevalidationRun.runId_admitted _ _ _ _ _ _).trans hid) hne
      · intro r hr heq
        obtain ⟨old, hold, ⟨hnot, rfl⟩ | ⟨hid, -, rfl⟩⟩ := mem_updateRun hr
        · cases hnot heq
        obtain rfl : old = row := Table.eq_of_key_eq hold hrow hid
        refine (h.runs old hold).joined (Table.get?_of_mem hold) hmerge hr (fun q hq => ?_)
        rw [hrequests q hq, blockNumber_canonicalMakerRequest hpayload, hdemand]
        rfl

/-! ## 6. Checkpoints -/

/-- **A checkpoint goes through increasing ids**, and leaves the last of them as cursor. -/
theorem checkpointEntries_order {pass : MakerPass} {alone : Bool}
    {evidence : Option OrderValidationEvidence} :
    ∀ {entries : List MakerValidationCheckpointEntry} {afterId : OrderId} {deferred : Nat}
      {out : OrderId × Nat} {db db' : Db},
      Tx.Returns (checkpointEntries pass alone evidence now nowSeconds afterId deferred entries) db
        out db' →
      (entries.map (·.candidate.order.id)).Pairwise (· < ·) ∧
        (∀ e ∈ entries, afterId < e.candidate.order.id ∧ e.candidate.order.id ≤ out.1) ∧
        afterId ≤ out.1 ∧ (entries ≠ [] → afterId < out.1)
  | [], afterId, deferred, out, db, db', h => by
    obtain ⟨rfl, rfl⟩ := Tx.returns_pure.mp h
    exact ⟨List.Pairwise.nil, by simp, le_refl _, fun hne => absurd rfl hne⟩
  | entry :: rest, afterId, deferred, out, db, db', h => by
    simp only [checkpointEntries, Tx.returns_bind, Tx.returns_throwIf] at h
    obtain ⟨_, _, ⟨horder, rfl⟩, handed, db₁, -, hrest⟩ := h
    push Not at horder
    obtain ⟨hsorted, hbounds, hle, -⟩ := checkpointEntries_order hrest
    have hlt : afterId < out.1 := lt_of_lt_of_le horder.1 hle
    refine ⟨?_, ?_, le_of_lt hlt, fun _ => hlt⟩
    · rw [List.map_cons, List.pairwise_cons]
      refine ⟨fun id hid => ?_, hsorted⟩
      obtain ⟨e, he, rfl⟩ := List.mem_map.mp hid
      exact (hbounds e he).1
    · intro e he
      rcases List.mem_cons.mp he with rfl | he
      · exact ⟨horder.1, hle⟩
      · exact ⟨lt_trans horder.1 (hbounds e he).1, (hbounds e he).2⟩

theorem fences_iff {run : MakerRevalidationRun} :
    current.fences run now = true ↔ current.status = .pending ∧ current.leaseOwner = run.leaseOwner ∧
        current.leaseVersion = run.leaseVersion ∧ now < current.leaseUntil ∧
        current.afterId = run.afterId ∧ current.step = run.step := by
  simp [MakerRevalidationRun.fences, and_assoc]

theorem MakerRevalidationRun.checkpointed_followup (h : c.followup current = true) :
    current.checkpointed c afterId deferred upperOrderId now outboxId =
      ((current.advanced c afterId deferred (c.complete && !c.followup current) now).passStarted
        upperOrderId now).wake outboxId := by
  simp only [checkpointed, h, if_true]

theorem MakerRevalidationRun.checkpointed_same (h : c.followup current = false) :
    current.checkpointed c afterId deferred upperOrderId now outboxId =
      (current.advanced c afterId deferred c.complete now).wake outboxId := by
  simp only [checkpointed, h, Bool.false_eq_true, if_false, Bool.not_false, Bool.and_true]

theorem RunInv.checkpointed (h : RunInv w current)
    (hcurrent : w.store.runs.get? current.runId = some current)
    (hrunId : c.run.runId = current.runId)
    (hpass : c.run.passGeneration = current.passGeneration)
    (hafter : current.afterId ≤ afterId)
    (hids : ∀ e ∈ c.resolutions, e.candidate.order.id ≤ afterId)
    (hmem : current.checkpointed c afterId deferred upperOrderId now outboxId ∈ store.runs) :
    RunInv (w.next store (checkpointGhosts c
      (.ok (current.checkpointed c afterId deferred upperOrderId now outboxId))))
      (current.checkpointed c afterId deferred upperOrderId now outboxId) := by
  have hhandled : ∀ gen id, (current.runId, gen, id) ∈
      c.resolutions.map (fun e => (c.run.runId, c.run.passGeneration, e.candidate.order.id)) →
      gen = current.passGeneration ∧ id ≤ afterId := by
    intro gen id hmem
    obtain ⟨e, he, heq⟩ := List.mem_map.mp hmem
    simp only [Prod.mk.injEq] at heq
    exact ⟨heq.2.1.symm.trans hpass, heq.2.2 ▸ hids e he⟩
  cases hfollowup : c.followup current with
  | true =>
    rw [MakerRevalidationRun.checkpointed_followup hfollowup] at hmem ⊢
    have hcomplete : c.complete = true ∧ c.run.passGeneration < current.generation := by
      simpa [MakerCheckpoint.followup] using hfollowup
    have hlater : current.passGeneration < current.generation := hpass ▸ hcomplete.2
    refine h.passStarted rfl rfl hlater ?_ (Nat.lt_succ_self _) (Nat.le_refl _) ?_ (Int.le_refl _)
      (Nat.le_refl _) ?_ (by simp [checkpointGhosts]) ?_ ?_
    · simp [MakerRevalidationRun.wake, MakerRevalidationRun.passStarted,
        MakerRevalidationRun.advanced, hfollowup]
    · refine mem_startedPasses hmem (fun old hold => ?_)
      obtain rfl : current = old := Option.some.inj (hcurrent.symm.trans hold)
      exact Nat.ne_of_lt hlater
    · simp [checkpointGhosts, hcomplete.1, hrunId, hpass]
    · intro copy hcopy _
      exact List.mem_singleton.mp hcopy
    · intro gen id hmem
      exact (hhandled gen id hmem).1
  | false =>
    rw [MakerRevalidationRun.checkpointed_same hfollowup] at hmem ⊢
    refine ⟨h.generation, ?_, ?_, ?_, ?_, ?_⟩
    · obtain ⟨p, hp, hrest⟩ := h.current
      exact ⟨p, List.mem_append_right _ hp, hrest⟩
    · intro hstatus
      have hcomplete : c.complete = true := by
        simpa [MakerRevalidationRun.wake, MakerRevalidationRun.advanced] using hstatus
      have hle : current.generation ≤ current.passGeneration := by
        simpa [MakerCheckpoint.followup, hcomplete, hpass] using hfollowup
      refine ⟨Nat.le_antisymm h.generation hle, List.mem_append_left _ ?_⟩
      simp [checkpointGhosts, hcomplete, hrunId, hpass, MakerRevalidationRun.wake,
        MakerRevalidationRun.advanced]
    · intro q hq hid
      exact (h.answered q hq hid).mono
    · intro copy hcopy hid
      rcases List.mem_append.mp hcopy with hcopy | hcopy
      · rw [List.mem_singleton.mp hcopy]
        exact .refl _
      · exact (h.copies copy hcopy hid).later (Nat.le_refl _) (Nat.lt_succ_self _)
    · intro gen id hmem
      rcases List.mem_append.mp hmem with hmem | hmem
      · obtain ⟨hgen, hid⟩ := hhandled gen id hmem
        exact ⟨Nat.le_of_eq hgen, fun _ => hid⟩
      · obtain ⟨hle, hid⟩ := h.handled gen id hmem
        exact ⟨hle, fun heq => le_trans (hid heq) hafter⟩

/-- **A checkpoint keeps the invariant**: it handles orders after the cursor only. -/
theorem MakerInv.checkpoint (h : MakerInv w) (c : MakerCheckpoint) (now nowSeconds outboxId : Nat) :
    MakerInv (makerStep w (.checkpoint c now nowSeconds outboxId)) := by
  rw [makerStep]
  split
  · next hcopy =>
    dsimp only
    rcases hrun : (checkpointMaker c now nowSeconds outboxId).exec w.store with ⟨r, store⟩
    cases r with
    | error e =>
      obtain rfl := Tx.writeTransaction_error hrun
      exact h.kept (fun row hrow => ⟨row, hrow, .refl row⟩)
    | ok run =>
      cases checkpointMaker_effect hrun with
      | @mk current out db' hcurrent hfences horders =>
        obtain ⟨hmem, hrunId⟩ := Table.get?_eq_some.mp hcurrent
        obtain ⟨-, -, -, -, hafter, hstep⟩ := fences_iff.mp hfences
        have hof := (h.runs current hmem).copies c.run hcopy hrunId.symm
        have hpass := hof.passGeneration hstep.symm
        obtain ⟨hsorted, hbounds, hle, -⟩ := checkpointEntries_order (applyCheckpoint_entries horders)
        refine h.next ?_ ?_ ⟨?_, by simp [checkpointGhosts], ?_⟩ ?_
        · intro row' hrow'
          obtain ⟨row, hrow, ⟨hnot, rfl⟩ | ⟨hid, -, rfl⟩⟩ := mem_updateRun hrow'
          · have hne : c.run.runId ≠ row'.runId := fun heq => by cases hnot heq.symm
            refine (h.runs row' hrow).grow (by simp [checkpointGhosts]) ?_ ?_
            · intro copy hnew hid
              rw [List.mem_singleton.mp hnew, MakerRevalidationRun.runId_checkpointed, hrunId] at hid
              exact absurd hid hne
            · intro gen id hnew
              obtain ⟨e, -, heq⟩ := List.mem_map.mp hnew
              exact absurd (congrArg Prod.fst heq) hne
          · obtain rfl : row = current := Table.eq_of_key_eq hrow hmem (hid.trans hrunId.symm)
            exact (h.runs row hrow).checkpointed (Table.get?_of_mem hrow) hrunId.symm hpass
              (hafter ▸ hle) (fun e he => (hbounds e he).2) hrow'
        · intro row' hrow'
          obtain ⟨row, hrow, ⟨-, rfl⟩ | ⟨-, -, rfl⟩⟩ := mem_updateRun hrow'
          · exact h.rows row' hrow
          · rw [MakerRevalidationRun.runId_checkpointed]
            exact h.rows row hrow
        · intro copy hnew
          rw [List.mem_singleton.mp hnew, MakerRevalidationRun.runId_checkpointed]
          exact h.rows current hmem
        · intro e he
          obtain ⟨entry, -, rfl⟩ := List.mem_map.mp he
          exact hrunId ▸ h.rows current hmem
        · refine List.nodup_append.mpr ⟨?_, h.once, ?_⟩
          · refine List.Nodup.of_map (fun e : String × Nat × OrderId => e.2.2) ?_
            rw [checkpointGhosts, List.map_map]
            exact hsorted.imp (fun hlt => ne_of_lt hlt)
          -- what was handled in this pass lies at or before the cursor
          rintro e he f hf rfl
          obtain ⟨entry, hentry, rfl⟩ := List.mem_map.mp he
          rw [hrunId.symm] at hf
          have hold := ((h.runs current hmem).handled _ _ hf).2 hpass
          rw [hafter] at hold
          exact absurd (hbounds entry hentry).1 (not_lt_of_ge hold)
  · exact h

theorem MakerInv.step (h : MakerInv w) : ∀ event, MakerInv (makerStep w event)
  | .request input runId outboxId => h.request input runId outboxId
  | .claim runId owner now => h.claim runId owner now
  | .renew _ _ =>
    h.kept (kept_updateRun (fun _ =>
      ⟨rfl, rfl, rfl, rfl, rfl, rfl, rfl, rfl, rfl, rfl, Nat.le_refl _⟩))
  | .release _ _ =>
    h.kept (kept_updateRun (fun _ =>
      ⟨rfl, rfl, rfl, rfl, rfl, rfl, rfl, rfl, rfl, rfl, Nat.le_refl _⟩))
  | .checkpoint c now nowSeconds outboxId => h.checkpoint c now nowSeconds outboxId
  | .scheduleWakeup _ _ =>
    h.kept (kept_updateRun (fun _ =>
      ⟨rfl, rfl, rfl, rfl, rfl, rfl, rfl, rfl, rfl, rfl, Nat.le_refl _⟩))
  | .recoverWakeup _ _ _ =>
    h.kept (kept_updateRun (fun _ =>
      ⟨rfl, rfl, rfl, rfl, rfl, rfl, rfl, rfl, rfl, rfl, Nat.le_refl _⟩))
  | .cleanup _ => h.kept (fun row hrow => ⟨row, (Table.mem_deleteWhere.mp hrow).1, .refl row⟩)
  | .writeChain _ => h.kept (fun row hrow => ⟨row, hrow, .refl row⟩)

theorem MakerInv.run : ∀ {w : MakerWorld} (events : List MakerEvent), MakerInv w →
    MakerInv (makerRun w events)
  | _, [], h => h
  | _, event :: rest, h => MakerInv.run rest (h.step event)

/-! ## 7. Who advances a run -/

/-- Where a run is: its pass, its cursor, its step and its counts. -/
structure MakerProgress where
  status : MakerRevalidationStatus
  payload : OrderUpdateByMakerPayload
  passGeneration : Nat
  passStartedAt : Nat
  upperOrderId : OrderId
  afterId : OrderId
  step : Nat
  resolvedOrders : Nat
  deferredOrders : Nat

def MakerRevalidationRun.progress (run : MakerRevalidationRun) : MakerProgress :=
  ⟨run.status, run.payload, run.passGeneration, run.passStartedAt, run.upperOrderId, run.afterId,
    run.step, run.resolvedOrders, run.deferredOrders⟩

end Artgod.Indexer
