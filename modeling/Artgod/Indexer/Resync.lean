/-
# What a reorg resync still owes

A rollback deletes blocks, and the recovery journal brings back those on the canonical chain; a mismatch found
meanwhile interrupts the resync, so the unfinished lower bound is carried through every transition.  `resyncStep`
runs the journal, with three ghosts: the heights rolled back and not committed again, each with the lowest head
captured since (`deleted`), the head captured last, and the ranges handed out since.
-/
import Artgod.Indexer.Commit

namespace Artgod.Indexer

open Store

/-! ## 1. The journal in a run -/

/-- The row with another retry time. -/
def ReorgRecoveryState.withRetryAt (retryAt : Nat) : ReorgRecoveryState → ReorgRecoveryState
  | .awaitingAncestor s => .awaitingAncestor { s with base := { s.base with retryAt := retryAt } }
  | .resync s => .resync { s with base := { s.base with retryAt := retryAt } }

/-- The rows differ in their retry time only. -/
def SameButRetry (a b : ReorgRecoveryState) : Prop := a.withRetryAt 0 = b.withRetryAt 0

/-- One attempt of `resume` to roll back: the row it read, the proof and plan it prepared and the
head it captured. -/
structure RollbackAttempt where
  expected : AwaitingReorgAncestor
  proof : ReorgAncestorProof
  plan : ReorgRollbackPlan
  snapshot : Erc721RollbackSnapshot
  head : Nat
  retryAt : Nat

structure RecoveryWorld where
  db : Db
  reads : List ReorgRecoveryState
  usedIds : List String
  deleted : List (Nat × Nat)
  head : Nat
  handed : List (Nat × Nat)

/-- Nothing was rolled back yet. -/
def RecoveryWorld.initial (db : Db) : RecoveryWorld where
  db := { db with recovery := none }
  reads := []
  usedIds := []
  deleted := []
  head := 0
  handed := []

inductive RecoveryEvent where
  | read
  | commit (input : SyncRangeCommit)
  | retainMismatch (input : ReorgMismatch)
  | refreshCheckpoint (expected : ReorgRecoveryState) (checkpoint : ChainSyncCheckpoint)
      (recoveryId : String) (now : Nat)
  | rollback (attempt : RollbackAttempt)
  | deferProof (expected : AwaitingReorgAncestor) (retryAt : Nat)
  | deferResync (range : ReorgResyncRange) (retryAt : Nat)
  | other (db : Db)

/-- The heights a rollback deletes. -/
def storedFrom (db : Db) (fromBlock : Nat) : List Nat :=
  (db.blocks.rows.map (·.number)).filter (fun n => fromBlock ≤ n)

/-- The configured batch size is the one a resync is completed with. -/
def SyncWorkCompletion.usesBatchSize (batchSize : Nat) : SyncWorkCompletion → Bool
  | .reorgResync _ size _ => size = batchSize
  | _ => true

/-- The range a commit handed out next. -/
def handedOut (completion : SyncWorkCompletion) (recovery : Option ReorgRecoveryState) :
    List (Nat × Nat) :=
  match completion, recovery with
  | .reorgResync _ _ _, some (.resync s) => [(s.fromBlock, s.toBlock)]
  | _, _ => []

/-- One event.  An attempt that throws changes nothing. -/
def resyncStep (batchSize : Nat) (w : RecoveryWorld) : RecoveryEvent → RecoveryWorld
  | .read => { w with reads := w.db.recovery.toList ++ w.reads }
  | .commit input =>
    if input.completion.usesBatchSize batchSize then
      match (commitSyncRange input).exec w.db with
      | (.ok _, d) =>
        { w with
          db := d
          deleted := w.deleted.filter (fun p => input.result.blocks.all (·.number ≠ p.1))
          handed := handedOut input.completion d.recovery ++ w.handed }
      | (.error _, _) => w
    else w
  | .retainMismatch input =>
    if input.recoveryId ∈ w.usedIds then w
    else
      match (Artgod.Indexer.retainMismatch input).exec w.db with
      | (.ok _, d) => { w with db := d, usedIds := input.recoveryId :: w.usedIds }
      | (.error _, _) => w
  | .refreshCheckpoint expected checkpoint recoveryId now =>
    if expected ∈ w.reads ∧ recoveryId ∉ w.usedIds then
      match (Artgod.Indexer.refreshCheckpoint expected checkpoint recoveryId now).exec w.db with
      | (.ok _, d) => { w with db := d, usedIds := recoveryId :: w.usedIds }
      | (.error _, _) => w
    else w
  | .rollback attempt =>
    if .awaitingAncestor attempt.expected ∈ w.reads then
      match beginReorgResync attempt.expected attempt.plan.fromBlock attempt.head batchSize
          attempt.retryAt with
      | .error _ => w
      | .ok next =>
        match (commitRollbackAndResync ⟨attempt.expected, attempt.proof, attempt.plan,
            attempt.snapshot, next⟩).exec w.db with
        | (.ok _, d) =>
          { w with
            db := d
            deleted := w.deleted.map (fun p => (p.1, min p.2 attempt.head)) ++
              (storedFrom w.db attempt.plan.fromBlock).map (fun n => (n, attempt.head))
            head := attempt.head
            handed := next.toList.map (fun s => (s.fromBlock, s.toBlock)) }
        | (.error _, _) => w
    else w
  | .deferProof expected retryAt => { w with db := Artgod.Indexer.deferProof expected retryAt w.db }
  | .deferResync range retryAt => { w with db := Artgod.Indexer.deferResync range retryAt w.db }
  | .other d =>
    if d.recovery = w.db.recovery ∧ d.blocks.rows.map (·.number) = w.db.blocks.rows.map (·.number)
    then { w with db := d } else w

def resyncRun (batchSize : Nat) (w : RecoveryWorld) (events : List RecoveryEvent) : RecoveryWorld :=
  events.foldl (resyncStep batchSize) w

/-- The journal still reaches down to height `n`: a resync begins at or below it, and a recovery
that awaits its ancestor resumes at or below it. -/
def RetainedFrom : Option ReorgRecoveryState → Nat → Prop
  | some (.resync s), n => s.fromBlock ≤ n
  | some (.awaitingAncestor s), n => ∃ r ∈ s.resumeFrom, r ≤ n
  | none, _ => False

/-- What the ranges handed out since the latest rollback look like. -/
structure HandedOut (batchSize : Nat) (w : RecoveryWorld) : Prop where
  contiguous : w.handed.IsChain (fun newer older => newer.1 = older.2 + 1)
  bounded : ∀ r ∈ w.handed, r.1 ≤ r.2 ∧ r.2 < r.1 + batchSize ∧ r.2 ≤ w.head
  current : ∀ s, w.db.recovery = some (.resync s) →
    w.handed.head? = some (s.fromBlock, s.toBlock) ∧ s.targetBlock = w.head
  finished : w.db.recovery = none → ∀ r ∈ w.handed.head?, r.2 = w.head

/-- The invariant of a run. -/
structure RecoveryInv (batchSize : Nat) (w : RecoveryWorld) : Prop where
  owed : ∀ p ∈ w.deleted, p.1 ≤ p.2 → RetainedFrom w.db.recovery p.1
  below_target : ∀ s, w.db.recovery = some (.resync s) → ∀ p ∈ w.deleted, p.2 ≤ s.targetBlock
  ranges : HandedOut batchSize w
  current_id : ∀ r ∈ w.db.recovery, r.base.recoveryId ∈ w.usedIds
  read_ids : ∀ r ∈ w.reads, r.base.recoveryId ∈ w.usedIds
  -- a row that was read and has the current id and version is the current row
  read_rows : ∀ r ∈ w.reads, ∀ current ∈ w.db.recovery,
    r.base.recoveryId = current.base.recoveryId → r.base.version ≤ current.base.version ∧
      (r.base.version = current.base.version → SameButRetry r current)

/-! ## 2. Rows up to their retry time -/

theorem SameButRetry.refl (a : ReorgRecoveryState) : SameButRetry a a := rfl

variable {batchSize : Nat} {w : RecoveryWorld} {d : Db} {a b current : ReorgRecoveryState}

theorem SameButRetry.awaiting {a : AwaitingReorgAncestor}
    (h : SameButRetry (.awaitingAncestor a) b) :
    ∃ s, b = .awaitingAncestor s ∧ s.resumeFrom = a.resumeFrom ∧
      s.base.recoveryId = a.base.recoveryId ∧ s.base.version = a.base.version ∧
      s.base.checkedBlock = a.base.checkedBlock := by
  obtain ⟨⟨id, rev, ver, chk, sh, oh, ra⟩, res⟩ := a
  cases b with
  | resync s => exact absurd h (by simp [SameButRetry, ReorgRecoveryState.withRetryAt])
  | awaitingAncestor s =>
    obtain ⟨⟨id', rev', ver', chk', sh', oh', ra'⟩, res'⟩ := s
    simp only [SameButRetry, ReorgRecoveryState.withRetryAt,
      ReorgRecoveryState.awaitingAncestor.injEq, AwaitingReorgAncestor.mk.injEq,
      RecoveryBase.mk.injEq] at h
    obtain ⟨⟨rfl, rfl, rfl, rfl, rfl, rfl, -⟩, rfl⟩ := h
    exact ⟨_, rfl, rfl, rfl, rfl, rfl⟩

theorem SameButRetry.resync {a : ReorgResync}
    (h : SameButRetry (.resync a) b) :
    ∃ s, b = .resync s ∧ s.fromBlock = a.fromBlock ∧ s.toBlock = a.toBlock ∧
      s.targetBlock = a.targetBlock ∧ s.base.recoveryId = a.base.recoveryId ∧
      s.base.version = a.base.version := by
  obtain ⟨⟨id, rev, ver, chk, sh, oh, ra⟩, f, t, g⟩ := a
  cases b with
  | awaitingAncestor s => exact absurd h (by simp [SameButRetry, ReorgRecoveryState.withRetryAt])
  | resync s =>
    obtain ⟨⟨id', rev', ver', chk', sh', oh', ra'⟩, f', t', g'⟩ := s
    simp only [SameButRetry, ReorgRecoveryState.withRetryAt, ReorgRecoveryState.resync.injEq,
      ReorgResync.mk.injEq, RecoveryBase.mk.injEq] at h
    obtain ⟨⟨rfl, rfl, rfl, rfl, rfl, rfl, -⟩, rfl, rfl, rfl⟩ := h
    exact ⟨_, rfl, rfl, rfl, rfl, rfl, rfl⟩

theorem SameButRetry.base (h : SameButRetry a b) :
    b.base.recoveryId = a.base.recoveryId ∧ b.base.version = a.base.version := by
  cases a with
  | awaitingAncestor s =>
    obtain ⟨s', rfl, -, hid, hver, -⟩ := h.awaiting
    exact ⟨hid, hver⟩
  | resync s =>
    obtain ⟨s', rfl, -, -, -, hid, hver⟩ := h.resync
    exact ⟨hid, hver⟩

theorem SameButRetry.revision (h : SameButRetry a b) :
    b.base.revision = a.base.revision := by
  have hsame : (a.withRetryAt 0).base.revision = (b.withRetryAt 0).base.revision :=
    congrArg (fun r => r.base.revision) h
  cases a <;> cases b <;> exact hsame.symm

theorem SameButRetry.retained (h : SameButRetry a b) {n : Nat}
    (hn : RetainedFrom (some a) n) : RetainedFrom (some b) n := by
  cases a with
  | awaitingAncestor s =>
    obtain ⟨s', rfl, hres, -⟩ := h.awaiting
    rw [RetainedFrom] at hn ⊢
    rw [hres]
    exact hn
  | resync s =>
    obtain ⟨s', rfl, hfrom, -⟩ := h.resync
    rw [RetainedFrom] at hn ⊢
    omega

theorem RecoveryInv.defer (h : RecoveryInv batchSize w)
    {next : ReorgRecoveryState} (hcur : w.db.recovery = some current)
    (hsame : SameButRetry current next) (hd : d.recovery = some next) :
    RecoveryInv batchSize { w with db := d } := by
  have hback : ∀ s, next = .resync s → ∃ s', current = .resync s' ∧ s'.fromBlock = s.fromBlock ∧
      s'.toBlock = s.toBlock ∧ s'.targetBlock = s.targetBlock := by
    rintro s rfl
    have hsym : SameButRetry (.resync s) current := hsame.symm
    obtain ⟨s', rfl, h₁, h₂, h₃, -⟩ := hsym.resync
    exact ⟨s', rfl, h₁, h₂, h₃⟩
  refine ⟨?_, ?_, ⟨h.ranges.contiguous, h.ranges.bounded, ?_, ?_⟩, ?_, h.read_ids, ?_⟩
  · intro p hp hle
    change RetainedFrom d.recovery p.1
    rw [hd]
    have howed := h.owed p hp hle
    rw [hcur] at howed
    exact hsame.retained howed
  · intro s hs
    change d.recovery = some (.resync s) at hs
    rw [hd, Option.some.injEq] at hs
    obtain ⟨s', rfl, -, -, htarget⟩ := hback s hs
    rw [← htarget]
    exact h.below_target s' hcur
  · intro s hs
    change d.recovery = some (.resync s) at hs
    rw [hd, Option.some.injEq] at hs
    obtain ⟨s', rfl, hfrom, hto, htarget⟩ := hback s hs
    rw [← hfrom, ← hto, ← htarget]
    exact h.ranges.current s' hcur
  · intro hnone
    change d.recovery = none at hnone
    rw [hd] at hnone
    exact absurd hnone (by simp)
  · intro r hr
    change r ∈ d.recovery at hr
    rw [hd, Option.mem_some_iff] at hr
    subst hr
    rw [hsame.base.1]
    exact h.current_id current hcur
  · intro r hr x hx hid
    change x ∈ d.recovery at hx
    rw [hd, Option.mem_some_iff] at hx
    subst hx
    rw [hsame.base.1] at hid
    obtain ⟨hle, heq⟩ := h.read_rows r hr current hcur hid
    rw [hsame.base.2]
    exact ⟨hle, fun hv => (heq hv).trans hsame⟩

/-! ## 3. Mismatches -/

/-- **A retained mismatch keeps the row, or continues it under a new id**: one version later, and
reaching down to every height that the row reached. -/
theorem retainReorgMismatch_cases (current : Option ReorgRecoveryState) (input : ReorgMismatch) :
    (∃ s, current = some (.awaitingAncestor s) ∧ retainReorgMismatch current input = s) ∨
      ((retainReorgMismatch current input).base.recoveryId = input.recoveryId ∧
        (∀ c ∈ current, (retainReorgMismatch current input).base.version = c.base.version + 1) ∧
        ∀ n, RetainedFrom current n →
          RetainedFrom (some (.awaitingAncestor (retainReorgMismatch current input))) n) := by
  cases current with
  | none => exact Or.inr ⟨rfl, by simp, fun n hn => absurd hn id⟩
  | some c =>
    cases c with
    | resync s =>
      refine Or.inr ⟨rfl, ?_, ?_⟩
      · intro c hc
        rw [Option.mem_some_iff] at hc
        subst hc
        rfl
      · intro n hn
        exact ⟨s.fromBlock, rfl, hn⟩
    | awaitingAncestor s =>
      by_cases hc : s.base.revision = input.checkpoint.revision ∧
          s.base.checkedBlock ≤ input.checkedBlock
      · left
        refine ⟨s, rfl, ?_⟩
        simp only [retainReorgMismatch, if_pos hc]
      · right
        rw [show retainReorgMismatch (some (.awaitingAncestor s)) input = _ from if_neg hc]
        refine ⟨rfl, ?_, fun n hn => hn⟩
        intro c hmem
        rw [Option.mem_some_iff] at hmem
        subst hmem
        rfl

theorem RecoveryInv.useId (h : RecoveryInv batchSize w)
    (id : String) : RecoveryInv batchSize { w with usedIds := id :: w.usedIds } where
  owed := h.owed
  below_target := h.below_target
  ranges := ⟨h.ranges.contiguous, h.ranges.bounded, h.ranges.current, h.ranges.finished⟩
  current_id r hr := List.mem_cons_of_mem _ (h.current_id r hr)
  read_ids r hr := List.mem_cons_of_mem _ (h.read_ids r hr)
  read_rows := h.read_rows

theorem RecoveryInv.retain (h : RecoveryInv batchSize w)
    {next : AwaitingReorgAncestor} (hd : d.recovery = some (.awaitingAncestor next))
    (hfresh : next.base.recoveryId ∉ w.usedIds)
    (hkeep : ∀ n, RetainedFrom w.db.recovery n → RetainedFrom (some (.awaitingAncestor next)) n) :
    RecoveryInv batchSize
      { w with db := d, usedIds := next.base.recoveryId :: w.usedIds } := by
  refine ⟨?_, ?_, ⟨h.ranges.contiguous, h.ranges.bounded, ?_, ?_⟩, ?_, ?_, ?_⟩
  · intro p hp hle
    change RetainedFrom d.recovery p.1
    rw [hd]
    exact hkeep p.1 (h.owed p hp hle)
  · intro s hs
    change d.recovery = some (.resync s) at hs
    rw [hd] at hs
    exact absurd hs (by simp)
  · intro s hs
    change d.recovery = some (.resync s) at hs
    rw [hd] at hs
    exact absurd hs (by simp)
  · intro hnone
    change d.recovery = none at hnone
    rw [hd] at hnone
    exact absurd hnone (by simp)
  · intro r hr
    change r ∈ d.recovery at hr
    rw [hd, Option.mem_some_iff] at hr
    subst hr
    exact List.mem_cons_self
  · exact fun r hr => List.mem_cons_of_mem _ (h.read_ids r hr)
  · -- no row that was read has the fresh id
    intro r hr x hx hid
    change x ∈ d.recovery at hx
    rw [hd, Option.mem_some_iff] at hx
    subst hx
    exact absurd (hid ▸ h.read_ids r hr) hfresh

/-- What a step may do to the version of the row. -/
def VersionStep (before after : Option ReorgRecoveryState) : Prop :=
  ∀ r ∈ before, ∀ r' ∈ after, SameButRetry r r' ∨ r.base.version < r'.base.version

theorem VersionStep.refl (a : Option ReorgRecoveryState) : VersionStep a a := by
  intro r hr r' hr'
  rw [Option.mem_def.mp hr, Option.mem_some_iff] at hr'
  subst hr'
  exact Or.inl (.refl r)

theorem RecoveryInv.retainMismatch
    (h : RecoveryInv batchSize w) {input : ReorgMismatch} {s : AwaitingReorgAncestor}
    (hfresh : input.recoveryId ∉ w.usedIds)
    (hret : Tx.Returns (Artgod.Indexer.retainMismatch input) w.db s d) :
    RecoveryInv batchSize { w with db := d, usedIds := input.recoveryId :: w.usedIds } ∧
      VersionStep w.db.recovery d.recovery := by
  have heff := retainMismatch_effect hret
  rcases retainReorgMismatch_cases w.db.recovery input with ⟨s', hcur, heq⟩ | ⟨hid, hver, hkeep⟩
  · have hd : d.recovery = some (.awaitingAncestor s') := by rw [heff.recovery, heq]
    refine ⟨(h.defer hcur (.refl _) hd).useId _, ?_⟩
    rw [hd, hcur]
    exact .refl _
  · have hd := heff.recovery
    refine ⟨?_, ?_⟩
    · rw [← hid]
      exact h.retain hd (by rw [hid]; exact hfresh) hkeep
    · intro r hr r' hr'
      rw [hd, Option.mem_some_iff] at hr'
      subst hr'
      right
      change r.base.version < (retainReorgMismatch w.db.recovery input).base.version
      rw [hver r hr]
      omega

variable {expected : ReorgRecoveryState} {u : Unit} {head rollbackFrom : Nat}
  {next : Option ReorgResync}

theorem RecoveryInv.expected_current (h : RecoveryInv batchSize w)
    (hread : expected ∈ w.reads) (hcur : w.db.recovery = some current)
    (hsame : SameVersion current expected) : SameButRetry expected current :=
  (h.read_rows expected hread current hcur hsame.recoveryId.symm).2 hsame.version.symm

theorem RecoveryInv.refreshCheckpoint
    (h : RecoveryInv batchSize w) {checkpoint : ChainSyncCheckpoint}
    {recoveryId : String} {now : Nat} (hread : expected ∈ w.reads)
    (hfresh : recoveryId ∉ w.usedIds)
    (hret : Tx.Returns (Artgod.Indexer.refreshCheckpoint expected checkpoint recoveryId now) w.db u
      d) :
    RecoveryInv batchSize { w with db := d, usedIds := recoveryId :: w.usedIds } ∧
      VersionStep w.db.recovery d.recovery := by
  obtain ⟨current, next, hcur, hsame, -, hnext, -, hd⟩ := refreshCheckpoint_effect hret
  have hexp := h.expected_current hread hcur hsame
  have hdrec : d.recovery = some (.awaitingAncestor next) := by rw [hd]
  set input : ReorgMismatch := ⟨checkpoint, recoveryId, expected.base.checkedBlock,
    expected.base.storedHash, expected.base.observedHash, now⟩
  rcases retainReorgMismatch_cases (some expected) input with ⟨s, hs, heq⟩ | ⟨hid, hver, hkeep⟩
  · rw [Option.some.injEq] at hs
    rw [heq] at hnext
    subst hs hnext
    have hback : SameButRetry current (.awaitingAncestor next) := hexp.symm
    refine ⟨(h.defer hcur hback hdrec).useId _, ?_⟩
    intro r hr r' hr'
    rw [hcur, Option.mem_some_iff] at hr
    rw [hdrec, Option.mem_some_iff] at hr'
    subst hr hr'
    exact Or.inl hback
  · rw [← hnext] at hid hver hkeep
    refine ⟨?_, ?_⟩
    · have hnew := h.retain hdrec (by rw [hid]; exact hfresh) (fun n hn => ?_)
      · rw [hid] at hnew
        exact hnew
      · refine hkeep n ?_
        rw [hcur] at hn
        have hback : SameButRetry current expected := hexp.symm
        exact hback.retained hn
    · intro r hr r' hr'
      rw [hcur, Option.mem_some_iff] at hr
      rw [hdrec, Option.mem_some_iff] at hr'
      subst hr hr'
      right
      change current.base.version < next.base.version
      rw [hver expected rfl, hsame.version]
      omega

/-! ## 4. Rollbacks -/

/-- **The planned resync begins at the lower of the rollback and the interrupted resync and ends at
the captured head**; there is none only when the head is below that. -/
theorem beginReorgResync_ok {recovery : AwaitingReorgAncestor} {retryAt : Nat}
    (hbatch : 1 ≤ batchSize)
    (h : beginReorgResync recovery rollbackFrom head batchSize retryAt = .ok next) :
    ∃ lower, lower ≤ rollbackFrom ∧ (∀ r ∈ recovery.resumeFrom, lower ≤ r) ∧
      (next = none → head < lower) ∧
      ∀ s ∈ next, s.fromBlock = lower ∧ lower ≤ s.toBlock ∧ s.toBlock < lower + batchSize ∧
        s.toBlock ≤ head ∧ s.targetBlock = head ∧
        s.base.recoveryId = recovery.base.recoveryId ∧
        s.base.version = recovery.base.version + 1 := by
  simp only [beginReorgResync] at h
  set lower := min rollbackFrom (recovery.resumeFrom.getD rollbackFrom) with hlower
  have hresume : ∀ r ∈ recovery.resumeFrom, lower ≤ r := by
    intro r hr
    rw [Option.mem_def.mp hr, Option.getD_some] at hlower
    omega
  refine ⟨lower, Nat.min_le_left _ _, hresume, ?_⟩
  split at h
  · exact absurd h (by simp)
  split at h
  · next hlt =>
    rw [Except.ok.injEq] at h
    subst h
    exact ⟨fun _ => hlt, by simp⟩
  · next hge =>
    rw [Except.ok.injEq] at h
    subst h
    refine ⟨by simp, ?_⟩
    intro s hs
    rw [Option.mem_some_iff] at hs
    subst hs
    simp only
    exact ⟨trivial, by omega, by omega, Nat.min_le_left _ _, trivial, trivial, trivial⟩

theorem rollback_owes (h : RecoveryInv batchSize w)
    {expected : AwaitingReorgAncestor} {lower : Nat}
    (hcur : w.db.recovery = some current)
    (hexp : SameButRetry (.awaitingAncestor expected) current) (hlower : lower ≤ rollbackFrom)
    (hresume : ∀ r ∈ expected.resumeFrom, lower ≤ r) {p : Nat × Nat}
    (hp : p ∈ w.deleted.map (fun p => (p.1, min p.2 head)) ++
      (storedFrom w.db rollbackFrom).map (fun n => (n, head))) :
    p.2 ≤ head ∧ (p.1 ≤ p.2 → lower ≤ p.1) := by
  rcases List.mem_append.mp hp with hold | hnew
  · obtain ⟨q, hq, rfl⟩ := List.mem_map.mp hold
    refine ⟨Nat.min_le_right _ _, fun hle => ?_⟩
    simp only at hle ⊢
    have howed := h.owed q hq (by omega)
    rw [hcur] at howed
    have hback : SameButRetry current (.awaitingAncestor expected) := hexp.symm
    obtain ⟨r, hr, hrq⟩ := hback.retained howed
    exact Nat.le_trans (hresume r hr) hrq
  · obtain ⟨n, hn, rfl⟩ := List.mem_map.mp hnew
    refine ⟨Nat.le_refl _, fun _ => ?_⟩
    have := (List.mem_filter.mp hn).2
    simp only [decide_eq_true_eq] at this ⊢
    omega

theorem RecoveryInv.rollback (hbatch : 1 ≤ batchSize)
    (h : RecoveryInv batchSize w) {attempt : RollbackAttempt}
    (hread : .awaitingAncestor attempt.expected ∈ w.reads)
    (hnext : beginReorgResync attempt.expected attempt.plan.fromBlock attempt.head batchSize
      attempt.retryAt = .ok next)
    (hret : Tx.Returns (commitRollbackAndResync ⟨attempt.expected, attempt.proof, attempt.plan,
      attempt.snapshot, next⟩) w.db u d) :
    RecoveryInv batchSize
        { w with
          db := d
          deleted := w.deleted.map (fun p => (p.1, min p.2 attempt.head)) ++
            (storedFrom w.db attempt.plan.fromBlock).map (fun n => (n, attempt.head))
          head := attempt.head
          handed := next.toList.map (fun s => (s.fromBlock, s.toBlock)) } ∧
      VersionStep w.db.recovery d.recovery := by
  have heff := commitRollbackAndResync_effect hret
  obtain ⟨current, hcur, hsame⟩ := heff.current
  have hexp := h.expected_current hread hcur hsame
  have hd : d.recovery = next.map .resync := heff.recovery
  obtain ⟨lower, hlower, hresume, hnone, hsome⟩ := beginReorgResync_ok hbatch hnext
  have howes : ∀ {p : Nat × Nat},
      p ∈ w.deleted.map (fun p => (p.1, min p.2 attempt.head)) ++
        (storedFrom w.db attempt.plan.fromBlock).map (fun n => (n, attempt.head)) →
      p.2 ≤ attempt.head ∧ (p.1 ≤ p.2 → lower ≤ p.1) :=
    fun hp => rollback_owes h hcur hexp hlower hresume hp
  obtain ⟨hcid, hcver⟩ := hexp.base
  cases next with
  | none =>
    rw [Option.map_none] at hd
    refine ⟨⟨?_, ?_, ⟨List.isChain_nil, by simp, ?_, by simp⟩, ?_, h.read_ids, ?_⟩, ?_⟩
    · -- nothing that exists at the captured head was deleted
      intro p hp hle
      obtain ⟨h₁, h₂⟩ := howes hp
      have := hnone rfl
      have := h₂ hle
      omega
    all_goals
      simp [hd, VersionStep]
  | some s =>
    obtain ⟨hfrom, hto, hsize, hhead, htarget, hid, hver⟩ := hsome s rfl
    rw [Option.map_some] at hd
    refine ⟨⟨?_, ?_, ⟨List.isChain_singleton _, ?_, ?_, ?_⟩, ?_, h.read_ids, ?_⟩, ?_⟩
    · intro p hp hle
      change RetainedFrom d.recovery p.1
      rw [hd, RetainedFrom, hfrom]
      exact (howes hp).2 hle
    · intro s' hs' p hp
      change d.recovery = some (.resync s') at hs'
      rw [hd, Option.some.injEq, ReorgRecoveryState.resync.injEq] at hs'
      rw [← hs', htarget]
      exact (howes hp).1
    · intro r hr
      simp only [Option.toList_some, List.map_cons, List.map_nil, List.mem_singleton] at hr
      subst hr
      simp only [hfrom]
      exact ⟨hto, hsize, hhead⟩
    · intro s' hs'
      change d.recovery = some (.resync s') at hs'
      rw [hd, Option.some.injEq, ReorgRecoveryState.resync.injEq] at hs'
      subst hs'
      exact ⟨rfl, htarget⟩
    · intro hno
      change d.recovery = none at hno
      rw [hd] at hno
      exact absurd hno (by simp)
    · intro r hr
      change r ∈ d.recovery at hr
      rw [hd, Option.mem_some_iff] at hr
      subst hr
      change s.base.recoveryId ∈ w.usedIds
      rw [hid]
      exact h.read_ids _ hread
    · intro r hr x hx hrid
      change x ∈ d.recovery at hx
      rw [hd, Option.mem_some_iff] at hx
      subst hx
      change r.base.recoveryId = s.base.recoveryId at hrid
      change r.base.version ≤ s.base.version ∧ (r.base.version = s.base.version → _)
      have hle := (h.read_rows r hr current hcur (by rw [hcid, hrid, hid]; rfl)).1
      change current.base.version = attempt.expected.base.version at hcver
      exact ⟨by omega, fun heq => by omega⟩
    · intro r hr r' hr'
      rw [hcur, Option.mem_some_iff] at hr
      rw [hd, Option.mem_some_iff] at hr'
      subst hr hr'
      change current.base.version = attempt.expected.base.version at hcver
      right
      change current.base.version < s.base.version
      omega

/-! ## 5. Commits -/

/-- **The next range follows the committed one**, and there is none only at the target. -/
theorem advanceReorgResync_cases {current : ReorgResync} {batchSize retryAt : Nat}
    (hbatch : 1 ≤ batchSize) :
    (advanceReorgResync current batchSize retryAt = none ∧ current.targetBlock ≤ current.toBlock) ∨
      ∃ s, advanceReorgResync current batchSize retryAt = some s ∧
        s.fromBlock = current.toBlock + 1 ∧ s.fromBlock ≤ s.toBlock ∧
        s.toBlock < s.fromBlock + batchSize ∧ s.toBlock ≤ current.targetBlock ∧
        s.targetBlock = current.targetBlock ∧ s.base.recoveryId = current.base.recoveryId ∧
        s.base.version = current.base.version + 1 := by
  simp only [advanceReorgResync]
  split
  · exact Or.inl ⟨rfl, by omega⟩
  · exact Or.inr ⟨_, rfl, rfl, by simp only; omega, by simp only; omega, Nat.min_le_left _ _, rfl,
      rfl, rfl⟩

theorem RecoveryInv.committed (h : RecoveryInv batchSize w)
    {deleted : List (Nat × Nat)} (hd : d.recovery = w.db.recovery)
    (hsub : ∀ p ∈ deleted, p ∈ w.deleted) :
    RecoveryInv batchSize { w with db := d, deleted := deleted } where
  owed p hp hle := by
    change RetainedFrom d.recovery p.1
    rw [hd]
    exact h.owed p (hsub p hp) hle
  below_target s hs p hp := h.below_target s (hd ▸ hs) p (hsub p hp)
  ranges := ⟨h.ranges.contiguous, h.ranges.bounded, fun s hs => h.ranges.current s (hd ▸ hs),
    fun hno => h.ranges.finished (hd ▸ hno)⟩
  current_id r hr := h.current_id r (hd ▸ hr)
  read_ids := h.read_ids
  read_rows r hr x hx := h.read_rows r hr x (hd ▸ hx)

theorem RecoveryInv.commit {batchSize : Nat} {w : RecoveryWorld} (hbatch : 1 ≤ batchSize)
    (h : RecoveryInv batchSize w) {input : SyncRangeCommit} {d : Db} {u : Unit}
    (hsize : input.completion.usesBatchSize batchSize = true)
    (hret : Tx.Returns (commitSyncRange input) w.db u d) :
    RecoveryInv batchSize
        { w with
          db := d
          deleted := w.deleted.filter (fun p => input.result.blocks.all (·.number ≠ p.1))
          handed := handedOut input.completion d.recovery ++ w.handed } ∧
      VersionStep w.db.recovery d.recovery := by
  have hsub : ∀ p ∈ w.deleted.filter (fun p => input.result.blocks.all (·.number ≠ p.1)),
      p ∈ w.deleted := fun p hp => (List.mem_filter.mp hp).1
  have heff := commitSyncRange_effect hret
  cases hc : input.completion with
  | unmanaged =>
    have hd : d.recovery = w.db.recovery := by
      rcases heff.recovery with hd | ⟨range, size, retryAt, current, hcc, -⟩
      · exact hd
      · rw [hc] at hcc
        exact absurd hcc (by simp)
    refine ⟨?_, by rw [hd]; exact .refl _⟩
    rw [show handedOut .unmanaged d.recovery = [] from rfl, List.nil_append]
    exact h.committed hd hsub
  | gapRepair batch retryAt =>
    have hd : d.recovery = w.db.recovery := by
      rcases heff.recovery with hd | ⟨range, size, retryAt, current, hcc, -⟩
      · exact hd
      · rw [hc] at hcc
        exact absurd hcc (by simp)
    refine ⟨?_, by rw [hd]; exact .refl _⟩
    rw [show handedOut (.gapRepair batch retryAt) d.recovery = [] from rfl, List.nil_append]
    exact h.committed hd hsub
  | reorgResync range size retryAt =>
    obtain ⟨db₁, outbox, hpersist, hcomplete⟩ := heff
    rw [CompletionEffect.eq_def, hc] at hcomplete
    obtain ⟨hcover, -, current, hrec, hrange, -, hd⟩ := hcomplete
    have hcur : w.db.recovery = some (.resync current) := by
      rw [← hrec, hpersist.rest]
    rw [hc, SyncWorkCompletion.usesBatchSize, decide_eq_true_eq] at hsize
    rw [hsize] at hd
    subst hrange
    -- what is still owed lies above the range that was committed
    have habove : ∀ p ∈ w.deleted.filter (fun p => input.result.blocks.all (·.number ≠ p.1)),
        p.1 ≤ p.2 → current.toBlock < p.1 ∧ p.1 ≤ current.targetBlock := by
      intro p hp hle
      obtain ⟨hp, hne⟩ := List.mem_filter.mp hp
      have hfrom := h.owed p hp hle
      rw [hcur] at hfrom
      change current.fromBlock ≤ p.1 at hfrom
      refine ⟨Nat.lt_of_not_le (fun hto => ?_),
        Nat.le_trans hle (h.below_target current hcur p hp)⟩
      obtain ⟨b, hb, hbn⟩ := (hcover p.1).mpr ⟨hfrom, hto⟩
      have := List.all_eq_true.mp hne b hb
      simp only [ne_eq, decide_eq_true_eq] at this
      exact this hbn
    obtain ⟨hhanded, htarget⟩ := h.ranges.current current hcur
    have hbounds := h.ranges.bounded (current.fromBlock, current.toBlock)
      (List.mem_of_mem_head? hhanded)
    rcases @advanceReorgResync_cases current batchSize retryAt hbatch with
      ⟨hadv, hend⟩ | ⟨s, hadv, hfrom, hto, hlen, hle, htgt, hid, hver⟩
    · have hdrec : d.recovery = none := by rw [hd, hadv]; rfl
      rw [show handedOut (.reorgResync current.range size retryAt) d.recovery = [] by
        rw [hdrec]; rfl, List.nil_append]
      refine ⟨⟨?_, ?_, ⟨h.ranges.contiguous, h.ranges.bounded, ?_, ?_⟩, ?_, h.read_ids, ?_⟩, ?_⟩
      · intro p hp hple
        have := habove p hp hple
        omega
      · intro s hs
        change d.recovery = some (.resync s) at hs
        rw [hdrec] at hs
        exact absurd hs (by simp)
      · intro s hs
        change d.recovery = some (.resync s) at hs
        rw [hdrec] at hs
        exact absurd hs (by simp)
      · intro _ r hr
        rw [hhanded, Option.mem_some_iff] at hr
        subst hr
        simp only
        omega
      all_goals
        simp [hdrec, VersionStep]
    · have hdrec : d.recovery = some (.resync s) := by rw [hd, hadv]; rfl
      rw [show handedOut (.reorgResync current.range size retryAt) d.recovery =
        [(s.fromBlock, s.toBlock)] by rw [hdrec]; rfl, List.singleton_append]
      refine ⟨⟨?_, ?_, ⟨?_, ?_, ?_, ?_⟩, ?_, h.read_ids, ?_⟩, ?_⟩
      · intro p hp hple
        change RetainedFrom d.recovery p.1
        rw [hdrec, RetainedFrom, hfrom]
        exact (habove p hp hple).1
      · intro s' hs' p hp
        change d.recovery = some (.resync s') at hs'
        rw [hdrec, Option.some.injEq, ReorgRecoveryState.resync.injEq] at hs'
        rw [← hs', htgt]
        exact h.below_target current hcur p (hsub p hp)
      · refine List.isChain_cons.mpr ⟨?_, h.ranges.contiguous⟩
        intro y hy
        rw [hhanded, Option.mem_some_iff] at hy
        subst hy
        exact hfrom
      · intro r hr
        rcases List.mem_cons.mp hr with rfl | hr
        · exact ⟨hto, hlen, by simp only; omega⟩
        · exact h.ranges.bounded r hr
      · intro s' hs'
        change d.recovery = some (.resync s') at hs'
        rw [hdrec, Option.some.injEq, ReorgRecoveryState.resync.injEq] at hs'
        subst hs'
        exact ⟨rfl, htgt.trans htarget⟩
      · intro hno
        change d.recovery = none at hno
        rw [hdrec] at hno
        exact absurd hno (by simp)
      · intro r hr
        change r ∈ d.recovery at hr
        rw [hdrec, Option.mem_some_iff] at hr
        subst hr
        change s.base.recoveryId ∈ w.usedIds
        rw [hid]
        exact h.current_id _ hcur
      · intro r hr x hx hrid
        change x ∈ d.recovery at hx
        rw [hdrec, Option.mem_some_iff] at hx
        subst hx
        change r.base.recoveryId = s.base.recoveryId at hrid
        change r.base.version ≤ s.base.version ∧ (r.base.version = s.base.version → _)
        have hle' := (h.read_rows r hr _ hcur (by rw [hrid, hid]; rfl)).1
        change r.base.version ≤ current.base.version at hle'
        exact ⟨by omega, fun heq => by omega⟩
      · intro r hr r' hr'
        rw [hcur, Option.mem_some_iff] at hr
        rw [hdrec, Option.mem_some_iff] at hr'
        subst hr hr'
        right
        change current.base.version < s.base.version
        omega

/-! ## 6. Every run -/

theorem recoveryInv_initial (batchSize : Nat) (db : Db) : RecoveryInv batchSize (.initial db) where
  owed p hp := absurd hp (by simp [RecoveryWorld.initial])
  below_target s hs := absurd hs (by simp [RecoveryWorld.initial])
  ranges :=
    { contiguous := List.isChain_nil
      bounded := by simp [RecoveryWorld.initial]
      current := by simp [RecoveryWorld.initial]
      finished := by simp [RecoveryWorld.initial] }
  current_id r hr := absurd hr (by simp [RecoveryWorld.initial])
  read_ids r hr := absurd hr (by simp [RecoveryWorld.initial])
  read_rows r hr := absurd hr (by simp [RecoveryWorld.initial])

theorem deferProof_cases (expected : AwaitingReorgAncestor) (retryAt : Nat) (db : Db) :
    deferProof expected retryAt db = db ∨ ∃ current next, db.recovery = some current ∧
      SameButRetry current next ∧ (deferProof expected retryAt db).recovery = some next := by
  rw [deferProof.eq_def]
  split
  · next s hs =>
    split
    · exact Or.inr ⟨_, (ReorgRecoveryState.awaitingAncestor s).withRetryAt retryAt, hs, rfl, rfl⟩
    · exact Or.inl rfl
  · exact Or.inl rfl

theorem deferResync_cases (range : ReorgResyncRange) (retryAt : Nat) (db : Db) :
    deferResync range retryAt db = db ∨ ∃ current next, db.recovery = some current ∧
      SameButRetry current next ∧ (deferResync range retryAt db).recovery = some next := by
  rw [deferResync]
  split
  · next s hs =>
    exact Or.inr ⟨_, (ReorgRecoveryState.resync s).withRetryAt retryAt,
      (currentReorgRange_eq_some hs).1, rfl, rfl⟩
  · exact Or.inl rfl

theorem RecoveryInv.deferred (h : RecoveryInv batchSize w)
    (hd : d = w.db ∨ ∃ current next, w.db.recovery = some current ∧
      SameButRetry current next ∧ d.recovery = some next) :
    RecoveryInv batchSize { w with db := d } ∧ VersionStep w.db.recovery d.recovery := by
  rcases hd with rfl | ⟨current, next, hcur, hsame, hnext⟩
  · exact ⟨h, .refl _⟩
  refine ⟨h.defer hcur hsame hnext, ?_⟩
  intro r hr r' hr'
  rw [hcur, Option.mem_some_iff] at hr
  rw [hnext, Option.mem_some_iff] at hr'
  subst hr hr'
  exact Or.inl hsame

theorem RecoveryInv.step (hbatch : 1 ≤ batchSize)
    (h : RecoveryInv batchSize w) (e : RecoveryEvent) :
    RecoveryInv batchSize (resyncStep batchSize w e) ∧
      VersionStep w.db.recovery (resyncStep batchSize w e).db.recovery := by
  have hstay : RecoveryInv batchSize w ∧ VersionStep w.db.recovery w.db.recovery := ⟨h, .refl _⟩
  cases e with
  | read =>
    refine ⟨⟨h.owed, h.below_target, ⟨h.ranges.contiguous, h.ranges.bounded, h.ranges.current,
      h.ranges.finished⟩, h.current_id, ?_, ?_⟩, .refl _⟩
    · intro r hr
      rcases List.mem_append.mp hr with hnew | hold
      · exact h.current_id r (Option.mem_toList.mp hnew)
      · exact h.read_ids r hold
    · intro r hr x hx hid
      rcases List.mem_append.mp hr with hnew | hold
      · obtain rfl : r = x := Option.some.inj ((Option.mem_toList.mp hnew).symm.trans hx)
        exact ⟨Nat.le_refl _, fun _ => .refl r⟩
      · exact h.read_rows r hold x hx hid
  | commit input =>
    simp only [resyncStep]
    split
    · next hsize =>
      rcases hrun : (commitSyncRange input).exec w.db with ⟨r, d⟩
      cases r with
      | ok u => exact h.commit hbatch hsize hrun
      | error err => exact hstay
    · exact hstay
  | retainMismatch input =>
    simp only [resyncStep]
    split
    · exact hstay
    next hfresh =>
    rcases hrun : (Artgod.Indexer.retainMismatch input).exec w.db with ⟨r, d⟩
    cases r with
    | ok s => exact h.retainMismatch hfresh hrun
    | error err => exact hstay
  | refreshCheckpoint expected checkpoint recoveryId now =>
    simp only [resyncStep]
    split
    · next hread =>
      rcases hrun : (Artgod.Indexer.refreshCheckpoint expected checkpoint recoveryId now).exec w.db
        with ⟨r, d⟩
      cases r with
      | ok u => exact h.refreshCheckpoint hread.1 hread.2 hrun
      | error err => exact hstay
    · exact hstay
  | rollback attempt =>
    simp only [resyncStep]
    split
    · next hread =>
      cases hnext : beginReorgResync attempt.expected attempt.plan.fromBlock attempt.head batchSize
          attempt.retryAt with
      | error err => exact hstay
      | ok next =>
        simp only
        rcases hrun : (commitRollbackAndResync ⟨attempt.expected, attempt.proof, attempt.plan,
          attempt.snapshot, next⟩).exec w.db with ⟨r, d⟩
        cases r with
        | ok u => exact h.rollback hbatch hread hnext hrun
        | error err => exact hstay
    · exact hstay
  | deferProof expected retryAt => exact h.deferred (deferProof_cases expected retryAt w.db)
  | deferResync range retryAt => exact h.deferred (deferResync_cases range retryAt w.db)
  | other d =>
    simp only [resyncStep]
    split
    · next hd => exact ⟨h.committed hd.1 (fun p hp => hp), by rw [hd.1]; exact .refl _⟩
    · exact hstay

theorem resyncStep_rollback (batchSize : Nat) (w : RecoveryWorld) (attempt : RollbackAttempt) :
    resyncStep batchSize w (.rollback attempt) = w ∨
      ∃ next, .awaitingAncestor attempt.expected ∈ w.reads ∧
        Tx.Returns (commitRollbackAndResync ⟨attempt.expected, attempt.proof, attempt.plan,
          attempt.snapshot, next⟩) w.db () (resyncStep batchSize w (.rollback attempt)).db := by
  simp only [resyncStep]
  split
  · next hread =>
    cases beginReorgResync attempt.expected attempt.plan.fromBlock attempt.head batchSize
        attempt.retryAt with
    | error err => exact Or.inl rfl
    | ok next =>
      simp only
      rcases hrun : (commitRollbackAndResync ⟨attempt.expected, attempt.proof, attempt.plan,
        attempt.snapshot, next⟩).exec w.db with ⟨r, d⟩
      cases r with
      | ok u => exact Or.inr ⟨next, hread, hrun⟩
      | error err => exact Or.inl rfl
  · exact Or.inl rfl

theorem resyncStep_refreshCheckpoint (batchSize : Nat) (w : RecoveryWorld)
    (expected : ReorgRecoveryState) (checkpoint : ChainSyncCheckpoint) (recoveryId : String)
    (now : Nat) :
    resyncStep batchSize w (.refreshCheckpoint expected checkpoint recoveryId now) = w ∨
      (expected ∈ w.reads ∧
        Tx.Returns (refreshCheckpoint expected checkpoint recoveryId now) w.db ()
          (resyncStep batchSize w (.refreshCheckpoint expected checkpoint recoveryId now)).db) := by
  simp only [resyncStep]
  split
  · next hread =>
    rcases hrun : (refreshCheckpoint expected checkpoint recoveryId now).exec w.db with ⟨r, d⟩
    cases r with
    | ok u => exact Or.inr ⟨hread.1, hrun⟩
    | error err => exact Or.inl rfl
  · exact Or.inl rfl

theorem RecoveryInv.run {batchSize : Nat} (hbatch : 1 ≤ batchSize) :
    ∀ {events : List RecoveryEvent} {w : RecoveryWorld}, RecoveryInv batchSize w →
      RecoveryInv batchSize (resyncRun batchSize w events)
  | [], _, h => h
  | e :: rest, w, h => by
    have hnext : RecoveryInv batchSize (resyncRun batchSize (resyncStep batchSize w e) rest) :=
      RecoveryInv.run hbatch (h.step hbatch e).1
    exact hnext

/-- **A resync loses no deleted block.**  In every reachable state the journal reaches down to every
height that a rollback deleted, that was not committed again and that no head captured by that
rollback or a later one excludes; so without a journal row there is none.  The ranges handed out
since the latest rollback are contiguous, not empty and at most a batch long, and end at its head.
The next event keeps the row up to its retry time or raises its version. -/
theorem resync_retains_deleted {batchSize : Nat} (hbatch : 1 ≤ batchSize) (db : Db)
    (events : List RecoveryEvent) :
    (∀ p ∈ (resyncRun batchSize (.initial db) events).deleted, p.1 ≤ p.2 →
      RetainedFrom (resyncRun batchSize (.initial db) events).db.recovery p.1) ∧
    ((resyncRun batchSize (.initial db) events).db.recovery = none →
      ∀ p ∈ (resyncRun batchSize (.initial db) events).deleted, p.2 < p.1) ∧
    HandedOut batchSize (resyncRun batchSize (.initial db) events) ∧
    ∀ e, VersionStep (resyncRun batchSize (.initial db) events).db.recovery
      (resyncStep batchSize (resyncRun batchSize (.initial db) events) e).db.recovery := by
  have h : RecoveryInv batchSize (resyncRun batchSize (.initial db) events) :=
    RecoveryInv.run hbatch (recoveryInv_initial batchSize db)
  refine ⟨h.owed, ?_, h.ranges, fun e => (h.step hbatch e).2⟩
  intro hnone p hp
  by_contra hle
  have howed := h.owed p hp (by omega)
  rw [hnone] at howed
  exact howed

/-- A range of headers with nothing in it, acquired at a revision. -/
def emptyRange (revision : Nat) (blocks : List SyncBlockHeader)
    (completion : SyncWorkCompletion) : SyncRangeCommit where
  result :=
    { checkpoint := ⟨revision⟩
      canonicalCheck := ⟨8, 64⟩
      blocks := blocks
      data := .empty
      collections := [] }
  followUps := []
  completion := completion

/-- Blocks 1 to 5 are stored; block 2 was replaced on the chain, and the provider that proves it
lags at head 2.  Its rollback deletes blocks 2 to 5 and resyncs block 2 alone.  Blocks 6 and 7
follow, block 7 is replaced, and this rollback captures head 8. -/
def laggingRollbacks : List RecoveryEvent :=
  [.commit (emptyRange 0 [⟨1, 10, 0, 0⟩, ⟨2, 20, 10, 0⟩, ⟨3, 30, 20, 0⟩, ⟨4, 40, 30, 0⟩,
      ⟨5, 50, 40, 0⟩] .unmanaged),
    .retainMismatch ⟨⟨0⟩, "a", 2, 20, 21, 0⟩,
    .read,
    .rollback
      { expected := ⟨⟨"a", 0, 0, 2, 20, 21, 0⟩, none⟩
        proof := ⟨⟨1, 10, 0, 0⟩, ⟨⟨0⟩, 1, 2, [⟨1, 10, 0, 0⟩, ⟨2, 20, 10, 0⟩]⟩⟩
        plan := ⟨⟨0⟩, 2, []⟩
        snapshot := ⟨⟨1, 10, 0, 0⟩, []⟩
        head := 2
        retryAt := 0 },
    .commit (emptyRange 1 [⟨2, 21, 10, 0⟩] (.reorgResync ⟨"a", 1, 2, 2⟩ 10 0)),
    .commit (emptyRange 1 [⟨6, 60, 51, 0⟩, ⟨7, 70, 60, 0⟩] .unmanaged),
    .retainMismatch ⟨⟨1⟩, "b", 7, 70, 71, 0⟩,
    .read,
    .rollback
      { expected := ⟨⟨"b", 1, 0, 7, 70, 71, 0⟩, none⟩
        proof := ⟨⟨6, 60, 51, 0⟩, ⟨⟨1⟩, 6, 7, [⟨6, 60, 51, 0⟩, ⟨7, 70, 60, 0⟩]⟩⟩
        plan := ⟨⟨1⟩, 7, []⟩
        snapshot := ⟨⟨6, 60, 51, 0⟩, []⟩
        head := 8
        retryAt := 0 }]

/-- Blocks 3 to 5 were deleted and never committed again; the latest head is 8, and the retained
resync begins at block 7. -/
theorem lagging_head_drops_heights :
    ¬ ∀ p ∈ (resyncRun 10 (.initial (Db.fresh .empty)) laggingRollbacks).deleted,
      p.1 ≤ (resyncRun 10 (.initial (Db.fresh .empty)) laggingRollbacks).head →
        RetainedFrom (resyncRun 10 (.initial (Db.fresh .empty)) laggingRollbacks).db.recovery p.1 := by
  obtain ⟨w, hw⟩ : ∃ w, w = resyncRun 10 (.initial (Db.fresh .empty)) laggingRollbacks := ⟨_, rfl⟩
  rw [← hw]
  have hdeleted : w.deleted = [(3, 2), (4, 2), (5, 2), (7, 8)] := by
    rw [hw]
    decide +kernel
  have hhead : w.head = 8 := by
    rw [hw]
    decide +kernel
  have hrecovery : w.db.recovery = some (.resync ⟨⟨"b", 2, 1, 7, 70, 71, 0⟩, 7, 8, 8⟩) := by
    rw [hw]
    decide +kernel
  intro h
  have hlost := h (3, 2) (by rw [hdeleted]; decide) (by rw [hhead]; decide)
  rw [hrecovery] at hlost
  change 7 ≤ 3 at hlost
  omega

theorem resync_retains_deleted_lagging :
    (7, 8) ∈ (resyncRun 10 (.initial (Db.fresh .empty)) laggingRollbacks).deleted ∧
      RetainedFrom (resyncRun 10 (.initial (Db.fresh .empty)) laggingRollbacks).db.recovery 7 := by
  have hmem : (7, 8) ∈ (resyncRun 10 (.initial (Db.fresh .empty)) laggingRollbacks).deleted := by
    decide +kernel
  have hretained : ∀ p ∈ (resyncRun 10 (.initial (Db.fresh .empty)) laggingRollbacks).deleted, p.1 ≤ p.2 →
      RetainedFrom (resyncRun 10 (.initial (Db.fresh .empty)) laggingRollbacks).db.recovery p.1 :=
    (resync_retains_deleted (by decide) (Db.fresh .empty) laggingRollbacks).1
  -- the run itself is not looked at again
  revert hretained hmem
  generalize resyncRun 10 (.initial (Db.fresh .empty)) laggingRollbacks = w
  intro hmem hretained
  exact ⟨hmem, hretained (7, 8) hmem (by decide)⟩

end Artgod.Indexer
