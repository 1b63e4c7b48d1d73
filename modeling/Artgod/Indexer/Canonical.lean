/-
# Delayed canonical checks

A block committed above the eligible bound is stored with a pending check, which is consumed by a fresh read
that agrees or by a mismatch retained in the recovery journal.  The run extends `resyncStep` by the checks.
Two ghosts remember commits above the bound: `above` has every height mentioned, `immature` those whose header
was inserted; a header that is stored already keeps its check columns.
-/
import Artgod.Indexer.Resync

namespace Artgod.Indexer

open Store

/-! ## 1. Checks in a run -/

/-- A check that `nextDue` handed out, and the head it was eligible at. -/
structure EligibleRead where
  check : PendingCanonicalCheck
  head : Nat
deriving DecidableEq

/-- `nextDue`, for a head read before it: the pending row within the bound that is due first. -/
def nextDue (db : Db) (now upperBound : Nat) : Option PendingCanonicalCheck :=
  let due := db.blocks.select (fun r =>
    r.canonicalCheckPending && r.canonicalCheckRetryAt ≤ now && r.number ≤ upperBound)
  (due.insertionSort (fun a b => toLex (a.canonicalCheckRetryAt, a.number) ≤
      toLex (b.canonicalCheckRetryAt, b.number))).head?.map
    (fun r => ⟨r.number, r.hash, captureSyncCheckpoint db⟩)

structure CanonicalWorld where
  journal : RecoveryWorld
  reads : List EligibleRead
  verified : List EligibleRead
  absorbed : List Nat
  immature : List Nat
  above : List Nat

/-- Nothing is stored that needs a check. -/
def CanonicalWorld.initial (db : Db) : CanonicalWorld where
  journal := .initial db
  reads := []
  verified := []
  absorbed := []
  immature := []
  above := []

abbrev CanonicalWorld.db (w : CanonicalWorld) : Db := w.journal.db

inductive CanonicalEvent where
  | commit (input : SyncRangeCommit)
  | checkDue (head now : Nat)
  | checkEqual (read : EligibleRead)
  | checkMismatch (read : EligibleRead) (observedHash : Hash) (recoveryId : String) (now : Nat)
  | retainCheck (check : PendingCanonicalCheck)
  | deferCheck (check : PendingCanonicalCheck) (retryAt : Nat)
  | readRecovery
  | refreshCheckpoint (expected : ReorgRecoveryState) (checkpoint : ChainSyncCheckpoint)
      (recoveryId : String) (now : Nat)
  | rollback (attempt : RollbackAttempt)
  | deferProof (expected : AwaitingReorgAncestor) (retryAt : Nat)
  | deferResync (range : ReorgResyncRange) (retryAt : Nat)
  | other (db : Db)

/-- The headers of a range that are above the bound of its policy. -/
def immatureHeights (result : SyncRangeResult) : List Nat :=
  (result.blocks.map (·.number)).filter (needsDelayedCanonicalCheck · result.canonicalCheck)

/-- The row at a height was inserted: it was not there before. -/
def insertedHeights (before after : Db) (heights : List Nat) : List Nat :=
  heights.filter (fun n => (before.blocks.get? n).isNone && (after.blocks.get? n).isSome)

/-- The journal's own step, for an event that is one of its own. -/
def CanonicalWorld.onJournal (batchSize : Nat) (w : CanonicalWorld) (e : RecoveryEvent) :
    CanonicalWorld :=
  { w with journal := resyncStep batchSize w.journal e }

/-- One event.  Checks are compared only after `checkDue` handed them out. -/
def canonicalStep (batchSize reorgDepth : Nat) (w : CanonicalWorld) : CanonicalEvent → CanonicalWorld
  | .commit input =>
    if input.completion.usesBatchSize batchSize then
      match (commitSyncRange input).exec w.db with
      | (.ok _, d) =>
        { w.onJournal batchSize (.commit input) with
          above := immatureHeights input.result ++ w.above
          immature := insertedHeights w.db d (immatureHeights input.result) ++ w.immature }
      | (.error _, _) => w
    else w
  | .checkDue head now =>
    match nextDue w.db now (canonicalCheckUpperBound head reorgDepth) with
    | some check => { w with reads := ⟨check, head⟩ :: w.reads }
    | none => w
  | .checkEqual read =>
    -- the fresh read returned the stored hash
    if read ∈ w.reads then
      match (completeCheck read.check).exec w.db with
      | (.ok _, d) =>
        { w with journal := { w.journal with db := d }, verified := read :: w.verified }
      | (.error _, _) => w
    else w
  | .checkMismatch read observedHash recoveryId now =>
    if read ∈ w.reads ∧ recoveryId ∉ w.journal.usedIds then
      let input : ReorgMismatch := ⟨read.check.checkpoint, recoveryId, read.check.blockNumber,
        read.check.blockHash, observedHash, now⟩
      match (retainMismatch input).exec w.db with
      | (.ok _, _) =>
        { w.onJournal batchSize (.retainMismatch input) with
          absorbed := read.check.blockNumber :: w.absorbed }
      | (.error _, _) => w
    else w
  | .retainCheck check =>
    { w with journal := { w.journal with db := ((Artgod.Indexer.retainCheck check).exec w.db).2 } }
  | .deferCheck check retryAt =>
    { w with
      journal := { w.journal with
        db := ((Artgod.Indexer.deferCheck check retryAt).exec w.db).2 } }
  | .readRecovery => w.onJournal batchSize .read
  | .refreshCheckpoint expected checkpoint recoveryId now =>
    w.onJournal batchSize (.refreshCheckpoint expected checkpoint recoveryId now)
  | .rollback attempt =>
    let w' := w.onJournal batchSize (.rollback attempt)
    if w'.db.revision = w.db.revision then w
    else
      { w' with
        absorbed := []
        immature := w.immature.filter (fun n => n < attempt.plan.fromBlock)
        above := w.above.filter (fun n => n < attempt.plan.fromBlock)
        verified := w.verified.filter (fun v => v.check.blockNumber < attempt.plan.fromBlock) }
  | .deferProof expected retryAt => w.onJournal batchSize (.deferProof expected retryAt)
  | .deferResync range retryAt => w.onJournal batchSize (.deferResync range retryAt)
  | .other d =>
    if d.recovery = w.db.recovery ∧ d.blocks = w.db.blocks ∧ d.revision = w.db.revision then
      w.onJournal batchSize (.other d)
    else w

def canonicalRun (batchSize reorgDepth : Nat) (w : CanonicalWorld) (events : List CanonicalEvent) :
    CanonicalWorld :=
  events.foldl (canonicalStep batchSize reorgDepth) w

/-- The stored block at height `n` has its check pending, or a fresh read made when it was within
the bound agreed with it, or the journal awaits an ancestor below it. -/
def Accounted (reorgDepth : Nat) (w : CanonicalWorld) (n : Nat) : Prop :=
  ∀ row, w.db.blocks.get? n = some row →
    row.canonicalCheckPending = true ∨
    (∃ v ∈ w.verified, v.check.blockNumber = n ∧ v.check.blockHash = row.hash ∧
      n ≤ canonicalCheckUpperBound v.head reorgDepth) ∨
    ∃ s, w.db.recovery = some (.awaitingAncestor s) ∧ s.base.checkedBlock ≤ n

/-- The journal awaits an ancestor at or below height `n`. -/
def Awaits (recovery : Option ReorgRecoveryState) (n : Nat) : Prop :=
  ∃ s, recovery = some (.awaitingAncestor s) ∧ s.base.checkedBlock ≤ n

/-- The invariant of a run. -/
structure CanonicalInv (batchSize reorgDepth : Nat) (w : CanonicalWorld) : Prop where
  journal : RecoveryInv batchSize w.journal
  revision : ∀ r ∈ w.db.recovery, r.base.revision = w.db.revision
  stored : ∀ n ∈ w.immature, (w.db.blocks.get? n).isSome = true
  accounted : ∀ n ∈ w.immature, Accounted reorgDepth w n
  absorbed : ∀ m ∈ w.absorbed, Awaits w.db.recovery m
  reads : ∀ r ∈ w.reads, r.check.blockNumber ≤ canonicalCheckUpperBound r.head reorgDepth

/-! ## 2. The journal keeps awaiting -/

variable {n : Nat}

theorem retainReorgMismatch_awaits {current : Option ReorgRecoveryState} {input : ReorgMismatch}
    (hrev : ∀ r ∈ current, r.base.revision = input.checkpoint.revision)
    (h : Awaits current n) :
    Awaits (some (.awaitingAncestor (retainReorgMismatch current input))) n := by
  obtain ⟨s, rfl, hle⟩ := h
  have hsame : s.base.revision = input.checkpoint.revision := hrev _ rfl
  by_cases hc : s.base.checkedBlock ≤ input.checkedBlock
  · exact ⟨_, by simp only [retainReorgMismatch, hsame, hc, and_self, if_true], hle⟩
  have hno : ¬ (s.base.revision = input.checkpoint.revision ∧
      s.base.checkedBlock ≤ input.checkedBlock) := fun hand => hc hand.2
  refine ⟨_, rfl, ?_⟩
  rw [show retainReorgMismatch (some (.awaitingAncestor s)) input = _ from if_neg hno]
  change input.checkedBlock ≤ n
  omega

theorem retainReorgMismatch_awaits_checked (current : Option ReorgRecoveryState)
    (input : ReorgMismatch) :
    Awaits (some (.awaitingAncestor (retainReorgMismatch current input))) input.checkedBlock := by
  refine ⟨_, rfl, ?_⟩
  cases current with
  | none => exact Nat.le_refl _
  | some c =>
    cases c with
    | resync s => exact Nat.le_refl _
    | awaitingAncestor s =>
      by_cases hc : s.base.revision = input.checkpoint.revision ∧
          s.base.checkedBlock ≤ input.checkedBlock
      · rw [show retainReorgMismatch (some (.awaitingAncestor s)) input = s from if_pos hc]
        exact hc.2
      · rw [show retainReorgMismatch (some (.awaitingAncestor s)) input = _ from if_neg hc]

theorem retainReorgMismatch_revision (current : Option ReorgRecoveryState) (input : ReorgMismatch) :
    (retainReorgMismatch current input).base.revision = input.checkpoint.revision := by
  cases current with
  | none => rfl
  | some c =>
    cases c with
    | resync s => rfl
    | awaitingAncestor s =>
      by_cases hc : s.base.revision = input.checkpoint.revision ∧
          s.base.checkedBlock ≤ input.checkedBlock
      · rw [show retainReorgMismatch (some (.awaitingAncestor s)) input = s from if_pos hc]
        exact hc.1
      · rw [show retainReorgMismatch (some (.awaitingAncestor s)) input = _ from if_neg hc]

theorem Awaits.sameButRetry {a b : ReorgRecoveryState} (h : SameButRetry a b)
    (hn : Awaits (some a) n) : Awaits (some b) n := by
  obtain ⟨s, hs, hle⟩ := hn
  rw [Option.some.injEq] at hs
  subst hs
  obtain ⟨s', rfl, -, -, -, hchecked⟩ := h.awaiting
  exact ⟨s', rfl, by omega⟩

/-! ## 3. Rows of the check columns -/

/-- What a row of the new database owes to the same row before: its hash and its pending check. -/
def KeepsRow (before after : Db) (n : Nat) : Prop :=
  ∀ row', after.blocks.get? n = some row' → ∃ row, before.blocks.get? n = some row ∧
    row.hash = row'.hash ∧ row.canonicalCheckPending = row'.canonicalCheckPending

/-- An event that keeps the row, the reads that agreed and the awaited ancestor keeps the block
accounted for. -/
theorem Accounted.keep {reorgDepth : Nat} {w w' : CanonicalWorld}
    (h : Accounted reorgDepth w n) (hrow : KeepsRow w.db w'.db n)
    (hverified : ∀ v ∈ w.verified, v.check.blockNumber = n → v ∈ w'.verified)
    (hawait : Awaits w.db.recovery n → Awaits w'.db.recovery n) : Accounted reorgDepth w' n := by
  intro row' hrow'
  obtain ⟨row, hget, hhash, hpending⟩ := hrow row' hrow'
  rcases h row hget with hp | ⟨v, hv, hvn, hvh, hbound⟩ | hs
  · exact Or.inl (hpending ▸ hp)
  · exact Or.inr (Or.inl ⟨v, hverified v hv hvn, hvn, hvh.trans hhash, hbound⟩)
  · exact Or.inr (Or.inr (hawait hs))

theorem keepsRow_refl {before after : Db} (h : after.blocks = before.blocks) (n : Nat) :
    KeepsRow before after n := by
  intro row' hrow'
  rw [h] at hrow'
  exact ⟨row', hrow', rfl, rfl⟩

theorem PersistEffect.keepsRow {result : SyncRangeResult} {db db' : Db}
    (h : PersistEffect result db db') (hn : (db.blocks.get? n).isSome = true) :
    KeepsRow db db' n := by
  intro row' hrow'
  obtain ⟨row, hrow⟩ := Option.isSome_iff_exists.mp hn
  rw [h.blocks] at hrow'
  refine ⟨row, hrow, ?_, ?_⟩
  · rcases persistBlocks_header _ hrow' with ⟨b, hb, rfl, hhash⟩ | ⟨-, hold⟩
    · rw [hhash]
      exact h.no_conflict b hb row.hash (by rw [getBlockHash, hrow]; rfl)
    · rw [hrow, Option.some.injEq] at hold
      rw [hold]
  · have := (persistBlocks_check _ hrow').1
    rw [hrow, Option.elim_some] at this
    exact this.symm

/-! ## 4. One event -/

section Steps

variable {batchSize reorgDepth : Nat} {w : CanonicalWorld}

variable {n : Nat} {d db' : Db}

theorem CanonicalInv.setBlocks (h : CanonicalInv batchSize reorgDepth w)
    (hrec : d.recovery = w.db.recovery) (hrev : d.revision = w.db.revision)
    (hsome : ∀ n, (w.db.blocks.get? n).isSome = true → (d.blocks.get? n).isSome = true)
    (hrow : ∀ n row', d.blocks.get? n = some row' → row'.canonicalCheckPending = true ∨
      ∃ row, w.db.blocks.get? n = some row ∧ row.hash = row'.hash ∧
        row.canonicalCheckPending = row'.canonicalCheckPending) :
    CanonicalInv batchSize reorgDepth { w with journal := { w.journal with db := d } } where
  journal := h.journal.committed hrec (fun p hp => hp)
  revision r hr := by
    change r ∈ d.recovery at hr
    change r.base.revision = d.revision
    rw [hrev]
    exact h.revision r (hrec ▸ hr)
  stored n hn := hsome n (h.stored n hn)
  accounted n hn row' hrow' := by
    rcases hrow n row' hrow' with hp | ⟨row, hget, hhash, hpending⟩
    · exact Or.inl hp
    rcases h.accounted n hn row hget with hp | ⟨v, hv, hvn, hvh, hbound⟩ | hs
    · exact Or.inl (hpending ▸ hp)
    · exact Or.inr (Or.inl ⟨v, hv, hvn, hvh.trans hhash, hbound⟩)
    right; right
    change ∃ s, d.recovery = _ ∧ _
    rw [hrec]
    exact hs
  absorbed m hm := by
    change Awaits d.recovery m
    rw [hrec]
    exact h.absorbed m hm
  reads := h.reads

variable {p : BlockRow → Bool} {f : BlockRow → BlockRow} {e : RecoveryEvent}
  {plan : ReorgRollbackPlan} {snapshot : Erc721RollbackSnapshot}

theorem get?_updateChecks {db : Db}
    {hf : ∀ r, (f r).number = r.number} {row' : BlockRow}
    (h : (db.blocks.updateWhere p f hf).get? n = some row') :
    ∃ row, db.blocks.get? n = some row ∧ row' = if p row then f row else row := by
  rw [Table.get?_updateWhere, Option.map_eq_some_iff] at h
  obtain ⟨row, hrow, heq⟩ := h
  exact ⟨row, hrow, heq.symm⟩

theorem isSome_updateChecks {db : Db}
    {hf : ∀ r, (f r).number = r.number} :
    ((db.blocks.updateWhere p f hf).get? n).isSome = (db.blocks.get? n).isSome := by
  rw [Table.get?_updateWhere, Option.isSome_map]

theorem CanonicalInv.retainCheck (h : CanonicalInv batchSize reorgDepth w)
    (check : PendingCanonicalCheck) :
    CanonicalInv batchSize reorgDepth
      (canonicalStep batchSize reorgDepth w (.retainCheck check)) := by
  rcases hrun : (Artgod.Indexer.retainCheck check).exec w.db with ⟨r, d⟩
  rw [canonicalStep, hrun]
  cases r with
  | error err =>
    obtain rfl : d = w.db := Tx.atomic_writeTransaction _ _ _ _ hrun
    exact h
  | ok b =>
    have hret : Tx.Returns (Artgod.Indexer.retainCheck check) w.db b d := hrun
    simp only [Artgod.Indexer.retainCheck, Tx.returns_writeTransaction, Tx.returns_bind,
      returns_assertSyncCheckpoint, Tx.returns_get, Tx.returns_set, Tx.returns_pure] at hret
    obtain ⟨_, _, ⟨-, rfl⟩, _, _, ⟨rfl, rfl⟩, _, _, rfl, -, rfl⟩ := hret
    refine h.setBlocks rfl rfl (fun n hn => by rw [isSome_updateChecks]; exact hn) ?_
    intro n row' hrow'
    dsimp only at hrow'
    obtain ⟨row, hrow, rfl⟩ := get?_updateChecks hrow'
    split
    · exact Or.inl rfl
    · exact Or.inr ⟨row, hrow, rfl, rfl⟩

theorem CanonicalInv.deferCheck (h : CanonicalInv batchSize reorgDepth w)
    (check : PendingCanonicalCheck) (retryAt : Nat) :
    CanonicalInv batchSize reorgDepth
      (canonicalStep batchSize reorgDepth w (.deferCheck check retryAt)) := by
  rcases hrun : (Artgod.Indexer.deferCheck check retryAt).exec w.db with ⟨r, d⟩
  rw [canonicalStep, hrun]
  cases r with
  | error err =>
    obtain rfl : d = w.db := Tx.atomic_writeTransaction _ _ _ _ hrun
    exact h
  | ok u =>
    have hret : Tx.Returns (Artgod.Indexer.deferCheck check retryAt) w.db u d := hrun
    simp only [Artgod.Indexer.deferCheck, Tx.returns_writeTransaction, Tx.returns_bind,
      returns_assertSyncCheckpoint, Tx.returns_modify] at hret
    obtain ⟨_, _, ⟨-, rfl⟩, rfl⟩ := hret
    refine h.setBlocks rfl rfl (fun n hn => by rw [isSome_updateChecks]; exact hn) ?_
    intro n row' hrow'
    dsimp only at hrow'
    obtain ⟨row, hrow, rfl⟩ := get?_updateChecks hrow'
    right
    refine ⟨row, hrow, ?_⟩
    split <;> exact ⟨rfl, rfl⟩

theorem CanonicalInv.checkDue (h : CanonicalInv batchSize reorgDepth w) (head now : Nat) :
    CanonicalInv batchSize reorgDepth
      (canonicalStep batchSize reorgDepth w (.checkDue head now)) := by
  simp only [canonicalStep]
  cases hdue : nextDue w.db now (canonicalCheckUpperBound head reorgDepth) with
  | none => exact h
  | some check =>
    refine ⟨h.journal, h.revision, h.stored, h.accounted, h.absorbed, ?_⟩
    intro r hr
    rcases List.mem_cons.mp hr with rfl | hr
    · -- `nextDue` selects within the bound
      simp only [nextDue, Option.map_eq_some_iff] at hdue
      obtain ⟨row, hrow, rfl⟩ := hdue
      have hmem := (List.perm_insertionSort _ _).mem_iff.mp (List.mem_of_mem_head? hrow)
      obtain ⟨-, hsel⟩ := Table.mem_select.mp hmem
      simp only [Bool.and_eq_true, decide_eq_true_eq] at hsel
      exact hsel.2
    · exact h.reads r hr

theorem CanonicalInv.checkEqual (h : CanonicalInv batchSize reorgDepth w) (read : EligibleRead) :
    CanonicalInv batchSize reorgDepth
      (canonicalStep batchSize reorgDepth w (.checkEqual read)) := by
  simp only [canonicalStep]
  split
  · next hread =>
    rcases hrun : (completeCheck read.check).exec w.db with ⟨r, d⟩
    cases r with
    | error err => exact h
    | ok b =>
      obtain ⟨-, hd, -⟩ := completeCheck_effect hrun
      refine ⟨h.journal.committed (by rw [hd]) (fun p hp => hp), ?_, ?_, ?_, ?_, h.reads⟩
      · intro r hr
        rw [hd] at hr ⊢
        exact h.revision r hr
      · intro n hn
        change (d.blocks.get? n).isSome = true
        rw [hd, isSome_updateChecks]
        exact h.stored n hn
      · intro n hn row' hrow'
        change d.blocks.get? n = some row' at hrow'
        rw [hd] at hrow'
        dsimp only at hrow'
        obtain ⟨row, hrow, rfl⟩ := get?_updateChecks hrow'
        by_cases hdesc : (read.check.describes row && row.canonicalCheckPending) = true
        · right; left
          rw [if_pos hdesc]
          simp only [PendingCanonicalCheck.describes, Bool.and_eq_true, decide_eq_true_eq] at hdesc
          have hnum : row.number = n := (Table.get?_eq_some.mp hrow).2
          have hcheck : read.check.blockNumber = n := by rw [← hnum, hdesc.1.1]
          refine ⟨read, List.mem_cons_self, hcheck, hdesc.1.2.symm, ?_⟩
          rw [← hcheck]
          exact h.reads read hread
        · rw [if_neg hdesc]
          rcases h.accounted n hn row hrow with hp | ⟨v, hv, hrest⟩ | hs
          · exact Or.inl hp
          · exact Or.inr (Or.inl ⟨v, List.mem_cons_of_mem _ hv, hrest⟩)
          right; right
          change ∃ s, d.recovery = _ ∧ _
          rw [hd]
          exact hs
      · intro m hm
        change Awaits d.recovery m
        rw [hd]
        exact h.absorbed m hm
  · exact h

/-- A retained mismatch consumes the check of the row it describes, and the journal then awaits an
ancestor below it. -/
theorem CanonicalInv.checkMismatch (h : CanonicalInv batchSize reorgDepth w) (read : EligibleRead)
    (observedHash : Hash) (recoveryId : String) (now : Nat) :
    CanonicalInv batchSize reorgDepth (canonicalStep batchSize reorgDepth w
      (.checkMismatch read observedHash recoveryId now)) := by
  simp only [canonicalStep]
  split
  swap
  · exact h
  next hread =>
  set input : ReorgMismatch := ⟨read.check.checkpoint, recoveryId, read.check.blockNumber,
    read.check.blockHash, observedHash, now⟩ with hinput
  rcases hrun : (retainMismatch input).exec w.db with ⟨r, d⟩
  cases r with
  | error err => exact h
  | ok s =>
    have heff : RetainEffect input w.db d := retainMismatch_effect hrun
    have hstep : resyncStep batchSize w.journal (.retainMismatch input) =
        { w.journal with db := d, usedIds := recoveryId :: w.journal.usedIds } := by
      simp only [resyncStep]
      rw [if_neg hread.2, hrun]
    have hrev : ∀ r ∈ w.db.recovery, r.base.revision = input.checkpoint.revision := by
      intro r hr
      rw [h.revision r hr, heff.revision_current]
    have hawait : ∀ n, Awaits w.db.recovery n → Awaits d.recovery n := by
      intro n hn
      rw [heff.recovery]
      exact retainReorgMismatch_awaits hrev hn
    have hdrev : d.revision = w.db.revision := by rw [heff.rest]
    simp only [CanonicalWorld.onJournal, hstep]
    refine ⟨(h.journal.retainMismatch hread.2 hrun).1, ?_, ?_, ?_, ?_, h.reads⟩
    · intro r hr
      change r ∈ d.recovery at hr
      change r.base.revision = d.revision
      rw [heff.recovery, Option.mem_some_iff] at hr
      subst hr
      rw [hdrev, heff.revision_current]
      exact retainReorgMismatch_revision _ _
    · intro n hn
      change (d.blocks.get? n).isSome = true
      rw [heff.rest, isSome_updateChecks]
      exact h.stored n hn
    · intro n hn row' hrow'
      change d.blocks.get? n = some row' at hrow'
      rw [heff.rest] at hrow'
      dsimp only at hrow'
      obtain ⟨row, hrow, rfl⟩ := get?_updateChecks hrow'
      by_cases hdesc : (decide (row.number = input.checkedBlock) &&
          decide (row.hash = input.storedHash) && row.canonicalCheckPending) = true
      · right; right
        simp only [Bool.and_eq_true, decide_eq_true_eq] at hdesc
        have hnum : n = input.checkedBlock := by
          rw [← (Table.get?_eq_some.mp hrow).2, hdesc.1.1]
        change Awaits d.recovery n
        rw [heff.recovery, hnum]
        exact retainReorgMismatch_awaits_checked _ _
      · rw [if_neg hdesc]
        rcases h.accounted n hn row hrow with hp | hv | hs
        · exact Or.inl hp
        · exact Or.inr (Or.inl hv)
        · exact Or.inr (Or.inr (hawait n hs))
    · intro m hm
      change Awaits d.recovery m
      rcases List.mem_cons.mp hm with rfl | hm
      · rw [heff.recovery]
        exact retainReorgMismatch_awaits_checked _ input
      · exact hawait m (h.absorbed m hm)

theorem CommitEffect.journal {input : SyncRangeCommit} {db : Db}
    (h : CommitEffect input db db') :
    db'.revision = db.revision ∧ (∀ n, Awaits db.recovery n → Awaits db'.recovery n) ∧
      ((∀ r ∈ db.recovery, r.base.revision = db.revision) →
        ∀ r ∈ db'.recovery, r.base.revision = db'.revision) := by
  have hrev : db'.revision = db.revision := by
    obtain ⟨db₁, outbox, scans, recovery, hpersist, rfl⟩ := h.persisted
    rw [hpersist.rest]
  refine ⟨hrev, ?_, ?_⟩
  · rcases h.recovery with hsame | ⟨range, size, retryAt, current, -, -, -, hcur, -⟩
    · rw [hsame]
      exact fun n hn => hn
    · rintro n ⟨s, hs, -⟩
      rw [hcur] at hs
      exact absurd hs (by simp)
  · intro hall r hr
    rw [hrev]
    rcases h.recovery with hsame | ⟨range, size, retryAt, current, -, -, -, hcur, -, -, hnext⟩
    · exact hall r (hsame ▸ hr)
    rw [hnext] at hr
    obtain ⟨s, hs, rfl⟩ := Option.map_eq_some_iff.mp hr
    have hkeep : s.base.revision = current.base.revision := by
      simp only [advanceReorgResync] at hs
      split at hs
      · exact absurd hs (by simp)
      · rw [Option.some.injEq] at hs
        rw [← hs]
    change s.base.revision = db.revision
    rw [hkeep]
    exact hall _ hcur

theorem CanonicalInv.commit (hbatch : 1 ≤ batchSize) (h : CanonicalInv batchSize reorgDepth w)
    (input : SyncRangeCommit) :
    CanonicalInv batchSize reorgDepth (canonicalStep batchSize reorgDepth w (.commit input)) := by
  simp only [canonicalStep]
  split
  swap
  · exact h
  next hsize =>
  rcases hrun : (commitSyncRange input).exec w.db with ⟨r, d⟩
  cases r with
  | error err => exact h
  | ok u =>
    have heff : CommitEffect input w.db d := commitSyncRange_effect hrun
    have hdb : (resyncStep batchSize w.journal (.commit input)).db = d := by
      simp only [resyncStep]
      rw [if_pos hsize, hrun]
    obtain ⟨hrev, hawait, hrevs⟩ := heff.journal
    obtain ⟨db₁, outbox, scans, recovery, hpersist, hd⟩ := heff.persisted
    have hblocks : d.blocks = db₁.blocks := by rw [hd]
    have hkept : ∀ n, (w.db.blocks.get? n).isSome = true → KeepsRow w.db d n := by
      intro n hn row' hrow'
      exact hpersist.keepsRow hn row' (hblocks ▸ hrow')
    have hstored : ∀ n, (w.db.blocks.get? n).isSome = true → (d.blocks.get? n).isSome = true := by
      intro n hn
      rw [hblocks, hpersist.blocks, persistBlocks_isSome]
      exact Or.inl hn
    have hnew : ∀ n ∈ insertedHeights w.db d (immatureHeights input.result),
        n ∈ immatureHeights input.result ∧ w.db.blocks.get? n = none ∧
          (d.blocks.get? n).isSome = true := by
      intro n hn
      obtain ⟨h₁, h₂⟩ := List.mem_filter.mp hn
      simp only [Bool.and_eq_true, Option.isNone_iff_eq_none] at h₂
      exact ⟨h₁, h₂⟩
    refine ⟨(h.journal.step hbatch (.commit input)).1, ?_, ?_, ?_, ?_, h.reads⟩
    · intro r hr
      simp only [CanonicalWorld.onJournal, CanonicalWorld.db, hdb] at hr ⊢
      exact hrevs h.revision r hr
    · intro n hn
      simp only [CanonicalWorld.onJournal, CanonicalWorld.db, hdb]
      rcases List.mem_append.mp hn with hn | hn
      · exact (hnew n hn).2.2
      · exact hstored n (h.stored n hn)
    · intro n hn
      rcases List.mem_append.mp hn with hn | hn
      · -- a header inserted above the bound has its check pending
        intro row' hrow'
        simp only [CanonicalWorld.onJournal, CanonicalWorld.db, hdb] at hrow'
        obtain ⟨himm, hnone, -⟩ := hnew n hn
        left
        rw [hblocks, hpersist.blocks] at hrow'
        have hcheck := (persistBlocks_check _ hrow').1
        rw [hnone, Option.elim_none] at hcheck
        rw [hcheck]
        exact (List.mem_filter.mp himm).2
      · refine (h.accounted n hn).keep ?_ (fun v hv _ => hv) ?_
        · simp only [CanonicalWorld.onJournal, CanonicalWorld.db, hdb]
          exact hkept n (h.stored n hn)
        · simp only [CanonicalWorld.onJournal, CanonicalWorld.db, hdb]
          exact hawait n
    · intro m hm
      simp only [CanonicalWorld.onJournal, CanonicalWorld.db, hdb]
      exact hawait m (h.absorbed m hm)

theorem CanonicalInv.onJournal (hbatch : 1 ≤ batchSize) (h : CanonicalInv batchSize reorgDepth w)
    (hblocks : (resyncStep batchSize w.journal e).db.blocks = w.db.blocks)
    (hrevs : ∀ r ∈ (resyncStep batchSize w.journal e).db.recovery,
      r.base.revision = (resyncStep batchSize w.journal e).db.revision)
    (hawait : ∀ n, Awaits w.db.recovery n →
      Awaits (resyncStep batchSize w.journal e).db.recovery n) :
    CanonicalInv batchSize reorgDepth (w.onJournal batchSize e) where
  journal := (h.journal.step hbatch e).1
  revision := hrevs
  stored n hn := by
    change ((resyncStep batchSize w.journal e).db.blocks.get? n).isSome = true
    rw [hblocks]
    exact h.stored n hn
  accounted n hn := (h.accounted n hn).keep (keepsRow_refl hblocks n) (fun v hv _ => hv) (hawait n)
  absorbed m hm := hawait m (h.absorbed m hm)
  reads := h.reads

theorem CanonicalInv.deferred (hbatch : 1 ≤ batchSize) (h : CanonicalInv batchSize reorgDepth w)
    (hdb : (resyncStep batchSize w.journal e).db = d)
    (hblocks : d.blocks = w.db.blocks) (hrev : d.revision = w.db.revision)
    (hd : d.recovery = w.db.recovery ∨ ∃ current next, w.db.recovery = some current ∧
      SameButRetry current next ∧ d.recovery = some next) :
    CanonicalInv batchSize reorgDepth (w.onJournal batchSize e) := by
  refine h.onJournal hbatch (by rw [hdb]; exact hblocks) ?_ ?_
  · intro r hr
    rw [hdb] at hr ⊢
    rw [hrev]
    rcases hd with hsame | ⟨current, next, hcur, hsame, hnext⟩
    · exact h.revision r (hsame ▸ hr)
    rw [hnext, Option.mem_some_iff] at hr
    subst hr
    rw [hsame.revision]
    exact h.revision current hcur
  · intro n hn
    rw [hdb]
    rcases hd with hsame | ⟨current, next, hcur, hsame, hnext⟩
    · rw [hsame]
      exact hn
    · rw [hcur] at hn
      rw [hnext]
      exact hn.sameButRetry hsame

theorem CanonicalInv.refreshCheckpoint (hbatch : 1 ≤ batchSize)
    (h : CanonicalInv batchSize reorgDepth w) (expected : ReorgRecoveryState)
    (checkpoint : ChainSyncCheckpoint) (recoveryId : String) (now : Nat) :
    CanonicalInv batchSize reorgDepth (canonicalStep batchSize reorgDepth w
      (.refreshCheckpoint expected checkpoint recoveryId now)) := by
  change CanonicalInv batchSize reorgDepth (w.onJournal batchSize _)
  rcases resyncStep_refreshCheckpoint batchSize w.journal expected checkpoint recoveryId now with
    hsame | ⟨hread, hret⟩
  · exact h.deferred hbatch (by rw [hsame]) rfl rfl (Or.inl rfl)
  obtain ⟨current, next, hcur, hversion, hrev, hnext, -, hd⟩ := refreshCheckpoint_effect hret
  have hexp := h.journal.expected_current hread hcur hversion
  refine h.onJournal hbatch (by rw [hd]) ?_ ?_
  · intro r hr
    rw [hd] at hr ⊢
    rw [Option.mem_some_iff] at hr
    subst hr
    change next.base.revision = w.db.revision
    rw [hnext, hrev]
    exact retainReorgMismatch_revision _ _
  · intro n hn
    rw [hd]
    change Awaits (some (.awaitingAncestor next)) n
    rw [hcur] at hn
    -- the row that was read is the current one, and the mismatch it is refreshed with is its own
    have hback : SameButRetry current expected := hexp.symm
    obtain ⟨s, hs, hle⟩ := hn.sameButRetry hback
    rw [Option.some.injEq] at hs
    subst hs
    rw [hnext]
    obtain ⟨s', hs', hle'⟩ := retainReorgMismatch_awaits_checked (some (.awaitingAncestor s))
      ⟨checkpoint, recoveryId, s.base.checkedBlock, s.base.storedHash, s.base.observedHash, now⟩
    exact ⟨s', hs', Nat.le_trans hle' hle⟩

theorem RollbackEffect.keepsRow {db : Db} (h : RollbackEffect plan snapshot db db')
    (hn : (db.blocks.get? n).isSome = true) (hlt : n < plan.fromBlock) :
    KeepsRow db db' n ∧ (db'.blocks.get? n).isSome = true := by
  obtain ⟨row, hrow⟩ := Option.isSome_iff_exists.mp hn
  have hnum : row.number = n := (Table.get?_eq_some.mp hrow).2
  have hkept : (db.blocks.deleteWhere (fun r => plan.fromBlock ≤ r.number)).get? n = some row := by
    rw [Table.get?_deleteWhere, hrow]
    simp [hnum, hlt]
  refine ⟨?_, ?_⟩
  · intro row' hrow'
    rw [h.blocks] at hrow'
    refine ⟨row, hrow, ?_, ?_⟩
    · rcases persistBlocks_header _ hrow' with ⟨b, hb, hbn, hhash⟩ | ⟨-, hold⟩
      · rw [List.mem_singleton] at hb
        subst hb
        rw [hhash]
        exact h.fork_hash row.hash (by rw [Indexer.getBlockHash, hbn, hrow]; rfl)
      · rw [hkept, Option.some.injEq] at hold
        rw [hold]
    · have := (persistBlocks_check _ hrow').1
      rw [hkept, Option.elim_some] at this
      exact this.symm
  · rw [h.blocks, persistBlocks_isSome, hkept]
    exact Or.inl rfl

theorem RollbackEffect.deleted
    {db : Db} (h : RollbackEffect plan snapshot db db') (hle : plan.fromBlock ≤ n) :
    db'.blocks.get? n = none := by
  have hfork := h.fork_number
  rw [h.blocks, ← Option.not_isSome_iff_eq_none, persistBlocks_isSome]
  rintro (hsome | ⟨b, hb, hbn⟩)
  · rw [Table.get?_deleteWhere] at hsome
    cases hrow : db.blocks.get? n with
    | none =>
      rw [hrow] at hsome
      exact absurd hsome (by simp)
    | some row =>
      have hnum : row.number = n := (Table.get?_eq_some.mp hrow).2
      rw [hrow] at hsome
      simp [hnum, hle] at hsome
  · rw [List.mem_singleton] at hb
    subst hb
    omega

/-- **The rollback that ends a recovery deletes every block whose mismatch the recovery absorbed.** -/
theorem CanonicalInv.rollback_deletes (h : CanonicalInv batchSize reorgDepth w)
    {attempt : RollbackAttempt} {next : Option ReorgResync} {u : Unit}
    (hread : .awaitingAncestor attempt.expected ∈ w.journal.reads)
    (hret : Tx.Returns (commitRollbackAndResync ⟨attempt.expected, attempt.proof, attempt.plan,
      attempt.snapshot, next⟩) w.db u d) (hn : Awaits w.db.recovery n) :
    attempt.plan.fromBlock ≤ n ∧ d.blocks.get? n = none := by
  have heff := commitRollbackAndResync_effect hret
  obtain ⟨current, hcur, hversion⟩ := heff.current
  have hexp := h.journal.expected_current hread hcur hversion
  have hback : SameButRetry current (.awaitingAncestor attempt.expected) := hexp.symm
  rw [hcur] at hn
  obtain ⟨s, hs, hle⟩ := hn.sameButRetry hback
  rw [Option.some.injEq, ReorgRecoveryState.awaitingAncestor.injEq] at hs
  subst hs
  have hfrom : attempt.plan.fromBlock ≤ n := Nat.le_trans heff.below_checked hle
  obtain ⟨db₁, hroll, hd⟩ := heff.rolled
  refine ⟨hfrom, ?_⟩
  rw [hd]
  exact hroll.deleted hfrom

theorem CanonicalInv.rollback (hbatch : 1 ≤ batchSize) (h : CanonicalInv batchSize reorgDepth w)
    (attempt : RollbackAttempt) :
    CanonicalInv batchSize reorgDepth (canonicalStep batchSize reorgDepth w (.rollback attempt)) := by
  simp only [canonicalStep]
  split
  · exact h
  next hchanged =>
  rcases resyncStep_rollback batchSize w.journal attempt with hsame | ⟨next, hread, hret⟩
  · exact absurd (by simp only [CanonicalWorld.onJournal, CanonicalWorld.db, hsame]) hchanged
  have heff := commitRollbackAndResync_effect hret
  obtain ⟨current, hcur, hversion⟩ := heff.current
  obtain ⟨db₁, hroll, hd⟩ := heff.rolled
  have hgone : ∀ n, Awaits w.db.recovery n → attempt.plan.fromBlock ≤ n :=
    fun n hn => (h.rollback_deletes hread hret hn).1
  have hrow : ∀ n, (w.db.blocks.get? n).isSome = true → n < attempt.plan.fromBlock →
      KeepsRow w.db (resyncStep batchSize w.journal (.rollback attempt)).db n ∧
        ((resyncStep batchSize w.journal (.rollback attempt)).db.blocks.get? n).isSome = true := by
    intro n hn hlt
    rw [hd]
    exact hroll.keepsRow hn hlt
  refine ⟨(h.journal.step hbatch (.rollback attempt)).1, ?_, ?_, ?_, by simp, h.reads⟩
  · -- the planned resync is of the revision that the rollback began
    intro r hr
    change r ∈ (resyncStep batchSize w.journal (.rollback attempt)).db.recovery at hr
    change r.base.revision = (resyncStep batchSize w.journal (.rollback attempt)).db.revision
    rw [heff.recovery] at hr
    obtain ⟨s, hs, rfl⟩ := Option.map_eq_some_iff.mp hr
    obtain ⟨-, -, hnr, -⟩ := heff.next_same s hs
    change s.base.revision = _
    rw [hd, hnr, hroll.revision]
    have := h.revision current hcur
    rw [hversion.revision] at this
    change attempt.expected.base.revision = w.db.revision at this
    rw [← this]
  · intro n hn
    obtain ⟨hn, hlt⟩ := List.mem_filter.mp hn
    exact (hrow n (h.stored n hn) (by simpa using hlt)).2
  · intro n hn
    obtain ⟨hn, hlt⟩ := List.mem_filter.mp hn
    have hlt : n < attempt.plan.fromBlock := by simpa using hlt
    refine (h.accounted n hn).keep (hrow n (h.stored n hn) hlt).1 ?_ ?_
    · intro v hv hvn
      refine List.mem_filter.mpr ⟨hv, ?_⟩
      rw [hvn]
      simpa using hlt
    · intro hawait
      have := hgone n hawait
      omega

theorem CanonicalInv.step (hbatch : 1 ≤ batchSize) (h : CanonicalInv batchSize reorgDepth w)
    (e : CanonicalEvent) :
    CanonicalInv batchSize reorgDepth (canonicalStep batchSize reorgDepth w e) := by
  cases e with
  | commit input => exact h.commit hbatch input
  | checkDue head now => exact h.checkDue head now
  | checkEqual read => exact h.checkEqual read
  | checkMismatch read observedHash recoveryId now =>
    exact h.checkMismatch read observedHash recoveryId now
  | retainCheck check => exact h.retainCheck check
  | deferCheck check retryAt => exact h.deferCheck check retryAt
  | readRecovery => exact h.deferred hbatch rfl rfl rfl (Or.inl rfl)
  | refreshCheckpoint expected checkpoint recoveryId now =>
    exact h.refreshCheckpoint hbatch expected checkpoint recoveryId now
  | rollback attempt => exact h.rollback hbatch attempt
  | deferProof expected retryAt =>
    have hrest : (deferProof expected retryAt w.db).blocks = w.db.blocks ∧
        (deferProof expected retryAt w.db).revision = w.db.revision := by
      rw [deferProof.eq_def]
      split
      · split <;> exact ⟨rfl, rfl⟩
      · exact ⟨rfl, rfl⟩
    refine h.deferred hbatch rfl hrest.1 hrest.2 ?_
    rcases deferProof_cases expected retryAt w.db with hsame | hnext
    · exact Or.inl (congrArg Db.recovery hsame)
    · exact Or.inr hnext
  | deferResync range retryAt =>
    have hrest : (deferResync range retryAt w.db).blocks = w.db.blocks ∧
        (deferResync range retryAt w.db).revision = w.db.revision := by
      rw [deferResync]
      split <;> exact ⟨rfl, rfl⟩
    refine h.deferred hbatch rfl hrest.1 hrest.2 ?_
    rcases deferResync_cases range retryAt w.db with hsame | hnext
    · exact Or.inl (congrArg Db.recovery hsame)
    · exact Or.inr hnext
  | other d =>
    simp only [canonicalStep]
    split
    · next hd =>
      have hstep : (resyncStep batchSize w.journal (.other d)).db = d := by
        simp only [resyncStep]
        rw [if_pos ⟨hd.1, by rw [hd.2.1]⟩]
      exact h.deferred hbatch hstep hd.2.1 hd.2.2 (Or.inl hd.1)
    · exact h

end Steps

/-! ## 5. Every run -/

theorem canonicalInv_initial (batchSize reorgDepth : Nat) (db : Db) :
    CanonicalInv batchSize reorgDepth (.initial db) where
  journal := recoveryInv_initial batchSize db
  revision r hr := absurd hr (by simp [CanonicalWorld.initial, RecoveryWorld.initial])
  stored n hn := absurd hn (by simp [CanonicalWorld.initial])
  accounted n hn := absurd hn (by simp [CanonicalWorld.initial])
  absorbed m hm := absurd hm (by simp [CanonicalWorld.initial])
  reads r hr := absurd hr (by simp [CanonicalWorld.initial])

theorem CanonicalInv.run {batchSize reorgDepth : Nat} (hbatch : 1 ≤ batchSize) :
    ∀ {events : List CanonicalEvent} {w : CanonicalWorld}, CanonicalInv batchSize reorgDepth w →
      CanonicalInv batchSize reorgDepth (canonicalRun batchSize reorgDepth w events)
  | [], _, h => h
  | e :: rest, w, h => by
    have hnext : CanonicalInv batchSize reorgDepth
        (canonicalRun batchSize reorgDepth (canonicalStep batchSize reorgDepth w e) rest) :=
      CanonicalInv.run hbatch (h.step hbatch e)
    exact hnext

/-- **No immature block escapes verification.**  In every reachable state, every stored block whose
header a commit inserted above its eligible bound has its check pending, or agreed with a fresh
read made when it was within the bound, or lies at or above the block whose ancestor the journal
awaits; and a rollback deletes every block whose mismatch its recovery absorbed. -/
theorem immature_blocks_verified {batchSize : Nat} (hbatch : 1 ≤ batchSize) (reorgDepth : Nat)
    (db : Db) (events : List CanonicalEvent) :
    (∀ n ∈ (canonicalRun batchSize reorgDepth (.initial db) events).immature,
      Accounted reorgDepth (canonicalRun batchSize reorgDepth (.initial db) events) n) ∧
    ∀ attempt,
      (canonicalStep batchSize reorgDepth (canonicalRun batchSize reorgDepth (.initial db) events)
          (.rollback attempt)).db.revision ≠
        (canonicalRun batchSize reorgDepth (.initial db) events).db.revision →
      ∀ m ∈ (canonicalRun batchSize reorgDepth (.initial db) events).absorbed,
        (canonicalStep batchSize reorgDepth (canonicalRun batchSize reorgDepth (.initial db) events)
          (.rollback attempt)).db.blocks.get? m = none := by
  have h : CanonicalInv batchSize reorgDepth
      (canonicalRun batchSize reorgDepth (.initial db) events) :=
    CanonicalInv.run hbatch (canonicalInv_initial batchSize reorgDepth db)
  refine ⟨h.accounted, ?_⟩
  intro attempt hchanged m hm
  set w := canonicalRun batchSize reorgDepth (.initial db) events
  simp only [canonicalStep] at hchanged ⊢
  split at hchanged
  · exact absurd rfl hchanged
  next hrev =>
  rw [if_neg hrev]
  rcases resyncStep_rollback batchSize w.journal attempt with hsame | ⟨next, hread, hret⟩
  · exact absurd (by simp only [CanonicalWorld.onJournal, CanonicalWorld.db, hsame]) hrev
  · exact (h.rollback_deletes hread hret (h.absorbed m hm)).2

/-- Block 5 alone, acquired at an observed head with a reorg depth of 10. -/
def blockFiveAt (observedHead : Nat) : CanonicalEvent :=
  .commit
    { result :=
        { checkpoint := ⟨0⟩
          canonicalCheck := ⟨observedHead, 10⟩
          blocks := [⟨5, 50, 40, 0⟩]
          data := .empty
          collections := [] }
      followUps := []
      completion := .unmanaged }

/-- Block 5 is committed at head 20, when it is within the bound, and again at the lagging head 6,
when it is above it.  The second commit leaves the stored header as it is: no check is pending, no
read was made and nothing is recovered. -/
theorem recommit_keeps_check :
    ¬ ∀ n ∈ (canonicalRun 10 10 (.initial (Db.fresh .empty)) [blockFiveAt 20, blockFiveAt 6]).above,
      Accounted 10 (canonicalRun 10 10 (.initial (Db.fresh .empty)) [blockFiveAt 20, blockFiveAt 6])
        n := by
  obtain ⟨w, hw⟩ : ∃ w, w = canonicalRun 10 10 (.initial (Db.fresh .empty))
    [blockFiveAt 20, blockFiveAt 6] := ⟨_, rfl⟩
  rw [← hw]
  have habove : w.above = [5] := by
    rw [hw]
    decide +kernel
  have hrow : w.db.blocks.get? 5 = some ⟨5, 50, 40, 0, false, 0⟩ := by
    rw [hw]
    decide +kernel
  have hverified : w.verified = [] := by
    rw [hw]
    decide +kernel
  have hrecovery : w.db.recovery = none := by
    rw [hw]
    decide +kernel
  intro h
  rcases h 5 (by rw [habove]; decide) _ hrow with hp | ⟨v, hv, -⟩ | ⟨s, hs, -⟩
  · exact absurd hp (by simp)
  · rw [hverified] at hv
    exact absurd hv (by simp)
  · rw [hrecovery] at hs
    exact absurd hs (by simp)

theorem immature_blocks_verified_blockFive :
    (canonicalRun 10 10 (.initial (Db.fresh .empty)) [blockFiveAt 6]).immature = [5] ∧
      ∀ n ∈ (canonicalRun 10 10 (.initial (Db.fresh .empty)) [blockFiveAt 6]).immature,
        Accounted 10 (canonicalRun 10 10 (.initial (Db.fresh .empty)) [blockFiveAt 6]) n :=
  ⟨by decide +kernel,
    (immature_blocks_verified (by decide) 10 (Db.fresh .empty) [blockFiveAt 6]).1⟩

end Artgod.Indexer
