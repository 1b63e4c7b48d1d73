/-
# Chain facts and their headers

Acquisitions read the chain outside any transaction and commit later, in any order, around mismatches and
rollbacks.  `SyncStep` is one event of such a run, and `FactsMatchHeaders` the invariant: whatever names a block
names it by the stored hash.
-/
import Artgod.Indexer.Commit

namespace Artgod.Indexer

open Store

/-! ## 1. Facts -/

/-- Some persisted fact names block `number` by `hash`. -/
inductive Db.Attributes (db : Db) : Nat → Hash → Prop
  | transaction {r : TransactionRow} : r ∈ db.transactions →
      db.Attributes r.record.blockNumber r.record.blockHash
  | transfer {r : TransferRow} : r ∈ db.transfers →
      db.Attributes r.event.blockNumber r.event.blockHash
  | fillExecution {r : FillExecutionRow} : r ∈ db.fillExecutions →
      db.Attributes r.blockNumber r.blockHash
  | fill {r : FillRow} : r ∈ db.fills → db.Attributes r.blockNumber r.blockHash
  | extensionEvent {r : ExtensionEventRow} : r ∈ db.extensionEvents →
      db.Attributes r.event.blockNumber r.event.blockHash
  | extensionEventMedia {r : EventMediaRow} : r ∈ db.eventMedia →
      db.Attributes r.media.blockNumber r.media.blockHash

/-- **Every persisted fact carries the stored hash of its block.** -/
def FactsMatchHeaders (db : Db) : Prop :=
  ∀ number hash, db.Attributes number hash → getBlockHash db number = some hash

/-- Every fill belongs to an execution in the same block, so deleting executions from a height
deletes the fills from that height. -/
def FillsHaveExecutions (db : Db) : Prop :=
  ∀ r ∈ db.fills, HasExecution db.fillExecutions r.executionId r.blockNumber r.blockHash

/-- What holds in every reachable database. -/
structure FactsInv (db : Db) : Prop where
  headers : FactsMatchHeaders db
  executions : FillsHaveExecutions db

/-- The two databases have the same headers and the same facts. -/
structure SameFacts (db db' : Db) : Prop where
  revision : db'.revision = db.revision
  blocks : ∀ n, getBlockHash db' n = getBlockHash db n
  transactions : db'.transactions = db.transactions
  transfers : db'.transfers = db.transfers
  fillExecutions : db'.fillExecutions = db.fillExecutions
  fills : db'.fills = db.fills
  extensionEvents : db'.extensionEvents = db.extensionEvents
  eventMedia : db'.eventMedia = db.eventMedia

theorem SameFacts.refl (db : Db) : SameFacts db db := ⟨rfl, fun _ => rfl, rfl, rfl, rfl, rfl, rfl, rfl⟩

variable {db db' : Db} {n : Nat} {hash : Hash} {result : SyncRangeResult} {plan : ReorgRollbackPlan}
  {snapshot : Erc721RollbackSnapshot} {e : SyncEvent}

theorem SameFacts.attributes (h : SameFacts db db')
    (ha : db'.Attributes n hash) : db.Attributes n hash := by
  cases ha with
  | transaction hr => exact .transaction (h.transactions ▸ hr)
  | transfer hr => exact .transfer (h.transfers ▸ hr)
  | fillExecution hr => exact .fillExecution (h.fillExecutions ▸ hr)
  | fill hr => exact .fill (h.fills ▸ hr)
  | extensionEvent hr => exact .extensionEvent (h.extensionEvents ▸ hr)
  | extensionEventMedia hr => exact .extensionEventMedia (h.eventMedia ▸ hr)

theorem SameFacts.inv (h : SameFacts db db') (hi : FactsInv db) : FactsInv db' where
  headers n hash ha := by
    rw [h.blocks]
    exact hi.headers n hash (h.attributes ha)
  executions r hr := by
    rw [h.fillExecutions]
    exact hi.executions r (h.fills ▸ hr)

/-! ## 2. A commit -/

variable {policy : Option CanonicalCheckPolicy} {headers : List SyncBlockHeader} {w : SyncWorld}

theorem getBlockHash_persistBlocks (hno : NoHashConflict db headers) (h : getBlockHash db n = some hash) :
    ((persistBlocks policy headers db.blocks).get? n).map (·.hash) = some hash := by
  have hsome : ((persistBlocks policy headers db.blocks).get? n).isSome = true := by
    rw [persistBlocks_isSome]
    left
    rw [getBlockHash, Option.map_eq_some_iff] at h
    obtain ⟨r, hr, -⟩ := h
    rw [hr]
    rfl
  obtain ⟨row, hrow⟩ := Option.isSome_iff_exists.mp hsome
  rw [hrow, Option.map_some, Option.some.injEq]
  rcases persistBlocks_header headers hrow with ⟨b, hb, rfl, hhash⟩ | ⟨-, hold⟩
  · rw [hhash]
    exact (hno b hb hash h).symm
  · rw [getBlockHash, hold, Option.map_some, Option.some.injEq] at h
    exact h

theorem getBlockHash_of_header {blocks : Table BlockRow.number}
    (hagree : HeadersAgree headers) {b : SyncBlockHeader} (hb : b ∈ headers) :
    ((persistBlocks policy headers blocks).get? b.number).map (·.hash) = some b.hash := by
  have hsome : ((persistBlocks policy headers blocks).get? b.number).isSome = true := by
    rw [persistBlocks_isSome]
    exact Or.inr ⟨b, hb, rfl⟩
  obtain ⟨row, hrow⟩ := Option.isSome_iff_exists.mp hsome
  rw [hrow, Option.map_some, Option.some.injEq]
  rcases persistBlocks_header headers hrow with ⟨c, hc, hnum, hhash⟩ | ⟨hne, -⟩
  · rw [hhash, hagree c hc b hb hnum]
  · exact absurd rfl (hne b hb)

theorem PersistEffect.attributes (h : PersistEffect result db db') (ha : db'.Attributes n hash) :
    db.Attributes n hash ∨ FactMatches result.blocks ⟨n, hash⟩ := by
  cases ha with
  | transaction hr =>
    obtain ⟨inserted, hins⟩ := h.transactions
    rcases (insertFacts_mem hins).2 _ hr with hold | ⟨a, -, ha, ts, rfl⟩
    · exact Or.inl (.transaction hold)
    · exact Or.inr (h.matched.transaction ha)
  | transfer hr =>
    obtain ⟨inserted, hins, -⟩ := h.transfers
    rcases (insertFacts_mem hins).2 _ hr with hold | ⟨a, -, ha, ts, rfl⟩
    · exact Or.inl (.transfer hold)
    · exact Or.inr (h.matched.transfer ha)
  | fillExecution hr =>
    rcases h.fills.executions_new _ hr with hold | ⟨e, he, hn, hh⟩
    · exact Or.inl (.fillExecution hold)
    · rw [← hn, ← hh]
      exact Or.inr (h.matched.fill he)
  | fill hr =>
    rcases h.fills.fills_new _ hr with hold | ⟨-, e, he, hn, hh⟩
    · exact Or.inl (.fill hold)
    · rw [← hn, ← hh]
      exact Or.inr (h.matched.fill he)
  | extensionEvent hr =>
    obtain ⟨inserted, hins⟩ := h.extensionEvents
    rcases (insertFacts_mem hins).2 _ hr with hold | ⟨a, -, ha, ts, rfl⟩
    · exact Or.inl (.extensionEvent hold)
    · exact Or.inr (h.matched.extensionEvent ha)
  | extensionEventMedia hr =>
    rcases upsertAllEventMedia_mem h.eventMedia _ hr with hold | ⟨m, hm, hn, hh⟩
    · exact Or.inl (.extensionEventMedia hold)
    · rw [hn, hh]
      exact Or.inr (h.matched.extensionEventMedia hm)

theorem PersistEffect.header_kept (h : PersistEffect result db db')
    (hn : getBlockHash db n = some hash) : getBlockHash db' n = some hash := by
  rw [getBlockHash, h.blocks]
  exact getBlockHash_persistBlocks h.no_conflict hn

theorem PersistEffect.inv (h : PersistEffect result db db') (hi : FactsInv db) : FactsInv db' where
  headers n hash ha := by
    rcases h.attributes ha with hold | ⟨b, hb, rfl, rfl⟩
    · exact h.header_kept (hi.headers n hash hold)
    · rw [getBlockHash, h.blocks]
      exact getBlockHash_of_header h.matched.headers hb
  executions r hr := by
    rcases h.fills.fills_new r hr with hold | ⟨hx, -⟩
    · exact h.fills.hasExecution (hi.executions r hold)
    · exact hx

/-! ## 3. A rollback -/

theorem RollbackEffect.attributes (h : RollbackEffect plan snapshot db db') (hi : FactsInv db)
    (ha : db'.Attributes n hash) : db.Attributes n hash ∧ n < plan.fromBlock := by
  rw [h.facts] at ha
  cases ha with
  | transaction hr =>
    obtain ⟨hr, hlt⟩ := Table.mem_deleteWhere.mp hr
    exact ⟨.transaction hr, by simpa using hlt⟩
  | transfer hr =>
    obtain ⟨hr, hlt⟩ := Table.mem_deleteWhere.mp hr
    exact ⟨.transfer hr, by simpa using hlt⟩
  | fillExecution hr =>
    obtain ⟨hr, hlt⟩ := Table.mem_deleteWhere.mp hr
    exact ⟨.fillExecution hr, by simpa using hlt⟩
  | fill hr =>
    obtain ⟨hr, hlt⟩ := Table.mem_deleteWhere.mp hr
    -- a fill goes with its execution, which is in the same block
    obtain ⟨x, hx, hid, hn, -⟩ := hi.executions _ hr
    rw [← hid, Table.get?_of_mem hx] at hlt
    exact ⟨.fill hr, by simpa [hn] using hlt⟩
  | extensionEvent hr =>
    obtain ⟨hr, hlt⟩ := Table.mem_deleteWhere.mp hr
    exact ⟨.extensionEvent hr, by simpa using hlt⟩
  | extensionEventMedia hr =>
    obtain ⟨hr, hlt⟩ := Table.mem_deleteWhere.mp hr
    exact ⟨.extensionEventMedia hr, by simpa using hlt⟩

theorem RollbackEffect.getBlockHash (h : RollbackEffect plan snapshot db db')
    (hn : getBlockHash db n = some hash) :
    (n < plan.fromBlock → getBlockHash db' n = some hash) ∧
      (plan.fromBlock ≤ n → getBlockHash db' n = none) := by
  have hfork := h.fork_number
  set kept := db.blocks.deleteWhere (fun r => plan.fromBlock ≤ r.number) with hkept
  have hget : kept.get? n = if plan.fromBlock ≤ n then none else db.blocks.get? n := by
    rw [hkept, Table.get?_deleteWhere]
    cases hrow : db.blocks.get? n with
    | none => simp
    | some r =>
      obtain ⟨-, hkey⟩ := Table.get?_eq_some.mp hrow
      by_cases hle : plan.fromBlock ≤ n <;> simp [hkey, hle]
  constructor
  · intro hlt
    have hno : NoHashConflict { db with blocks := kept } [snapshot.block] := by
      intro b hb x hx
      rw [List.mem_singleton] at hb
      subst hb
      refine h.fork_hash x ?_
      rw [Artgod.Indexer.getBlockHash, Table.get?_deleteWhere] at hx
      rw [Artgod.Indexer.getBlockHash]
      cases hrow : db.blocks.get? snapshot.block.number with
      | none => rw [hrow] at hx; exact absurd hx (by simp)
      | some r =>
        rw [hrow] at hx
        simp only [Option.filter] at hx
        split at hx
        · exact hx
        · exact absurd hx (by simp)
    have hstored : Artgod.Indexer.getBlockHash { db with blocks := kept } n = some hash := by
      rw [Artgod.Indexer.getBlockHash, hget, if_neg (by omega)]
      exact hn
    rw [Artgod.Indexer.getBlockHash, h.blocks]
    exact getBlockHash_persistBlocks hno hstored
  · intro hle
    have hnone : (persistBlocks none [snapshot.block] kept).get? n = none := by
      rw [← Option.not_isSome_iff_eq_none, persistBlocks_isSome, hget, if_pos hle]
      simp only [Option.isSome_none, Bool.false_eq_true, List.mem_singleton, exists_eq_left, false_or]
      omega
    rw [Artgod.Indexer.getBlockHash, h.blocks, hnone]
    rfl

theorem RollbackEffect.inv (h : RollbackEffect plan snapshot db db') (hi : FactsInv db) : FactsInv db' where
  headers n hash ha := by
    obtain ⟨hold, hlt⟩ := h.attributes hi ha
    exact (h.getBlockHash (hi.headers n hash hold)).1 hlt
  executions r hr := by
    rw [h.facts] at hr ⊢
    obtain ⟨hr, hkept⟩ := Table.mem_deleteWhere.mp hr
    obtain ⟨x, hx, hid, hn, hh⟩ := hi.executions r hr
    rw [← hid, Table.get?_of_mem hx] at hkept
    exact ⟨x, Table.mem_deleteWhere.mpr ⟨hx, by simpa using hkept⟩, hid, hn, hh⟩

/-! ## 4. Runs -/

/-- One event of a run. -/
inductive SyncEvent where
  | acquire
  | commit (input : SyncRangeCommit)
  | retainMismatch (input : ReorgMismatch)
  | refreshCheckpoint (expected : ReorgRecoveryState) (checkpoint : ChainSyncCheckpoint)
      (recoveryId : String) (now : Nat)
  | rollback (plan : ReorgRollbackPlan) (snapshot : Erc721RollbackSnapshot)
  | rollbackAndResync (input : RollbackCommit)
  | retainCheck (check : PendingCanonicalCheck)
  | completeCheck (check : PendingCanonicalCheck)
  | deferCheck (check : PendingCanonicalCheck) (retryAt : Nat)
  | other (db : Db)

/-- The transaction an event tries. -/
def SyncEvent.program : SyncEvent → StoreM Unit
  | .acquire => pure ()
  | .commit input => commitSyncRange input
  | .retainMismatch input => do let _ ← Artgod.Indexer.retainMismatch input
  | .refreshCheckpoint expected checkpoint recoveryId now =>
    Artgod.Indexer.refreshCheckpoint expected checkpoint recoveryId now
  | .rollback plan snapshot => rollbackFromBlock plan snapshot
  | .rollbackAndResync input => commitRollbackAndResync input
  | .retainCheck check => do let _ ← Artgod.Indexer.retainCheck check
  | .completeCheck check => do let _ ← Artgod.Indexer.completeCheck check
  | .deferCheck check retryAt => Artgod.Indexer.deferCheck check retryAt
  | .other db => set db

/-- The height an event rolls back to, when it is a rollback. -/
def SyncEvent.rollbackFrom : SyncEvent → Option Nat
  | .rollback plan _ => some plan.fromBlock
  | .rollbackAndResync input => some input.plan.fromBlock
  | _ => none

/-- The database and the checkpoints that acquisitions in flight captured. -/
structure SyncWorld where
  db : Db
  acquisitions : List ChainSyncCheckpoint

def SyncWorld.fresh (collections : Table CollectionRecord.id) : SyncWorld := ⟨Db.fresh collections, []⟩

/-- One event: a transaction that throws leaves the database as its own rollback left it.  A commit
carries a checkpoint that some acquisition captured; other code writes no chain facts. -/
inductive SyncStep (w : SyncWorld) : SyncEvent → SyncWorld → Prop
  | acquire : SyncStep w .acquire
      { w with acquisitions := captureSyncCheckpoint w.db :: w.acquisitions }
  | commit {input : SyncRangeCommit} : input.result.checkpoint ∈ w.acquisitions →
      SyncStep w (.commit input) { w with db := ((commitSyncRange input).exec w.db).2 }
  | store {e : SyncEvent} : (∀ input, e ≠ .commit input) → (∀ db, e = .other db → SameFacts w.db db) →
      SyncStep w e { w with db := (e.program.exec w.db).2 }

/-- A run of events. -/
inductive SyncRun (w : SyncWorld) : List SyncEvent → SyncWorld → Prop
  | nil : SyncRun w [] w
  | snoc {events : List SyncEvent} {e : SyncEvent} {w₁ w₂ : SyncWorld} :
      SyncRun w events w₁ → SyncStep w₁ e w₂ → SyncRun w (events ++ [e]) w₂

/-! ## 5. What one event does -/

theorem SyncEvent.atomic (e : SyncEvent) : Tx.Atomic e.program := by
  cases e with
  | acquire => exact Tx.atomic_pure ()
  | commit input => exact commitSyncRange_atomic input
  | retainMismatch input => exact (Tx.atomic_writeTransaction _).map _
  | refreshCheckpoint expected checkpoint recoveryId now => exact Tx.atomic_writeTransaction _
  | rollback plan snapshot => exact Tx.atomic_writeTransaction _
  | rollbackAndResync input => exact Tx.atomic_writeTransaction _
  | retainCheck check => exact (Tx.atomic_writeTransaction _).map _
  | completeCheck check => exact (Tx.atomic_writeTransaction _).map _
  | deferCheck check retryAt => exact Tx.atomic_writeTransaction _
  | other db => exact Tx.atomic_set db

theorem sameFacts_updateBlocks {p : BlockRow → Bool} {f : BlockRow → BlockRow}
    {hf : ∀ r, (f r).number = r.number} (hhash : ∀ r, (f r).hash = r.hash)
    (recovery : Option ReorgRecoveryState) :
    SameFacts db { db with recovery := recovery, blocks := db.blocks.updateWhere p f hf } := by
  refine ⟨rfl, fun n => ?_, rfl, rfl, rfl, rfl, rfl, rfl⟩
  simp only [getBlockHash, Table.get?_updateWhere, Option.map_map]
  refine congrArg (fun g => Option.map g (db.blocks.get? n)) ?_
  funext r
  simp only [Function.comp_apply]
  split
  · exact hhash r
  · rfl

/-- **The only transactions that write facts or headers are commits and rollbacks.** -/
theorem SyncEvent.effect {u : Unit}
    (h : Tx.Returns e.program db u db') (hother : ∀ d, e = .other d → SameFacts db d) :
    SameFacts db db' ∨ (∃ input, e = .commit input ∧ CommitEffect input db db') ∨
      ∃ plan snapshot db₁ recovery, e.rollbackFrom = some plan.fromBlock ∧
        RollbackEffect plan snapshot db db₁ ∧ db' = { db₁ with recovery := recovery } := by
  cases e with
  | acquire =>
    obtain ⟨-, rfl⟩ := Tx.returns_pure.mp h
    exact Or.inl (.refl db)
  | commit input => exact Or.inr (Or.inl ⟨input, rfl, commitSyncRange_effect h⟩)
  | retainMismatch input =>
    obtain ⟨a, _, ha, hpure⟩ := Tx.returns_bind.mp h
    obtain ⟨-, rfl⟩ := Tx.returns_pure.mp hpure
    rw [(retainMismatch_effect ha).rest]
    exact Or.inl (sameFacts_updateBlocks (by intro r; rfl) _)
  | refreshCheckpoint expected checkpoint recoveryId now =>
    obtain ⟨current, next, -, -, -, -, -, rfl⟩ := refreshCheckpoint_effect h
    exact Or.inl ⟨rfl, fun _ => rfl, rfl, rfl, rfl, rfl, rfl, rfl⟩
  | rollback plan snapshot =>
    exact Or.inr (Or.inr ⟨plan, snapshot, db', db'.recovery, rfl, rollbackFromBlock_effect h, rfl⟩)
  | rollbackAndResync input =>
    obtain ⟨db₁, hroll, hrest⟩ := (commitRollbackAndResync_effect h).rolled
    exact Or.inr (Or.inr ⟨input.plan, input.snapshot, db₁, db'.recovery, rfl, hroll, hrest⟩)
  | retainCheck check =>
    obtain ⟨a, _, ha, hpure⟩ := Tx.returns_bind.mp h
    obtain ⟨-, rfl⟩ := Tx.returns_pure.mp hpure
    simp only [Artgod.Indexer.retainCheck, Tx.returns_writeTransaction, Tx.returns_bind,
      returns_assertSyncCheckpoint, Tx.returns_get, Tx.returns_set, Tx.returns_pure] at ha
    obtain ⟨_, _, ⟨-, rfl⟩, _, _, ⟨rfl, rfl⟩, _, _, rfl, -, rfl⟩ := ha
    exact Or.inl (sameFacts_updateBlocks (by intro r; rfl) db.recovery)
  | completeCheck check =>
    obtain ⟨a, _, ha, hpure⟩ := Tx.returns_bind.mp h
    obtain ⟨-, rfl⟩ := Tx.returns_pure.mp hpure
    obtain ⟨-, rfl, -⟩ := completeCheck_effect ha
    exact Or.inl (sameFacts_updateBlocks (by intro r; rfl) db.recovery)
  | deferCheck check retryAt =>
    simp only [program, Artgod.Indexer.deferCheck, Tx.returns_writeTransaction, Tx.returns_bind,
      returns_assertSyncCheckpoint, Tx.returns_modify] at h
    obtain ⟨_, _, ⟨-, rfl⟩, rfl⟩ := h
    exact Or.inl (sameFacts_updateBlocks (by intro r; rfl) db.recovery)
  | other d =>
    obtain rfl := Tx.returns_set.mp h
    exact Or.inl (hother _ rfl)

theorem FactsInv.congr (h : FactsInv db) (outbox : Table OutboxRow.key)
    (scans : Table GapScanRow.collectionId) (recovery : Option ReorgRecoveryState) :
    FactsInv { db with outbox := outbox, gapScans := scans, recovery := recovery } := by
  have hsame : SameFacts db { db with outbox := outbox, gapScans := scans, recovery := recovery } :=
    ⟨rfl, fun _ => rfl, rfl, rfl, rfl, rfl, rfl, rfl⟩
  exact hsame.inv h

/-- What one event may do to a stored hash: keep it, or delete it by a rollback from its height or
below. -/
def HashStep (db db' : Db) (rollbackFrom : Option Nat) : Prop :=
  ∀ n hash, getBlockHash db n = some hash → getBlockHash db' n = some hash ∨
    ((∃ m ∈ rollbackFrom, m ≤ n) ∧ getBlockHash db' n = none)

theorem SyncEvent.step (hother : ∀ d, e = .other d → SameFacts db d) (hi : FactsInv db) :
    FactsInv (e.program.exec db).2 ∧ HashStep db (e.program.exec db).2 e.rollbackFrom := by
  rcases e.atomic.cases db with ⟨u, hreturn⟩ | hsame
  · rcases e.effect hreturn hother with hsame | ⟨input, -, hcommit⟩ |
      ⟨plan, snapshot, db₁, recovery, hfrom, hroll, hdb⟩
    · exact ⟨hsame.inv hi, fun n hash hn => Or.inl (by rw [hsame.blocks]; exact hn)⟩
    · obtain ⟨db₁, outbox, scans, recovery, hpersist, hdb⟩ := hcommit.persisted
      rw [hdb]
      exact ⟨(hpersist.inv hi).congr _ _ _, fun n hash hn => Or.inl (hpersist.header_kept hn)⟩
    rw [hdb]
    refine ⟨(hroll.inv hi).congr db₁.outbox db₁.gapScans recovery, fun n hash hn => ?_⟩
    obtain ⟨hbelow, habove⟩ := hroll.getBlockHash hn
    rcases Nat.lt_or_ge n plan.fromBlock with hlt | hge
    · exact Or.inl (hbelow hlt)
    · exact Or.inr ⟨⟨plan.fromBlock, hfrom, hge⟩, habove hge⟩
  · rw [hsame]
    exact ⟨hi, fun n hash hn => Or.inl hn⟩

theorem SyncStep.facts {w' : SyncWorld} (h : SyncStep w e w')
    (hi : FactsInv w.db) : FactsInv w'.db ∧ HashStep w.db w'.db e.rollbackFrom := by
  cases h with
  | acquire => exact ⟨hi, fun n hash hn => Or.inl hn⟩
  | @commit input hcap =>
    exact SyncEvent.step (e := .commit input) (fun d hd => by cases hd) hi
  | store hcommit hother => exact SyncEvent.step hother hi

theorem factsInv_fresh (collections : Table CollectionRecord.id) : FactsInv (Db.fresh collections) where
  headers n hash ha := by
    cases ha with
    | transaction hr => exact absurd hr Table.not_mem_empty
    | transfer hr => exact absurd hr Table.not_mem_empty
    | fillExecution hr => exact absurd hr Table.not_mem_empty
    | fill hr => exact absurd hr Table.not_mem_empty
    | extensionEvent hr => exact absurd hr Table.not_mem_empty
    | extensionEventMedia hr => exact absurd hr Table.not_mem_empty
  executions r hr := absurd hr Table.not_mem_empty

theorem SyncRun.facts {collections : Table CollectionRecord.id} {events : List SyncEvent}
    (h : SyncRun (.fresh collections) events w) : FactsInv w.db := by
  induction h with
  | nil => exact factsInv_fresh collections
  | snoc _ hstep ih => exact (hstep.facts ih).1

/-- **Facts match their headers and stale acquisitions are fenced.**  In every state that a run of
acquisitions, commits, mismatches and rollbacks reaches, every fact carries the stored hash of its
block.  The next event keeps each stored hash or deletes it by a rollback; a commit returns only
at the revision its acquisition captured, and one that throws changes no table. -/
theorem sync_run_facts {collections : Table CollectionRecord.id} {events : List SyncEvent}
    {w : SyncWorld} (h : SyncRun (.fresh collections) events w) :
    FactsMatchHeaders w.db ∧ (∀ e w', SyncStep w e w' → HashStep w.db w'.db e.rollbackFrom) ∧
      ∀ input w', SyncStep w (.commit input) w' → (((commitSyncRange input).exec w.db).1 = .ok () →
          w.db.revision = input.result.checkpoint.revision) ∧
        (((commitSyncRange input).exec w.db).1 ≠ .ok () → w'.db = w.db) := by
  refine ⟨h.facts.headers, fun e w' hstep => (hstep.facts h.facts).2, ?_⟩
  intro input w' hstep
  have hdb : w'.db = ((commitSyncRange input).exec w.db).2 := by
    cases hstep with
    | commit _ => rfl
    | store hno _ => exact absurd rfl (hno input)
  constructor
  · intro hok
    have hret : Tx.Returns (commitSyncRange input) w.db ()
        ((commitSyncRange input).exec w.db).2 := Prod.ext hok rfl
    obtain ⟨db₁, outbox, scans, recovery, hpersist, -⟩ := (commitSyncRange_effect hret).persisted
    exact hpersist.revision_current
  · intro hne
    rw [hdb]
    rcases (commitSyncRange_atomic input).cases w.db with ⟨u, hret⟩ | hsame
    · exact absurd (congrArg Prod.fst hret) hne
    · exact hsame

/-- A range of one block with one transaction, acquired at revision 0. -/
def oneBlockCommit : SyncRangeCommit where
  result :=
    { checkpoint := ⟨0⟩
      canonicalCheck := ⟨8, 2⟩
      collections := []
      blocks := [⟨7, 70, 60, 1700⟩]
      data := { OnChainData.empty with transactions := [⟨500, 1, none, "0x", 7, 70⟩] } }
  followUps := []
  completion := .unmanaged

theorem sync_run_facts_oneBlock :
    ∃ w, SyncRun (.fresh .empty) ([] ++ [.acquire] ++ [.commit oneBlockCommit]) w ∧
      getBlockHash w.db 7 = some 70 ∧ FactsMatchHeaders w.db := by
  have hacquire : SyncRun (.fresh .empty) ([] ++ [.acquire]) ⟨Db.fresh .empty, [⟨0⟩]⟩ :=
    SyncRun.nil.snoc SyncStep.acquire
  have hrun := hacquire.snoc (@SyncStep.commit _ oneBlockCommit (List.mem_singleton.mpr rfl))
  exact ⟨_, hrun, by decide +kernel, (sync_run_facts hrun).1⟩

end Artgod.Indexer
