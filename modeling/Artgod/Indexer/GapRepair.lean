/-
# Repairing the gaps

A pass of the automatic sync (`application/automatic-sync-executor.ts`) takes the pending repairs that are due,
brings each up to the coverage, groups what is left (`planSyncGapRepairBatches`) and commits the first batch.
A batch is a suffix that all its members miss, so each is left with one shorter range.
-/
import Artgod.Indexer.Commit
import Artgod.Machine.Runs

namespace Artgod.Indexer

open Store

/-! ## 1. The plan -/

/-- `SyncGapRepairCandidate`: the repair, and the missing range at its end. -/
abbrev SyncGapRepairCandidate := SyncGapRepairTarget × (Nat × Nat)

/-- The newest end first, and at one end the smallest collection. -/
def SyncGapRepairCandidate.Precedes (a b : SyncGapRepairCandidate) : Prop :=
  b.2.2 < a.2.2 ∨ a.2.2 = b.2.2 ∧ a.1.collectionId ≤ b.1.collectionId

instance : DecidableRel SyncGapRepairCandidate.Precedes :=
  fun a b => inferInstanceAs (Decidable (b.2.2 < a.2.2 ∨ a.2.2 = b.2.2 ∧ a.1.collectionId ≤ b.1.collectionId))

/-- A batch that is being put together, and the candidates after it. -/
structure OpenBatch where
  fromBlock : Nat
  members : List SyncGapRepairTarget
  pending : List SyncGapRepairCandidate

/-- The inner loop of `planSyncGapRepairBatches`: the next candidate joins if it ends with the batch. -/
def takeMembers (toBlock fromBlock : Nat) (members : List SyncGapRepairTarget) :
    List SyncGapRepairCandidate → OpenBatch
  | [] => ⟨fromBlock, members, []⟩
  | next :: pending =>
    if next.2.2 = toBlock then takeMembers toBlock (max fromBlock next.2.1) (members ++ [next.1]) pending
    else ⟨fromBlock, members, next :: pending⟩

theorem takeMembers_spec {toBlock fromBlock : Nat} {members : List SyncGapRepairTarget}
    {pending : List SyncGapRepairCandidate} :
    ∃ taken, pending = taken ++ (takeMembers toBlock fromBlock members pending).pending ∧
      (takeMembers toBlock fromBlock members pending).members = members ++ taken.map Prod.fst ∧
      (∀ candidate ∈ taken, candidate.2.2 = toBlock) ∧
      ∀ bound, (takeMembers toBlock fromBlock members pending).fromBlock ≤ bound ↔
        fromBlock ≤ bound ∧ ∀ candidate ∈ taken, candidate.2.1 ≤ bound := by
  induction pending generalizing fromBlock members with
  | nil => exact ⟨[], rfl, (List.append_nil _).symm, nofun, fun bound => ⟨fun h => ⟨h, nofun⟩, fun h => h.1⟩⟩
  | cons next pending ih =>
    rw [takeMembers]
    split
    · next hends =>
      obtain ⟨taken, hpending, hmembers, htaken, hfrom⟩ :=
        @ih (max fromBlock next.2.1) (members ++ [next.1])
      refine ⟨next :: taken, ?_, ?_, ?_, fun bound => ?_⟩
      · rw [List.cons_append, ← hpending]
      · rw [hmembers, List.append_assoc]
        rfl
      · rintro candidate hcandidate
        rcases List.mem_cons.mp hcandidate with rfl | hrest
        · exact hends
        · exact htaken candidate hrest
      · rw [hfrom, Nat.max_le, and_assoc, List.forall_mem_cons]
    · exact ⟨[], rfl, (List.append_nil _).symm, nofun, fun bound => ⟨fun h => ⟨h, nofun⟩, fun h => h.1⟩⟩

variable {toBlock : Nat} {remaining : Option (Nat × Nat)} {answer : Option SyncGapRepairCandidate}
  {acquired : List CollectionId} {u : Unit} {result : SyncRangeResult}
  {followUps : List SyncFollowUp}

theorem takeMembers_length_le {fromBlock : Nat} {members : List SyncGapRepairTarget}
    {pending : List SyncGapRepairCandidate} :
    (takeMembers toBlock fromBlock members pending).pending.length ≤ pending.length := by
  obtain ⟨taken, hpending, -⟩ := @takeMembers_spec toBlock fromBlock members pending
  have hlength := congrArg List.length hpending
  rw [List.length_append] at hlength
  omega

/-- The outer loop, over the sorted candidates. -/
def planBatches (batchSize : Nat) : List SyncGapRepairCandidate → List SyncGapRepairBatch
  | [] => []
  | first :: pending =>
    let batch := takeMembers first.2.2 (max first.2.1 (first.2.2 + 1 - batchSize)) [first.1] pending
    ⟨batch.fromBlock, first.2.2, batch.members.insertionSort (fun a b => a.collectionId ≤ b.collectionId)⟩ ::
      planBatches batchSize batch.pending
termination_by pending => pending.length
decreasing_by exact Nat.lt_succ_of_le takeMembers_length_le

def planSyncGapRepairBatches (candidates : List SyncGapRepairCandidate) (batchSize : Nat) :
    Except String (List SyncGapRepairBatch) :=
  if isSafeInteger batchSize = false ∨ batchSize < 1 then
    .error "Gap repair batch size must be a positive safe integer"
  else .ok (planBatches batchSize (candidates.insertionSort SyncGapRepairCandidate.Precedes))

/-- The missing range of a candidate is not empty. -/
def SyncGapRepairCandidate.Ordered (candidate : SyncGapRepairCandidate) : Prop := candidate.2.1 ≤ candidate.2.2

variable {db db' : Db} {batch : SyncGapRepairBatch} {batchSize retryAt : Nat} {p : SyncGapProgress}
  {repair : SyncGapRepairTarget} {c : CollectionId} {repairs : List SyncGapRepairTarget}

/-- The range of the collection that is still to be repaired. -/
def pendingRange (db : Db) (c : CollectionId) : Option (Nat × Nat) :=
  ((getProgress db c).bind (·.pending)).map fun q => (q.fromBlock, q.toBlock)

theorem pendingRange_of_holds
    (hp : getProgress db repair.collectionId = some p) (hholds : p.holds repair = true) :
    pendingRange db repair.collectionId = some (repair.fromBlock, repair.toBlock) := by
  obtain ⟨-, q, hq, -, hfrom, hto⟩ := SyncGapProgress.holds_iff.mp hholds
  rw [pendingRange, hp, Option.bind_some, hq, Option.map_some, hfrom, hto]

theorem pendingRange_advance {d : CollectionId} {repairId : String}
    (hp : getProgress db c = some p) :
    pendingRange (setProgress db c (p.advance repairId remaining retryAt)) d =
      if d = c then remaining else pendingRange db d := by
  rw [pendingRange, getProgress_setProgress]
  split
  · rw [hp]
    cases remaining <;> rfl
  · rfl

/-- A repair that was brought up to the coverage. -/
structure Reconciles (repair : SyncGapRepairTarget) (batchSize : Nat) (db db' : Db)
    (answer : Option SyncGapRepairCandidate) : Prop where
  rest : ∃ scans, db' = { db with gapScans := scans }
  others : ∀ d, d ≠ repair.collectionId → getProgress db' d = getProgress db d
  left : RepairedTo db.coverage repair.collectionId repair.fromBlock repair.toBlock
    (pendingRange db' repair.collectionId)
  shorter : answer = none → ∀ rest ∈ pendingRange db' repair.collectionId, rest.2 < repair.toBlock
  /-- The candidate is the repair as it is now, with a missing range at its end. -/
  candidate : ∀ candidate ∈ answer, candidate.1 = { repair with toBlock := candidate.2.2 } ∧
    repair.fromBlock ≤ candidate.2.1 ∧ candidate.Ordered ∧ candidate.2.2 ≤ repair.toBlock ∧
    candidate.2.2 < candidate.2.1 + batchSize ∧
    (∀ n, candidate.2.1 ≤ n → n ≤ candidate.2.2 → ¬ Covered db.coverage repair.collectionId n) ∧
    ∃ p, getProgress db' repair.collectionId = some p ∧ p.holds candidate.1 = true

theorem holds_advance (h : p.holds repair = true) :
    (p.advance repair.repairId (some (repair.fromBlock, toBlock)) retryAt).holds
      { repair with toBlock := toBlock } = true := by
  obtain ⟨hanchor, -⟩ := SyncGapProgress.holds_iff.mp h
  exact SyncGapProgress.holds_iff.mpr ⟨hanchor, _, rfl, rfl, rfl, rfl⟩

theorem recordRepairProgress_current {advanced : Bool} (hp : getProgress db repair.collectionId = some p)
    (hholds : p.holds repair = true) (h : Tx.Returns (recordRepairProgress repair remaining retryAt) db advanced db') :
    db' = setProgress db repair.collectionId (p.advance repair.repairId remaining retryAt) := by
  simp only [recordRepairProgress, Tx.returns_bind, Tx.returns_get] at h
  obtain ⟨_, _, ⟨rfl, rfl⟩, h⟩ := h
  simp only [hp, hholds, if_true, Tx.returns_bind, Tx.returns_throwIf, Tx.returns_set, Tx.returns_pure] at h
  obtain ⟨_, _, ⟨-, rfl⟩, _, _, rfl, -, rfl⟩ := h
  rfl

/-- **What `reconcileRepairCoverage` does to the repair that is pending**; one that is not it leaves alone. -/
theorem reconcileRepairCoverage_returns {now : Nat}
    (hbatch : 1 ≤ batchSize)
    (hrepair : 1 ≤ repair.fromBlock ∧ repair.fromBlock ≤ repair.toBlock)
    (h : Tx.Returns (reconcileRepairCoverage repair batchSize now) db answer db') :
    (answer = none ∧ db' = db ∧ ∀ p, getProgress db repair.collectionId = some p → p.holds repair = false) ∨
      ∃ p, getProgress db repair.collectionId = some p ∧ p.holds repair = true ∧
        Reconciles repair batchSize db db' answer := by
  simp only [reconcileRepairCoverage, Tx.returns_writeTransaction, Tx.returns_bind, Tx.returns_get] at h
  obtain ⟨_, _, ⟨rfl, rfl⟩, h⟩ := h
  split at h
  · next hnone =>
    obtain ⟨rfl, rfl⟩ := Tx.returns_pure.mp h
    exact .inl ⟨rfl, rfl, fun p hp => by cases hnone.symm.trans hp⟩
  next p hp =>
  rw [Tx.returns_ite] at h
  rcases h with ⟨hholds, h⟩ | ⟨hstale, h⟩
  swap
  · obtain ⟨rfl, rfl⟩ := Tx.returns_pure.mp h
    refine .inl ⟨rfl, rfl, fun q hq => ?_⟩
    cases hp.symm.trans hq
    exact Bool.eq_false_iff.mpr hstale
  refine .inr ⟨p, hp, hholds, ?_⟩
  have hanswer : GapAnswer db.coverage repair.collectionId (max repair.fromBlock (repair.toBlock + 1 - batchSize))
      repair.toBlock batchSize (findGap db.coverage repair.collectionId
        (max repair.fromBlock (repair.toBlock + 1 - batchSize)) repair.toBlock batchSize) := findGap_answer hbatch
  have hlower : repair.fromBlock ≤ max repair.fromBlock (repair.toBlock + 1 - batchSize) := Nat.le_max_left _ _
  have hupper : max repair.fromBlock (repair.toBlock + 1 - batchSize) ≤ repair.toBlock := by omega
  generalize max repair.fromBlock (repair.toBlock + 1 - batchSize) = lower at h hanswer hlower hupper
  generalize findGap db.coverage repair.collectionId lower repair.toBlock batchSize = missing at h hanswer
  -- What is recorded, where the end has moved.
  have hrecorded : ∀ {remaining : Option (Nat × Nat)} {advanced : Bool} {db₁ : Db},
      Tx.Returns (recordRepairProgress repair remaining now) db advanced db₁ →
      (∃ scans, db₁ = { db with gapScans := scans }) ∧
        (∀ d, d ≠ repair.collectionId → getProgress db₁ d = getProgress db d) ∧
        pendingRange db₁ repair.collectionId = remaining ∧
        getProgress db₁ repair.collectionId = some (p.advance repair.repairId remaining now) := by
    intro remaining advanced db₁ hrun
    obtain rfl := recordRepairProgress_current hp hholds hrun
    refine ⟨⟨_, rfl⟩, fun d hd => ?_, ?_, ?_⟩
    · rw [getProgress_setProgress, if_neg hd]
    · rw [pendingRange_advance hp, if_pos rfl]
    · rw [getProgress_setProgress, if_pos rfl, hp]
      rfl
  rw [Tx.returns_ite] at h
  cases missing with
  | none =>
    -- The whole window is covered: what is left lies below it.
    dsimp +instances only [Option.elim_none, Option.map_none] at h
    rcases h with ⟨-, h⟩ | ⟨hsame, -⟩
    swap
    · omega
    simp only [Tx.returns_bind, Tx.returns_pure] at h
    obtain ⟨advanced, db₁, hrun, rfl, rfl⟩ := h
    obtain ⟨hrest, hothers, hpending, -⟩ := hrecorded hrun
    refine ⟨hrest, hothers, ?_, fun _ => ?_, by rintro _ ⟨⟩⟩
    · rw [hpending]
      split
      · refine ⟨rfl, ?_, fun n hlt hle => hanswer n ?_ hle⟩
        · dsimp only
          omega
        · dsimp only at hlt
          omega
      · exact fun n hfrom hto => hanswer n (by omega) hto
    · rw [hpending]
      split
      · rintro rest ⟨⟩
        dsimp only
        omega
      · rintro _ ⟨⟩
  | some gap =>
    obtain ⟨hgap, hsize⟩ := hanswer
    have hgapFrom := hgap.lower_le
    have hgapOrdered := hgap.ordered
    dsimp +instances only [Option.elim_some, Option.map_some] at h
    rcases h with ⟨-, h⟩ | ⟨hsame, h⟩
    · simp only [Tx.returns_bind, Tx.returns_pure] at h
      obtain ⟨advanced, db₁, hrun, rfl, rfl⟩ := h
      rw [if_pos (by omega)] at hrun
      obtain ⟨hrest, hothers, hpending, hprogress⟩ := hrecorded hrun
      refine ⟨hrest, hothers, ?_, by rintro ⟨⟩, ?_⟩
      · rw [hpending]
        exact ⟨rfl, hgap.le_upper, fun n hlt hle => hgap.above n hlt hle⟩
      · rintro candidate ⟨⟩
        exact ⟨rfl, hlower.trans hgapFrom, hgapOrdered, hgap.le_upper, hsize, hgap.missing,
          _, hprogress, holds_advance hholds⟩
    · rw [ne_eq, Decidable.not_not] at hsame
      obtain ⟨rfl, rfl⟩ := Tx.returns_pure.mp h
      have hrange := pendingRange_of_holds hp hholds
      refine ⟨⟨_, rfl⟩, fun _ _ => rfl, ?_, by rintro ⟨⟩, ?_⟩
      · rw [hrange]
        exact ⟨rfl, Nat.le_refl _, fun n hlt hle => absurd hlt (Nat.not_lt.mpr hle)⟩
      rintro candidate ⟨⟩
      refine ⟨rfl, hlower.trans hgapFrom, hgapOrdered, hgap.le_upper, hsize, hgap.missing, p, hp, ?_⟩
      dsimp only
      rw [hsame]
      exact hholds

/-- From one state of the store to a later one repairs were only cut back, down to covered blocks. -/
structure Narrows (db db' : Db) : Prop where
  covered : ∀ c n, Covered db.coverage c n → Covered db'.coverage c n
  idle : ∀ c, pendingRange db c = none → pendingRange db' c = none
  left : ∀ c f t, pendingRange db c = some (f, t) → RepairedTo db'.coverage c f t (pendingRange db' c)

theorem RepairedTo.mono {coverage coverage' : CoverageTable} {lower upper : Nat}
    {rest : Option (Nat × Nat)} (h : RepairedTo coverage c lower upper rest)
    (hcovered : ∀ n, Covered coverage c n → Covered coverage' c n) : RepairedTo coverage' c lower upper rest := by
  cases rest with
  | none => exact fun n hlo hhi => hcovered n (h n hlo hhi)
  | some rest => exact ⟨h.1, h.2.1, fun n hlt hle => hcovered n (h.2.2 n hlt hle)⟩

theorem Narrows.refl (db : Db) : Narrows db db where
  covered _ _ h := h
  idle _ h := h
  left c f t h := by
    rw [h]
    exact ⟨rfl, Nat.le_refl _, fun n hlt hle => absurd hlt (Nat.not_lt.mpr hle)⟩

theorem Narrows.trans {db'' : Db} (h : Narrows db db') (h' : Narrows db' db'') : Narrows db db'' where
  covered c n hc := h'.covered c n (h.covered c n hc)
  idle c hc := h'.idle c (h.idle c hc)
  left c f t hc := by
    have hfirst := (h.left c f t hc).mono (h'.covered c)
    cases hmiddle : pendingRange db' c with
    | none =>
      rw [hmiddle] at hfirst
      rw [h'.idle c hmiddle]
      exact hfirst
    | some middle =>
      obtain ⟨f', t'⟩ := middle
      rw [hmiddle] at hfirst
      obtain ⟨rfl, hle, habove⟩ := hfirst
      have hsecond := h'.left c f' t' hmiddle
      cases hlast : pendingRange db'' c with
      | none =>
        rw [hlast] at hsecond
        intro n hlo hhi
        by_cases hn : n ≤ t'
        · exact hsecond n hlo hn
        · exact habove n (Nat.lt_of_not_le hn) hhi
      | some rest =>
        rw [hlast] at hsecond
        obtain ⟨hfrom, hto, hcovered⟩ := hsecond
        refine ⟨hfrom, hto.trans hle, fun n hlt hhi => ?_⟩
        by_cases hn : n ≤ t'
        · exact hcovered n hlt hn
        · exact habove n (Nat.lt_of_not_le hn) hhi

theorem Narrows.of_one {f t : Nat}
    (hcovered : ∀ c n, Covered db.coverage c n → Covered db'.coverage c n)
    (hpending : pendingRange db c = some (f, t)) (hleft : RepairedTo db'.coverage c f t (pendingRange db' c))
    (hothers : ∀ d, d ≠ c → pendingRange db' d = pendingRange db d) : Narrows db db' where
  covered := hcovered
  idle d hd := by
    rw [hothers d, hd]
    intro heq
    rw [heq, hpending] at hd
    cases hd
  left d f' t' hd := by
    by_cases heq : d = c
    · subst heq
      cases hpending.symm.trans hd
      exact hleft
    · rw [hothers d heq, hd]
      exact ⟨rfl, Nat.le_refl _, fun n hlt hle => absurd hlt (Nat.not_lt.mpr hle)⟩

theorem Narrows.of_same (hcovered : ∀ c n, Covered db.coverage c n → Covered db'.coverage c n)
    (hsame : ∀ c, pendingRange db' c = pendingRange db c) : Narrows db db' where
  covered := hcovered
  idle c hc := (hsame c).trans hc
  left c f t hc := by
    rw [hsame, hc]
    exact ⟨rfl, Nat.le_refl _, fun n hlt hle => absurd hlt (Nat.not_lt.mpr hle)⟩

theorem Reconciles.narrows (h : Reconciles repair batchSize db db' answer)
    (hp : getProgress db repair.collectionId = some p) (hholds : p.holds repair = true) : Narrows db db' := by
  have hleft := h.left
  have hothers := h.others
  obtain ⟨scans, rfl⟩ := h.rest
  refine .of_one (fun _ _ hc => hc) (pendingRange_of_holds hp hholds) hleft fun d hd => ?_
  unfold pendingRange
  rw [hothers d hd]

/-! ## 3. A batch that is committed -/

theorem assertRepairsCurrent_nodup (hacquired : acquired.Nodup)
    (h : assertRepairsCurrent db batch acquired repairs = .ok ()) : (repairs.map (·.collectionId)).Nodup := by
  induction repairs generalizing acquired with
  | nil => exact List.nodup_nil
  | cons repair rest ih =>
    rw [assertRepairsCurrent] at h
    split at h
    · cases h
    rw [List.map_cons, List.nodup_cons]
    refine ⟨fun hmem => ?_, ih (hacquired.erase _) h⟩
    obtain ⟨other, hother, hid⟩ := List.mem_map.mp hmem
    have htaken := (assertRepairsCurrent_ok h other hother).1
    rw [hid] at htaken
    exact hacquired.not_mem_erase htaken

theorem completeRepairs_returns (hdistinct : (repairs.map (·.collectionId)).Nodup)
    (h : Tx.Returns (repairs.forM (completeRepair batch retryAt)) db u db') :
    (∃ scans, db' = { db with gapScans := scans }) ∧
      (∀ repair ∈ repairs, pendingRange db repair.collectionId = some (repair.fromBlock, repair.toBlock) ∧
        pendingRange db' repair.collectionId = remainingSyncGapRepairRange repair batch.fromBlock) ∧
      ∀ c, c ∉ repairs.map (·.collectionId) → getProgress db' c = getProgress db c := by
  induction repairs generalizing db u with
  | nil =>
    obtain rfl := Tx.returns_forM_nil.mp h
    exact ⟨⟨_, rfl⟩, nofun, fun _ _ => rfl⟩
  | cons repair rest ih =>
    rw [List.map_cons, List.nodup_cons] at hdistinct
    obtain ⟨_, db₁, hone, hrest⟩ := Tx.returns_forM_cons.mp h
    simp only [completeRepair, Tx.returns_bind, Tx.returns_throwIf] at hone
    obtain ⟨advanced, _, hrecorded, hdone, rfl⟩ := hone
    rcases recordRepairProgress_effect hrecorded with ⟨hnot, -⟩ | ⟨-, p, hp, hholds, -, rfl⟩
    · exact absurd hnot hdone
    obtain ⟨⟨scans, rfl⟩, hmembers, hothers⟩ := ih hdistinct.2 hrest
    refine ⟨⟨scans, rfl⟩, fun other hother => ?_, fun c hc => ?_⟩
    · rcases List.mem_cons.mp hother with rfl | hmem
      · refine ⟨pendingRange_of_holds hp hholds, ?_⟩
        unfold pendingRange
        rw [hothers _ hdistinct.1]
        exact (pendingRange_advance hp).trans (if_pos rfl)
      · obtain ⟨hbefore, hafter⟩ := hmembers other hmem
        refine ⟨?_, hafter⟩
        rw [pendingRange_advance hp, if_neg] at hbefore
        · exact hbefore
        · exact fun heq => hdistinct.1 (heq ▸ List.mem_map_of_mem hmem)
    · rw [List.map_cons, List.mem_cons, not_or] at hc
      rw [hothers c hc.2, getProgress_setProgress, if_neg hc.1]

/-- The blocks that a batch brings its members. -/
def SyncGapRepairBatch.blocks (batch : SyncGapRepairBatch) : List (CollectionId × Nat) :=
  batch.repairs.flatMap fun repair =>
    (List.range' batch.fromBlock (batch.toBlock + 1 - batch.fromBlock)).map fun n => (repair.collectionId, n)

theorem SyncGapRepairBatch.mem_blocks {n : Nat} :
    (c, n) ∈ batch.blocks ↔
      (∃ repair ∈ batch.repairs, repair.collectionId = c) ∧ batch.fromBlock ≤ n ∧ n ≤ batch.toBlock := by
  simp only [blocks, List.mem_flatMap, List.mem_map, List.mem_range'_1, Prod.mk.injEq]
  constructor
  · rintro ⟨repair, hrepair, m, hm, hid, rfl⟩
    exact ⟨⟨repair, hrepair, hid⟩, hm.1, by omega⟩
  · rintro ⟨⟨repair, hrepair, hid⟩, hlo, hhi⟩
    exact ⟨repair, hrepair, n, ⟨hlo, by omega⟩, hid, rfl⟩

theorem SyncGapRepairBatch.blocks_nodup
    (h : (batch.repairs.map (·.collectionId)).Nodup) : batch.blocks.Nodup := by
  rw [blocks, List.nodup_flatMap]
  refine ⟨fun repair _ => List.Nodup.map (fun a b hab => (Prod.mk.inj hab).2) List.nodup_range', ?_⟩
  rw [List.Nodup, List.pairwise_map] at h
  refine h.imp fun hne pair hleft hright => ?_
  obtain ⟨_, -, rfl⟩ := List.mem_map.mp hleft
  obtain ⟨_, -, hpair⟩ := List.mem_map.mp hright
  exact hne (Prod.mk.inj hpair).1.symm

/-- A batch was committed. -/
structure BatchCommitted (batch : SyncGapRepairBatch) (db db' : Db) : Prop where
  distinct : (batch.repairs.map (·.collectionId)).Nodup
  narrows : Narrows db db'
  before : ∀ repair ∈ batch.repairs, repair.fromBlock ≤ batch.fromBlock ∧ repair.toBlock = batch.toBlock ∧
    pendingRange db repair.collectionId = some (repair.fromBlock, repair.toBlock)
  after : ∀ repair ∈ batch.repairs,
    pendingRange db' repair.collectionId = remainingSyncGapRepairRange repair batch.fromBlock
  others : ∀ c, c ∉ batch.repairs.map (·.collectionId) → getProgress db' c = getProgress db c
  collections : db'.collections = db.collections

theorem assertCurrent_gapRepair
    (h : assertCurrent ⟨result, followUps, .gapRepair batch retryAt⟩ db = .ok ()) :
    assertSyncBlocksCoverRange result.blocks batch.fromBlock batch.toBlock = .ok () ∧
      assertRepairsCurrent db batch (result.collections.map (·.id)).dedup batch.repairs = .ok () := by
  simp only [assertCurrent, bind, Except.bind] at h
  split at h
  · cases h
  next hcover =>
  split at h
  · cases h
  · exact ⟨hcover, h⟩

theorem commitSyncRange_gapRepair
    (h : Tx.Returns (commitSyncRange ⟨result, followUps, .gapRepair batch retryAt⟩) db u db') :
    BatchCommitted batch db db' := by
  simp only [commitSyncRange, Tx.returns_writeTransaction, Tx.returns_bind, Tx.returns_get,
    Tx.returns_check, Tx.returns_modify] at h
  obtain ⟨_, _, ⟨rfl, rfl⟩, _, _, ⟨hcurrent, rfl⟩, _, _, ⟨-, rfl⟩, _, db₁, hpersist, _, _, rfl, hwork⟩ := h
  obtain ⟨hcover, hrepairs⟩ := assertCurrent_gapRepair hcurrent
  have hdistinct := assertRepairsCurrent_nodup (List.nodup_dedup _) hrepairs
  have heffect := persistSyncResult_effect hpersist
  obtain ⟨⟨scans, rfl⟩, hmembers, hothers⟩ := completeRepairs_returns hdistinct hwork
  -- The facts of the result leave the progress rows.
  have hprogress : ∀ c, getProgress { db₁ with
      outbox := followUps.foldl (enqueueSyncFollowUp result.checkpoint.revision) db₁.outbox } c =
      getProgress db c := fun c => by
    rw [heffect.rest]
    rfl
  have hpending : ∀ c, pendingRange { db₁ with
      outbox := followUps.foldl (enqueueSyncFollowUp result.checkpoint.revision) db₁.outbox } c =
      pendingRange db c := fun c => by
    unfold pendingRange
    rw [hprogress c]
  have hgrows : ∀ c n, Covered db.coverage c n → Covered db₁.coverage c n := by
    intro c n hc
    rw [Covered, heffect.coverage, mem_persistCollectionSyncBlocks]
    exact .inl hc
  have hbefore : ∀ repair ∈ batch.repairs, repair.fromBlock ≤ batch.fromBlock ∧ repair.toBlock = batch.toBlock ∧
      pendingRange db repair.collectionId = some (repair.fromBlock, repair.toBlock) := by
    intro repair hrepair
    obtain ⟨-, hfrom, hto⟩ := assertRepairsCurrent_ok hrepairs repair hrepair
    exact ⟨hfrom, hto, (hpending _).symm.trans (hmembers repair hrepair).1⟩
  have hafter := fun repair hrepair => (hmembers repair hrepair).2
  have hrest : ∀ c, c ∉ batch.repairs.map (·.collectionId) → getProgress { db₁ with
        outbox := followUps.foldl (enqueueSyncFollowUp result.checkpoint.revision) db₁.outbox, gapScans := scans } c =
      getProgress db c := fun c hc => (hothers c hc).trans (hprogress c)
  refine ⟨hdistinct, ⟨hgrows, fun c hc => ?_, fun c f t hc => ?_⟩, hbefore, hafter, hrest, ?_⟩
  · -- A member has a pending range, and no other row is written.
    by_cases hmember : c ∈ batch.repairs.map (·.collectionId)
    · obtain ⟨repair, hrepair, rfl⟩ := List.mem_map.mp hmember
      rw [(hbefore repair hrepair).2.2] at hc
      cases hc
    · unfold pendingRange at hc ⊢
      rw [hrest c hmember, hc]
  · by_cases hmember : c ∈ batch.repairs.map (·.collectionId)
    · obtain ⟨repair, hrepair, rfl⟩ := List.mem_map.mp hmember
      obtain ⟨-, hto, hrange⟩ := hbefore repair hrepair
      cases hrange.symm.trans hc
      rw [hafter repair hrepair]
      have hle := assertSyncBlocksCoverRange_le hcover
      refine remainingSyncGapRepairRange_repaired (by omega) fun n hlo hhi => ?_
      -- The commit covered its headers for every collection that it acquired.
      obtain ⟨b, hb, rfl⟩ := (assertSyncBlocksCoverRange_iff hcover n).mpr ⟨hlo, hto ▸ hhi⟩
      have hacquired := (assertRepairsCurrent_ok hrepairs repair hrepair).1
      rw [List.mem_dedup, List.mem_map] at hacquired
      obtain ⟨collection, hcollection, hid⟩ := hacquired
      rw [Covered, heffect.coverage, mem_persistCollectionSyncBlocks]
      exact .inr ⟨collection, hcollection, b, hb, by rw [hid]⟩
    · have hsame := hrest c hmember
      unfold pendingRange at hc ⊢
      rw [hsame, hc]
      exact ⟨rfl, Nat.le_refl _, fun n hlt hle => absurd hlt (Nat.not_lt.mpr hle)⟩
  · rw [heffect.rest]

/-! ## 4. Passes -/

/-- The store, and the blocks that repairs have brought, each for the collection that it was brought for. -/
structure RepairWorld where
  db : Db
  repaired : List (CollectionId × Nat)

/-- What was acquired for a batch. -/
structure GapAcquisition where
  result : SyncRangeResult
  followUps : List SyncFollowUp

/-- One pass.

* `repairs` are the rows that the query lists as due: one for a collection, as the table can store it.
* `keeps` are the candidates that the pass goes on with.
* `acquire` is what comes of the acquisition of a batch, if it succeeds; else its members wait until `retryAt`. -/
structure RepairPass where
  repairs : List SyncGapRepairTarget
  now : Nat
  retryAt : Nat
  keeps : SyncGapRepairCandidate → Bool
  acquire : SyncGapRepairBatch → Option GapAcquisition
  distinct : (repairs.map (·.collectionId)).Nodup
  stored : ∀ repair ∈ repairs, 1 ≤ repair.fromBlock ∧ repair.fromBlock ≤ repair.toBlock

/-- Each due repair brought up to the coverage; a transaction that throws ends the pass. -/
def reconcileAll (batchSize now : Nat) : List SyncGapRepairTarget → Db →
    Except SyncError (List SyncGapRepairCandidate) × Db
  | [], db => (.ok [], db)
  | repair :: rest, db =>
    match (reconcileRepairCoverage repair batchSize now).exec db with
    | (.error e, db) => (.error e, db)
    | (.ok candidate, db) =>
      ((reconcileAll batchSize now rest db).1.map (candidate.toList ++ ·), (reconcileAll batchSize now rest db).2)

/-- The member is still the pending repair of a live collection. -/
def isAdmitted (db : Db) (repair : SyncGapRepairTarget) : Bool :=
  isCurrentSyncGapRepair repair (db.collections.get? repair.collectionId) (getProgress db repair.collectionId)

/-- `runGapRepair`, and whether it committed.  Members that are not current any more are left out; what fails is
put off. -/
def runGapRepair (pass : RepairPass) (planned : SyncGapRepairBatch) (w : RepairWorld) : Bool × RepairWorld :=
  let batch := { planned with repairs := planned.repairs.filter (isAdmitted w.db) }
  if batch.repairs = [] then (false, w)
  else
    let deferred := { w with db := batch.repairs.foldl (fun db repair => deferRetry repair pass.retryAt db) w.db }
    match pass.acquire batch with
    | none => (false, deferred)
    | some acquired =>
      match (commitSyncRange ⟨acquired.result, acquired.followUps, .gapRepair batch pass.now⟩).exec w.db with
      | (.ok _, db) => (true, ⟨db, w.repaired ++ batch.blocks⟩)
      | (.error _, _) => (false, deferred)

/-- The batch that a pass goes for: the first of the plan over the candidates that it keeps. -/
def firstBatch (batchSize : Nat) (pass : RepairPass) (candidates : List SyncGapRepairCandidate) :
    Option SyncGapRepairBatch :=
  match planSyncGapRepairBatches (candidates.filter pass.keeps) batchSize with
  | .error _ => none
  | .ok batches => batches.head?

/-- A pass, and whether it committed a batch. -/
def repairPass (batchSize : Nat) (w : RepairWorld) (pass : RepairPass) : Bool × RepairWorld :=
  match reconcileAll batchSize pass.now pass.repairs w.db with
  | (.error _, db) => (false, { w with db := db })
  | (.ok candidates, db) =>
    match firstBatch batchSize pass candidates with
    | none => (false, { w with db := db })
    | some batch => runGapRepair pass batch { w with db := db }

/-- What happens while repairs are pending: a pass, or blocks that others acquire. -/
inductive RepairEvent where
  | pass (pass : RepairPass)
  | acquired (rows : List CoverageRow)

def RepairWorld.step (batchSize : Nat) (w : RepairWorld) : RepairEvent → RepairWorld
  | .pass pass => (repairPass batchSize w pass).2
  | .acquired rows =>
    { w with db := { w.db with coverage := rows.foldl (fun coverage row => coverage.insertOrIgnore row) w.db.coverage } }

/-! ## 5. Nothing twice, and nothing left out -/

/-- **What repairing keeps.**  Every intent of the start is there as it was, or cut back down to covered blocks;
what was repaired of it lies above what is left of it, and no block was repaired twice. -/
structure RepairInv (start : Db) (w : RepairWorld) : Prop where
  narrows : Narrows start w.db
  within : ∀ c n, (c, n) ∈ w.repaired → ∃ f t, pendingRange start c = some (f, t) ∧ f ≤ n ∧ n ≤ t ∧
    ∀ rest ∈ pendingRange w.db c, rest.2 < n
  once : w.repaired.Nodup

section Runs

variable {start : Db} {w : RepairWorld} {batchSize : Nat}

variable {db : Db}

theorem RepairInv.narrow (h : RepairInv start w) (hnarrows : Narrows w.db db) :
    RepairInv start { w with db := db } where
  narrows := h.narrows.trans hnarrows
  within c n hmem := by
    obtain ⟨f, t, hstart, hfrom, hto, habove⟩ := h.within c n hmem
    refine ⟨f, t, hstart, hfrom, hto, fun rest hrest => ?_⟩
    cases hpending : pendingRange w.db c with
    | none =>
      rw [hnarrows.idle c hpending] at hrest
      cases hrest
    | some left =>
      have hleft := hnarrows.left c left.1 left.2 hpending
      rw [hrest] at hleft
      have := habove left hpending
      have := hleft.2.1
      omega
  once := h.once

theorem narrows_deferRetry (repair : SyncGapRepairTarget) (retryAt : Nat) (db : Db) :
    Narrows db (deferRetry repair retryAt db) := by
  refine .of_same (fun _ _ hc => hc) fun c => ?_
  unfold pendingRange getProgress deferRetry
  dsimp only
  rw [Table.get?_updateWhere]
  cases db.gapScans.get? c with
  | none => rfl
  | some row =>
    dsimp only [Option.map_some, Option.bind_some]
    split
    · dsimp only
      rw [Option.map_map]
      rfl
    · rfl

theorem narrows_deferAll (repairs : List SyncGapRepairTarget) (retryAt : Nat) (db : Db) :
    Narrows db (repairs.foldl (fun db repair => deferRetry repair retryAt db) db) := by
  induction repairs generalizing db with
  | nil => exact .refl db
  | cons repair rest ih => exact (narrows_deferRetry repair retryAt db).trans (ih _)

theorem reconcileRepairCoverage_zero {repair : SyncGapRepairTarget} {now : Nat} {db' : Db}
    {answer : Option SyncGapRepairCandidate} (hrepair : repair.fromBlock ≤ repair.toBlock)
    (h : Tx.Returns (reconcileRepairCoverage repair 0 now) db answer db') : db' = db := by
  have hwindow : findGap db.coverage repair.collectionId (max repair.fromBlock (repair.toBlock + 1 - 0))
      repair.toBlock 0 = none := by
    rw [Nat.sub_zero, Nat.max_eq_right (by omega), findGap]
    have hempty : coveredBlocks db.coverage repair.collectionId (repair.toBlock + 1) repair.toBlock = [] := by
      refine List.eq_nil_iff_forall_not_mem.mpr fun n hn => ?_
      obtain ⟨-, hlo, hhi⟩ := mem_coveredBlocks.mp hn
      omega
    rw [hempty, List.insertionSort_nil, findGapLoop, if_pos (Nat.le_refl _)]
  simp only [reconcileRepairCoverage, Tx.returns_writeTransaction, Tx.returns_bind, Tx.returns_get] at h
  obtain ⟨_, _, ⟨rfl, rfl⟩, h⟩ := h
  split at h
  · exact (Tx.returns_pure.mp h).2.symm
  rw [Tx.returns_ite] at h
  rcases h with ⟨-, h⟩ | ⟨-, h⟩
  swap
  · exact (Tx.returns_pure.mp h).2.symm
  rw [hwindow, Tx.returns_ite] at h
  dsimp +instances only [Option.elim_none] at h
  rcases h with ⟨hmoved, -⟩ | ⟨-, h⟩
  · omega
  · exact (Tx.returns_pure.mp h).2.symm

theorem narrows_reconcileAll (batchSize now : Nat) {repairs : List SyncGapRepairTarget}
    (hstored : ∀ repair ∈ repairs, 1 ≤ repair.fromBlock ∧ repair.fromBlock ≤ repair.toBlock) (db : Db) :
    Narrows db (reconcileAll batchSize now repairs db).2 := by
  induction repairs generalizing db with
  | nil => exact .refl db
  | cons repair rest ih =>
    rw [reconcileAll]
    split
    · next e db' hexec =>
      rw [reconcileRepairCoverage_atomic repair batchSize now db e db' hexec]
      exact .refl db
    next candidate db' hexec =>
    refine Narrows.trans ?_ (ih (fun r hr => hstored r (List.mem_cons_of_mem repair hr)) db')
    rcases Nat.eq_zero_or_pos batchSize with rfl | hbatch
    · rw [reconcileRepairCoverage_zero (hstored repair List.mem_cons_self).2 hexec]
      exact .refl _
    rcases reconcileRepairCoverage_returns hbatch (hstored repair List.mem_cons_self) hexec with
      ⟨-, rfl, -⟩ | ⟨p, hp, hholds, hreconciles⟩
    · exact .refl _
    · exact hreconciles.narrows hp hholds

theorem narrows_runGapRepair (pass : RepairPass) (planned : SyncGapRepairBatch) (w : RepairWorld) :
    Narrows w.db (runGapRepair pass planned w).2.db := by
  unfold runGapRepair
  dsimp only
  split
  · exact .refl _
  split
  · exact narrows_deferAll ..
  split
  · next hexec => exact (commitSyncRange_gapRepair hexec).narrows
  · exact narrows_deferAll ..

theorem narrows_step (batchSize : Nat) (w : RepairWorld) (event : RepairEvent) :
    Narrows w.db (w.step batchSize event).db := by
  cases event with
  | pass pass =>
    have hnarrows := narrows_reconcileAll batchSize pass.now pass.stored w.db
    rw [RepairWorld.step, repairPass]
    split
    · next e db hrun =>
      rw [hrun] at hnarrows
      exact hnarrows
    next candidates db hrun =>
    rw [hrun] at hnarrows
    split
    · exact hnarrows
    · next batch _ => exact hnarrows.trans (narrows_runGapRepair pass batch ⟨db, w.repaired⟩)
  | acquired rows =>
    refine .of_same (fun c n hc => ?_) fun _ => rfl
    have hgrows : ∀ (rows : List CoverageRow) (coverage : CoverageTable), Covered coverage c n →
        Covered (rows.foldl (fun coverage row => coverage.insertOrIgnore row) coverage) c n := by
      intro rows
      induction rows with
      | nil => exact fun _ hc => hc
      | cons row rest ih => exact fun _ hc => ih _ (Table.mem_insertOrIgnore_of_mem hc)
    exact hgrows rows w.db.coverage hc

/-- **A batch that is committed brings blocks that were pending, and leaves what lies below them.** -/
theorem RepairInv.committed (h : RepairInv start w) {batch : SyncGapRepairBatch}
    (hcommitted : BatchCommitted batch w.db db) : RepairInv start ⟨db, w.repaired ++ batch.blocks⟩ := by
  have hkept := h.narrow hcommitted.narrows
  -- A block of the batch lies in what was pending of its member, and above what is left.
  have hnew : ∀ c n, (c, n) ∈ batch.blocks → (∃ f t, pendingRange start c = some (f, t) ∧ f ≤ n ∧ n ≤ t ∧
      ∀ rest ∈ pendingRange db c, rest.2 < n) ∧ ∃ left, pendingRange w.db c = some left ∧ n ≤ left.2 := by
    intro c n hmem
    obtain ⟨⟨repair, hrepair, rfl⟩, hlo, hhi⟩ := SyncGapRepairBatch.mem_blocks.mp hmem
    obtain ⟨hfrom, hto, hpending⟩ := hcommitted.before repair hrepair
    refine ⟨?_, _, hpending, hto ▸ hhi⟩
    cases hstart : pendingRange start repair.collectionId with
    | none =>
      rw [h.narrows.idle _ hstart] at hpending
      cases hpending
    | some intent =>
      have hleft := h.narrows.left _ intent.1 intent.2 hstart
      rw [hpending] at hleft
      obtain ⟨hbegin, hend, -⟩ := hleft
      dsimp only at hbegin hend
      refine ⟨intent.1, intent.2, rfl, by omega, by omega, fun rest hrest => ?_⟩
      rw [hcommitted.after repair hrepair, remainingSyncGapRepairRange] at hrest
      split at hrest
      · cases hrest
        dsimp only
        omega
      · cases hrest
  refine ⟨hkept.narrows, fun c n hmem => ?_, ?_⟩
  · rcases List.mem_append.mp hmem with hold | hblock
    · exact hkept.within c n hold
    · exact (hnew c n hblock).1
  refine List.nodup_append.mpr ⟨h.once, SyncGapRepairBatch.blocks_nodup hcommitted.distinct, ?_⟩
  rintro ⟨c, n⟩ hold _ hblock rfl
  obtain ⟨-, -, -, -, -, habove⟩ := h.within c n hold
  obtain ⟨-, left, hpending, hle⟩ := hnew c n hblock
  exact absurd (habove left hpending) (Nat.not_lt.mpr hle)

theorem RepairInv.runGapRepair (h : RepairInv start w) (pass : RepairPass) (planned : SyncGapRepairBatch) :
    RepairInv start (Indexer.runGapRepair pass planned w).2 := by
  unfold Indexer.runGapRepair
  dsimp only
  split
  · exact h
  split
  · exact h.narrow (narrows_deferAll ..)
  split
  · next hexec => exact h.committed (commitSyncRange_gapRepair hexec)
  · exact h.narrow (narrows_deferAll ..)

theorem RepairInv.repairPass (h : RepairInv start w) (pass : RepairPass) :
    RepairInv start (Indexer.repairPass batchSize w pass).2 := by
  have hnarrows := narrows_reconcileAll batchSize pass.now pass.stored w.db
  unfold Indexer.repairPass
  split
  · next e db hexec =>
    rw [hexec] at hnarrows
    exact h.narrow hnarrows
  next candidates db hexec =>
  rw [hexec] at hnarrows
  split
  · exact h.narrow hnarrows
  · exact (h.narrow hnarrows).runGapRepair _ _

theorem RepairInv.step (h : RepairInv start w) (event : RepairEvent) :
    RepairInv start (w.step batchSize event) := by
  cases event with
  | pass pass => exact h.repairPass pass
  | acquired rows => exact h.narrow (narrows_step batchSize w (.acquired rows))

end Runs

/-! ## 6. Repairing ends -/

section Ends

variable {batchSize now : Nat}

variable {db db' : Db} {candidates : List SyncGapRepairCandidate} {pass : RepairPass}
  {repair : SyncGapRepairTarget} {batches : List SyncGapRepairBatch}

variable {w : RepairWorld} {c : CollectionId}

end Ends

end Artgod.Indexer
