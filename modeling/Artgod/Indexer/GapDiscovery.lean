/-
# Gap discovery

`SyncGapScheduler` (`application/sync-gap-scheduler.ts`) finds the blocks that were never acquired for a
collection.  Other processes write while it searches, so a search is three steps: `begin`, `find`, `finish`.
`GapsRemembered` says that the row summarises every hole up to `checked`; a lagging head can move the cursor
below holes that nobody remembers (`Overtakes`).
-/
import Artgod.Indexer.Commit

namespace Artgod.Indexer

open Store

/-! ## 1. The scheduler -/

/-- The limits of `SyncGapSchedulerOptions`, which the constructor checks. -/
structure SyncGapLimits where
  chainId : Nat
  batchSize : Nat
  windowSize : Nat
  batchSize_pos : 1 ≤ batchSize
  windowSize_pos : 1 ≤ windowSize

/-- An entry of `eligibleChecked`. -/
structure EligibleCheck where
  anchorBlock : Nat
  upperBound : Nat

/-- The fields of one `SyncGapScheduler` that its searches read or write. -/
structure GapScheduler where
  eligibleChecked : CollectionId → Option EligibleCheck
  completed : CollectionId → Option Nat
  cycleCompletedAt : Option Nat
  roundHasUnfinishedCollections : Bool
  restartFromHead : Bool

namespace GapScheduler

/-- A scheduler as constructed. -/
def initial : GapScheduler := ⟨fun _ => none, fun _ => none, none, false, false⟩

def setEligible (s : GapScheduler) (c : CollectionId) (check : EligibleCheck) : GapScheduler :=
  { s with eligibleChecked := fun d => if d = c then some check else s.eligibleChecked d }

def setCompleted (s : GapScheduler) (c : CollectionId) (anchor : Option Nat) : GapScheduler :=
  { s with completed := fun d => if d = c then anchor else s.completed d }

def resetDiscovery (s : GapScheduler) : GapScheduler :=
  { s with
    completed := fun _ => none
    cycleCompletedAt := none
    roundHasUnfinishedCollections := false
    restartFromHead := true
    eligibleChecked := fun _ => none }

/-- The end of `scanPage`: a round over all collections is done. -/
def finishRound (s : GapScheduler) (now : Nat) : GapScheduler :=
  { s with
    restartFromHead := false
    cycleCompletedAt :=
      if s.roundHasUnfinishedCollections then s.cycleCompletedAt
      else some (s.cycleCompletedAt.getD now)
    roundHasUnfinishedCollections := false }

end GapScheduler

section

variable (limits : SyncGapLimits)

/-- `progressForGap`.  Blocks are at least the anchor, which is at least 1. -/
def progressForGap (c : CollectionId) (anchorBlock : Nat)
    (gap : Option (Nat × Nat)) (lastHeadCheckAt : Option Nat) (scannedFromBlock : Nat)
    (randomUUID : String) (now : Nat) : SyncGapProgress :=
  let nextCursor := gap.elim scannedFromBlock (·.1) - 1
  { anchorBlock := anchorBlock
    cursorBlock := if nextCursor < anchorBlock then none else some nextCursor
    pending := gap.map (fun g =>
      ⟨s!"sync:gap:{limits.chainId}:{c}:{randomUUID}", g.1, g.2, now⟩)
    lastHeadCheckAt := lastHeadCheckAt }

/-- The three searches, with the head or upper bound they are given. -/
inductive GapCall where
  | scanCollection (headBlock : Nat)
  | retainNewestGap (headBlock : Nat)
  | checkEligibleCollection (upperBound : Nat)

def GapCall.bound : GapCall → Nat
  | .scanCollection head => head
  | .retainNewestGap head => head
  | .checkEligibleCollection upper => upper

/-- A search in flight: the row it read and the window it looks at. -/
structure GapSearch where
  call : GapCall
  collectionId : CollectionId
  anchorBlock : Nat
  expected : Option SyncGapProgress
  /-- The cursor a scan continues from; a scan without one begins at the head. -/
  cursor : Option Nat
  fromBlock : Nat
  toBlock : Nat

/-- The end of `scanCollection`: the cycle is done with a collection that has no cursor left. -/
def noteScanned (s : GapScheduler) (c : CollectionId) (anchor : Nat) (progress : SyncGapProgress) :
    GapScheduler :=
  match progress.cursorBlock with
  | none => s.setCompleted c (some anchor)
  | some _ => { s with roundHasUnfinishedCollections := true, cycleCompletedAt := none }

/-- A row of another anchor, or none, restarts the collection's search. -/
def noteAnchor (s : GapScheduler) (c : CollectionId) (known : Option SyncGapProgress) :
    GapScheduler :=
  match known with
  | some _ => s
  | none => { s.setCompleted c none with cycleCompletedAt := none }

/-- `scanCollection` up to its search. -/
def beginScan (s : GapScheduler) (c : CollectionId) (window : Nat × Nat)
    (headBlock : Nat) (expected : Option SyncGapProgress) : GapScheduler × Option GapSearch :=
  let known := expected.filter (fun p => p.anchorBlock = window.1)
  let s := noteAnchor s c known
  let progress := known.getD ⟨window.1, none, none, none⟩
  if s.completed c = some window.1 then (s, none)
  else
    match progress.pending with
    | some _ => (noteScanned s c window.1 progress, none)
    | none =>
      let cursor := if s.restartFromHead then none else progress.cursorBlock
      let last := min (cursor.getD headBlock) headBlock
      (s, some
        { call := .scanCollection headBlock
          collectionId := c
          anchorBlock := window.1
          expected := expected
          cursor := cursor
          fromBlock := max window.1 (last + 1 - limits.windowSize)
          toBlock := last })

/-- `retainNewestGap` up to its search. -/
def beginRetain (c : CollectionId) (window : Nat × Nat) (headBlock : Nat)
    (expected : Option SyncGapProgress) : Option GapSearch :=
  match expected with
  | none => none
  | some e =>
    if e.anchorBlock ≠ window.1 then none
    else
      -- `pending.toBlock ?? cursorBlock ?? anchor - 1`, plus one
      let next := match e.pending with
        | some r => r.toBlock + 1
        | none => e.cursorBlock.elim window.1 (· + 1)
      some
        { call := .retainNewestGap headBlock
          collectionId := c
          anchorBlock := window.1
          expected := expected
          cursor := none
          fromBlock := max window.1 next
          toBlock := headBlock }

/-- `checkEligibleCollection` up to its search. -/
def beginEligible (s : GapScheduler) (c : CollectionId) (window : Nat × Nat) (upperBound : Nat)
    (expected : Option SyncGapProgress) : Option GapSearch :=
  let checked := (s.eligibleChecked c).filter (fun e => e.anchorBlock = window.1)
  if checked.any (fun e => decide (upperBound ≤ e.upperBound)) then none
  else
    match expected with
    | none => none
    | some e =>
      if e.anchorBlock ≠ window.1 then none
      else
        match checked with
        -- nothing is known yet: check from the row, as on resume
        | none => beginRetain c window upperBound expected
        | some last =>
          some
            { call := .checkEligibleCollection upperBound
              collectionId := c
              anchorBlock := window.1
              expected := expected
              cursor := none
              fromBlock := max window.1
                (max (last.upperBound + 1) (e.pending.elim 0 (·.toBlock) + 1))
              toBlock := upperBound }

/-- Begin a call: what it does before it searches, and the search, if there is one. -/
def beginCall (s : GapScheduler) (call : GapCall)
    (collection : CollectionRecord) (expected : Option SyncGapProgress) :
    GapScheduler × Option GapSearch :=
  match collection.gapRepairWindow call.bound with
  | none => (s, none)
  | some window =>
    match call with
    | .scanCollection head => beginScan limits s collection.id window head expected
    | .retainNewestGap head => (s, beginRetain collection.id window head expected)
    | .checkEligibleCollection upper =>
      (s, beginEligible s collection.id window upper expected)

/-- The search itself. -/
def GapSearch.find (search : GapSearch) (coverage : CoverageTable) :
    Option (Nat × Nat) :=
  match search.call with
  | .scanCollection _ =>
    findGap coverage search.collectionId search.fromBlock search.toBlock limits.batchSize
  | _ =>
    if search.fromBlock ≤ search.toBlock then
      findNewestGap coverage search.collectionId search.fromBlock search.toBlock limits.batchSize
    else none

/-- The row a call saves after its search; a covered strip of eligible blocks saves none. -/
def GapSearch.progress (search : GapSearch) (gap : Option (Nat × Nat))
    (randomUUID : String) (now : Nat) : Option SyncGapProgress :=
  let forGap (lastHeadCheckAt : Option Nat) :=
    progressForGap limits search.collectionId search.anchorBlock gap lastHeadCheckAt
      search.fromBlock randomUUID now
  match search.call with
  | .scanCollection _ =>
    match search.cursor with
    | none => some (forGap (some now))
    | some _ =>
      some (forGap ((search.expected.filter
        (fun p => p.anchorBlock = search.anchorBlock)).bind (·.lastHeadCheckAt)))
  | .retainNewestGap _ =>
    match gap with
    | some _ => some (forGap (some now))
    | none => search.expected.map (fun e => { e with lastHeadCheckAt := some now })
  | .checkEligibleCollection _ =>
    match gap with
    | some _ => some (forGap (search.expected.bind (·.lastHeadCheckAt)))
    | none => none

end

/-- The bound a call records as checked when it succeeds. -/
def GapSearch.recorded (search : GapSearch) : Option Nat :=
  match search.call with
  | .scanCollection head => if search.cursor = none then some head else none
  | .retainNewestGap head => some head
  | .checkEligibleCollection upper => some upper

/-- What the scheduler notes after its save returned `saved`. -/
def noteSaved (s : GapScheduler) (search : GapSearch) (gap : Option (Nat × Nat))
    (progress : Option SyncGapProgress) (saved : Bool) : GapScheduler :=
  let c := search.collectionId
  if saved then
    let s := match search.recorded with
      | some upper => s.setEligible c ⟨search.anchorBlock, upper⟩
      | none => s
    match search.call with
    | .scanCollection _ =>
      match progress with
      | some p => noteScanned s c search.anchorBlock p
      | none => s
    | .retainNewestGap _ =>
      match gap with
      | some _ => { s.setCompleted c none with cycleCompletedAt := none }
      | none =>
        if search.expected.any (fun e => e.pending = none && e.cursorBlock = none) then
          s.setCompleted c (some search.anchorBlock)
        else s
    | .checkEligibleCollection _ =>
      match gap with
      | some _ => { s.setCompleted c none with cycleCompletedAt := none }
      | none => s
  else
    match search.call with
    | .scanCollection _ => { s with roundHasUnfinishedCollections := true }
    | _ => s

/-! ## 2. Runs -/

/-- The stored bootstrap anchor of a collection. -/
def anchorOf (db : Db) (c : CollectionId) : Option Nat :=
  (db.collections.get? c).bind (·.bootstrapAnchorBlock)

/-- A search, and what it found once it has looked. -/
structure GapFlight where
  search : GapSearch
  found : Option (Option (Nat × Nat))

/-- The database, the schedulers of any number of processes, and for each collection the highest
bound that a scheduler recorded as checked (a ghost value). -/
structure GapWorld where
  db : Db
  schedulers : Nat → GapScheduler
  flights : Nat → Option GapFlight
  checked : CollectionId → Nat

/-- No collection has a progress row yet; coverage and collections are anything. -/
def GapWorld.initial (db : Db) : GapWorld where
  db := { db with gapScans := .empty }
  schedulers := fun _ => .initial
  flights := fun _ => none
  checked := fun _ => 0

inductive GapEvent where
  | begin (p : Nat) (call : GapCall) (collection : CollectionRecord)
  | find (p : Nat)
  | finish (p : Nat) (randomUUID : String) (now : Nat)
  | resetDiscovery (p : Nat)
  | finishRound (p now : Nat)
  | restart (p : Nat)
  | commit (input : SyncRangeCommit)
  | reconcile (repair : SyncGapRepairTarget) (now : Nat)
  | deferRetry (repair : SyncGapRepairTarget) (retryAt : Nat)
  | other (db : Db)

namespace GapWorld

def setScheduler (w : GapWorld) (p : Nat) (s : GapScheduler) : GapWorld :=
  { w with schedulers := fun q => if q = p then s else w.schedulers q }

def setFlight (w : GapWorld) (p : Nat) (f : Option GapFlight) : GapWorld :=
  { w with flights := fun q => if q = p then f else w.flights q }

/-- Raise the ghost value of a collection. -/
def note (w : GapWorld) (c : CollectionId) (upper : Option Nat) : GapWorld :=
  { w with
    checked := fun d => if d = c then max (w.checked d) (upper.getD 0) else w.checked d }

/-- The save of a search in flight, and what follows it. -/
def finish (limits : SyncGapLimits) (w : GapWorld) (p : Nat) (search : GapSearch)
    (gap : Option (Nat × Nat)) (randomUUID : String) (now : Nat) : GapWorld :=
  let progress := search.progress limits gap randomUUID now
  let outcome : Except SyncError Bool × Db := match progress with
    | some next => (saveProgress search.collectionId search.expected next).exec w.db
    | none => (.ok true, w.db)
  match outcome with
  | (.ok saved, db) =>
    (({ w with db := db }.setScheduler p
      (noteSaved (w.schedulers p) search gap progress saved)).setFlight p none).note
        search.collectionId (if saved then search.recorded else none)
  -- the callers log the error and go on with the next collection
  | (.error _, _) => w.setFlight p none

end GapWorld

/-- Writes of other code: coverage may grow, collections keep their anchors, and the progress rows
are left alone. -/
def Db.KeepsGaps (db d : Db) : Prop :=
  d.gapScans = db.gapScans ∧ (∀ r ∈ db.coverage.rows, r ∈ d.coverage.rows) ∧
    d.collections.rows.map (fun c => (c.id, c.bootstrapAnchorBlock)) =
      db.collections.rows.map (fun c => (c.id, c.bootstrapAnchorBlock))

instance (db d : Db) : Decidable (db.KeepsGaps d) := by
  unfold Db.KeepsGaps
  infer_instance

/-- One event.  A search begins when its process is idle, for a collection whose anchor is the
stored one. -/
def gapStep (limits : SyncGapLimits) (w : GapWorld) : GapEvent → GapWorld
  | .begin p call collection =>
    match w.flights p with
    | some _ => w
    | none =>
      if anchorOf w.db collection.id = collection.bootstrapAnchorBlock then
        let out := beginCall limits (w.schedulers p) call collection
          (getProgress w.db collection.id)
        (w.setScheduler p out.1).setFlight p (out.2.map (⟨·, none⟩))
      else w
  | .find p =>
    match w.flights p with
    | some ⟨search, none⟩ => w.setFlight p (some ⟨search, some (search.find limits w.db.coverage)⟩)
    | _ => w
  | .finish p randomUUID now =>
    match w.flights p with
    | some ⟨search, some gap⟩ => w.finish limits p search gap randomUUID now
    | _ => w
  | .resetDiscovery p => w.setScheduler p (w.schedulers p).resetDiscovery
  | .finishRound p now => w.setScheduler p ((w.schedulers p).finishRound now)
  | .restart p => (w.setScheduler p .initial).setFlight p none
  | .commit input => { w with db := ((commitSyncRange input).exec w.db).2 }
  | .reconcile repair now =>
    { w with db := ((reconcileRepairCoverage repair limits.batchSize now).exec w.db).2 }
  | .deferRetry repair retryAt => { w with db := deferRetry repair retryAt w.db }
  | .other d => if w.db.KeepsGaps d then { w with db := d } else w

/-- A run of events. -/
def gapRun (limits : SyncGapLimits) (w : GapWorld) (events : List GapEvent) : GapWorld :=
  events.foldl (gapStep limits) w

/-- **The row remembers every hole.**  For a live collection with a progress row, an uncovered block
between the anchor and the highest checked bound is at most the cursor or inside the pending
range. -/
def GapsRemembered (w : GapWorld) : Prop :=
  ∀ collection ∈ w.db.collections, collection.status = .live →
    ∀ anchor, collection.bootstrapAnchorBlock = some anchor →
      ∀ p, getProgress w.db collection.id = some p →
        ∀ n, anchor ≤ n → n ≤ w.checked collection.id →
          ¬ Covered w.db.coverage collection.id n →
          (∃ k ∈ p.cursorBlock, n ≤ k) ∨ ∃ r ∈ p.pending, r.fromBlock ≤ n ∧ n ≤ r.toBlock

/-- The save would replace a row without a pending repair whose cursor is above the head that the
scan, or the check of eligible blocks, was given. -/
def GapSearch.Overtakes (search : GapSearch) (db : Db) (gap : Option (Nat × Nat)) : Prop :=
  getProgress db search.collectionId = search.expected ∧
    (∃ e ∈ search.expected, e.pending = none ∧ ∃ k ∈ e.cursorBlock, search.call.bound < k) ∧
    match search.call with
    | .scanCollection _ => True
    | .retainNewestGap _ => False
    | .checkEligibleCollection _ => gap ≠ none

/-- The event is such a save. -/
def GapEvent.Overtakes (w : GapWorld) : GapEvent → Prop
  | .finish p _ _ => ∃ search gap, w.flights p = some ⟨search, some gap⟩ ∧ search.Overtakes w.db gap
  | _ => False

/-- No event of the run is such a save. -/
def NeverOvertakes (limits : SyncGapLimits) : GapWorld → List GapEvent → Prop
  | _, [] => True
  | w, e :: rest => ¬ e.Overtakes w ∧ NeverOvertakes limits (gapStep limits w e) rest

/-! ## 3. One row -/

/-- The block is at most the cursor, or inside the pending range. -/
def SyncGapProgress.Mentions (p : SyncGapProgress) (n : Nat) : Prop :=
  (∃ k ∈ p.cursorBlock, n ≤ k) ∨ ∃ r ∈ p.pending, r.fromBlock ≤ n ∧ n ≤ r.toBlock

/-- What a row satisfies when its collection was checked up to `bound`. -/
structure RowInv (coverage : CoverageTable) (c : CollectionId) (bound : Nat)
    (p : SyncGapProgress) : Prop where
  remembers : ∀ n, p.anchorBlock ≤ n → n ≤ bound → ¬ Covered coverage c n → p.Mentions n
  cursor_le : ∀ k ∈ p.cursorBlock, k ≤ bound
  pending_le : ∀ r ∈ p.pending, r.fromBlock ≤ r.toBlock ∧ r.toBlock ≤ bound
  cursor_lt : ∀ k ∈ p.cursorBlock, ∀ r ∈ p.pending, k < r.fromBlock

/-- What is left of a search's answer when coverage has grown since. -/
def Found (coverage : CoverageTable) (c : CollectionId) (lower upper : Nat) :
    Option (Nat × Nat) → Prop
  | none => ∀ n, lower ≤ n → n ≤ upper → Covered coverage c n
  | some gap => lower ≤ gap.1 ∧ gap.1 ≤ gap.2 ∧ gap.2 ≤ upper ∧
      ∀ n, gap.2 < n → n ≤ upper → Covered coverage c n

variable {w : GapWorld} {c : CollectionId} {limits : SyncGapLimits} {coverage : CoverageTable}
  {db : Db} {lower now upper : Nat} {search : GapSearch} {gap : Option (Nat × Nat)} {uuid : String}
  {p : SyncGapProgress} {s : GapScheduler} {checkedAt : Option Nat}

theorem Found.of_answer {size : Nat} :
    ∀ {gap : Option (Nat × Nat)}, GapAnswer coverage c lower upper size gap →
      Found coverage c lower upper gap
  | none, h => h
  | some _, h => ⟨h.1.lower_le, h.1.ordered, h.1.le_upper, h.1.above⟩

theorem Found.mono {coverage' : CoverageTable}
    (hcov : ∀ n, Covered coverage c n → Covered coverage' c n) :
    ∀ {gap : Option (Nat × Nat)}, Found coverage c lower upper gap →
      Found coverage' c lower upper gap
  | none, h => fun n h₁ h₂ => hcov n (h n h₁ h₂)
  | some _, ⟨h₁, h₂, h₃, h₄⟩ => ⟨h₁, h₂, h₃, fun n h₅ h₆ => hcov n (h₄ n h₅ h₆)⟩

theorem GapSearch.find_found :
    Found coverage search.collectionId search.fromBlock search.toBlock
      (search.find limits coverage) := by
  have hnewest : Found coverage search.collectionId search.fromBlock search.toBlock
      (if search.fromBlock ≤ search.toBlock then
        findNewestGap coverage search.collectionId search.fromBlock search.toBlock limits.batchSize
      else none) := by
    split
    · exact .of_answer (findNewestGap_answer limits.batchSize_pos)
    · next hlt =>
      intro n h₁ h₂
      omega
  rw [GapSearch.find]
  cases search.call with
  | scanCollection head => exact .of_answer (findGap_answer limits.batchSize_pos)
  | retainNewestGap head => exact hnewest
  | checkEligibleCollection upper => exact hnewest

/-- **The row written for a search remembers everything up to the end of its window**: below the
range found the cursor, above it coverage. -/
theorem progressForGap_inv {anchor : Nat} (hanchor : 1 ≤ anchor) (hlower : anchor ≤ lower)
    (hupper : lower = anchor ∨ lower ≤ upper)
    (h : Found coverage c lower upper gap) :
    RowInv coverage c upper (progressForGap limits c anchor gap checkedAt lower uuid now) := by
  have hcursor : ∀ k,
      k ∈ (progressForGap limits c anchor gap checkedAt lower uuid now).cursorBlock ↔
        anchor ≤ k ∧ k = gap.elim lower (·.1) - 1 := by
    intro k
    simp only [progressForGap, Option.mem_def]
    split
    · simp only [reduceCtorEq, false_iff]
      omega
    · simp only [Option.some.injEq]
      omega
  cases gap with
  | none =>
    refine ⟨?_, ?_, by simp [progressForGap], by simp [progressForGap]⟩
    · intro n hn hle hunc
      refine Or.inl ⟨lower - 1, (hcursor _).mpr ⟨?_, rfl⟩, ?_⟩
      all_goals
        change anchor ≤ n at hn
        have : n < lower := Nat.lt_of_not_le (fun hge => hunc (h n hge hle))
        omega
    · intro k hk
      obtain ⟨h₁, h₂⟩ := (hcursor k).mp hk
      simp only [Option.elim_none] at h₂
      omega
  | some g =>
    obtain ⟨hg₁, hg₂, hg₃, habove⟩ := h
    have hpending : ∀ r,
        r ∈ (progressForGap limits c anchor (some g) checkedAt lower uuid now).pending →
          r.fromBlock = g.1 ∧ r.toBlock = g.2 := by
      intro r hr
      simp only [progressForGap, Option.map_some, Option.mem_some_iff] at hr
      exact hr ▸ ⟨rfl, rfl⟩
    refine ⟨?_, ?_, ?_, ?_⟩
    · intro n hn hle hunc
      change anchor ≤ n at hn
      have hng : n ≤ g.2 := Nat.le_of_not_lt (fun hgt => hunc (habove n hgt hle))
      rcases Nat.lt_or_ge n g.1 with hlt | hge
      · exact Or.inl ⟨g.1 - 1, (hcursor _).mpr ⟨by omega, rfl⟩, by omega⟩
      · exact Or.inr ⟨_, rfl, hge, hng⟩
    · intro k hk
      obtain ⟨h₁, h₂⟩ := (hcursor k).mp hk
      simp only [Option.elim_some] at h₂
      omega
    · intro r hr
      obtain ⟨h₁, h₂⟩ := hpending r hr
      omega
    · intro k hk r hr
      obtain ⟨h₁, h₂⟩ := (hcursor k).mp hk
      obtain ⟨h₃, -⟩ := hpending r hr
      simp only [Option.elim_some] at h₂
      omega

theorem RowInv.raise {bound bound' : Nat}
    (h : RowInv coverage c bound p) (hle : bound ≤ bound')
    (hcov : ∀ n, p.anchorBlock ≤ n → bound < n → n ≤ bound' → Covered coverage c n) :
    RowInv coverage c bound' p where
  remembers n hn hnb hunc := by
    rcases Nat.lt_or_ge bound n with hlt | hge
    · exact absurd (hcov n hn hlt hnb) hunc
    · exact h.remembers n hn hge hunc
  cursor_le k hk := Nat.le_trans (h.cursor_le k hk) hle
  pending_le r hr := ⟨(h.pending_le r hr).1, Nat.le_trans (h.pending_le r hr).2 hle⟩
  cursor_lt := h.cursor_lt

theorem RowInv.mono {coverage' : CoverageTable} {bound : Nat}
    (hcov : ∀ n, Covered coverage c n → Covered coverage' c n)
    (h : RowInv coverage c bound p) : RowInv coverage' c bound p :=
  { h with remembers := fun n h₁ h₂ hunc => h.remembers n h₁ h₂ (fun hc => hunc (hcov n hc)) }

theorem RowInv.advance {coverage : CoverageTable} {c : CollectionId} {bound retryAt : Nat}
    {p : SyncGapProgress} {repair : SyncGapRepairTarget} {remaining : Option (Nat × Nat)}
    (h : RowInv coverage c bound p) (hholds : p.holds repair = true)
    (hst : (p.advance repair.repairId remaining retryAt).Storable)
    (hrest : RepairedTo coverage c repair.fromBlock repair.toBlock remaining) :
    RowInv coverage c bound (p.advance repair.repairId remaining retryAt) := by
  obtain ⟨-, q, hq, -, hqf, hqt⟩ := SyncGapProgress.holds_iff.mp hholds
  have hqle := (h.pending_le q hq).2
  -- what the old range mentioned is in the new one or covered
  have hkeep : ∀ n, ¬ Covered coverage c n → p.Mentions n →
      (p.advance repair.repairId remaining retryAt).Mentions n := by
    intro n hunc hn
    rcases hn with hcur | ⟨r, hr, hlo, hhi⟩
    · exact Or.inl hcur
    rw [hq, Option.mem_some_iff] at hr
    subst hr
    cases remaining with
    | none => exact absurd (hrest n (by omega) (by omega)) hunc
    | some rest =>
      obtain ⟨h₁, h₂, h₃⟩ := hrest
      refine Or.inr ⟨_, rfl, ?_, ?_⟩
      · simp only
        omega
      · exact Nat.le_of_not_lt (fun hgt => hunc (h₃ n hgt (by omega)))
  have hpending : ∀ r ∈ (p.advance repair.repairId remaining retryAt).pending,
      r.fromBlock = q.fromBlock ∧ r.toBlock ≤ q.toBlock := by
    intro r hr
    cases remaining with
    | none => exact absurd hr (by simp [SyncGapProgress.advance])
    | some rest =>
      obtain ⟨h₁, h₂, -⟩ := hrest
      simp only [SyncGapProgress.advance, Option.map_some, Option.mem_some_iff] at hr
      subst hr
      simp only
      omega
  refine ⟨fun n hn hle hunc => hkeep n hunc (h.remembers n hn hle hunc), h.cursor_le, ?_, ?_⟩
  · intro r hr
    obtain ⟨h₁, h₂⟩ := hpending r hr
    exact ⟨(hst.2.2 r hr).2, by omega⟩
  · intro k hk r hr
    obtain ⟨h₁, -⟩ := hpending r hr
    have := h.cursor_lt k hk q hq
    omega

/-! ## 4. The invariant of a run -/

/-- What a search in flight knows.  `bound` is how far its collection was checked. -/
structure FlightInv (db : Db) (bound : Nat) (f : GapFlight) : Prop where
  anchor : anchorOf db f.search.collectionId = some f.search.anchorBlock
  anchor_pos : 1 ≤ f.search.anchorBlock
  window : f.search.anchorBlock ≤ f.search.fromBlock
  expected : ∀ e ∈ f.search.expected, e.anchorBlock = f.search.anchorBlock ∧
    (getProgress db f.search.collectionId).isSome = true
  call : match f.search.call with
    | .scanCollection head =>
      (∀ e ∈ f.search.expected, e.pending = none) ∧
        f.search.toBlock = min (f.search.cursor.getD head) head ∧
        (f.search.fromBlock = f.search.anchorBlock ∨ f.search.fromBlock ≤ f.search.toBlock) ∧
        ∀ k ∈ f.search.cursor, ∃ e ∈ f.search.expected, k ∈ e.cursorBlock
    | .retainNewestGap head =>
      f.search.toBlock = head ∧ ∃ e, f.search.expected = some e ∧
        (∀ n, e.Mentions n → n < f.search.fromBlock) ∧ f.search.fromBlock ≤ max f.search.anchorBlock
          (bound + 1)
    | .checkEligibleCollection upper =>
      f.search.toBlock = upper ∧ ∃ e, f.search.expected = some e ∧
        (∀ r ∈ e.pending, ∀ n, e.Mentions n → n < f.search.fromBlock) ∧
        f.search.fromBlock ≤ max f.search.anchorBlock (bound + 1)
  found : ∀ gap ∈ f.found, Found db.coverage f.search.collectionId f.search.fromBlock
    f.search.toBlock gap

/-- What holds after every event. -/
structure GapInv (w : GapWorld) : Prop where
  anchors : ∀ c p, getProgress w.db c = some p → anchorOf w.db c = some p.anchorBlock
  rows : ∀ c p, getProgress w.db c = some p → RowInv w.db.coverage c (w.checked c) p
  unchecked : ∀ c, getProgress w.db c = none → w.checked c = 0
  eligible : ∀ q c e, (w.schedulers q).eligibleChecked c = some e → e.upperBound ≤ w.checked c
  flights : ∀ q f, w.flights q = some f → FlightInv w.db (w.checked f.search.collectionId) f

theorem FlightInv.mono {db' : Db} {bound bound' : Nat} {f : GapFlight}
    (h : FlightInv db bound f) (hbound : bound ≤ bound')
    (hanchor : ∀ c, anchorOf db' c = anchorOf db c)
    (hcov : ∀ c n, Covered db.coverage c n → Covered db'.coverage c n)
    (hrow : ∀ c, (getProgress db c).isSome = true → (getProgress db' c).isSome = true) :
    FlightInv db' bound' f where
  anchor := by rw [hanchor]; exact h.anchor
  anchor_pos := h.anchor_pos
  window := h.window
  expected e he := ⟨(h.expected e he).1, hrow _ (h.expected e he).2⟩
  call := by
    have hcall := h.call
    cases hc : f.search.call with
    | scanCollection head => rw [hc] at hcall; exact hcall
    | retainNewestGap head =>
      rw [hc] at hcall
      obtain ⟨hto, e, he, hm, hfrom⟩ := hcall
      exact ⟨hto, e, he, hm, by omega⟩
    | checkEligibleCollection upper =>
      rw [hc] at hcall
      obtain ⟨hto, e, he, hm, hfrom⟩ := hcall
      exact ⟨hto, e, he, hm, by omega⟩
  found gap hgap := (h.found gap hgap).mono (hcov _)

theorem GapInv.keeps (h : GapInv w) {d : Db}
    (hrows : ∀ c, getProgress d c = getProgress w.db c)
    (hanchor : ∀ c, anchorOf d c = anchorOf w.db c)
    (hcov : ∀ c n, Covered w.db.coverage c n → Covered d.coverage c n) :
    GapInv { w with db := d } where
  anchors c p hp := by
    rw [hanchor]
    exact h.anchors c p (hrows c ▸ hp)
  rows c p hp := (h.rows c p (hrows c ▸ hp)).mono (hcov c)
  unchecked c hc := h.unchecked c (hrows c ▸ hc)
  eligible := h.eligible
  flights q f hf := (h.flights q f hf).mono (Nat.le_refl _) hanchor hcov
    (fun c hc => by rw [hrows]; exact hc)

theorem GapInv.repair (h : GapInv w) {d : Db} (hstep : RepairStep w.db d) :
    GapInv { w with db := d } := by
  cases hstep with
  | @advance repair p remaining retryAt hp hholds hst hrest =>
    have hget : ∀ c, getProgress (setProgress w.db repair.collectionId
        (p.advance repair.repairId remaining retryAt)) c =
        if c = repair.collectionId then some (p.advance repair.repairId remaining retryAt)
        else getProgress w.db c := by
      intro c
      rw [getProgress_setProgress, hp]
      rfl
    refine ⟨?_, ?_, ?_, h.eligible, ?_⟩
    · intro c q hq
      simp only [hget] at hq
      split at hq
      · next hc =>
        rw [Option.some.injEq] at hq
        subst hq hc
        exact h.anchors _ p hp
      · exact h.anchors c q hq
    · intro c q hq
      simp only [hget] at hq
      split at hq
      · next hc =>
        rw [Option.some.injEq] at hq
        subst hq hc
        exact (h.rows _ p hp).advance hholds hst hrest
      · exact h.rows c q hq
    · intro c hc
      simp only [hget] at hc
      split at hc
      · exact absurd hc (by simp)
      · exact h.unchecked c hc
    · intro q f hf
      refine (h.flights q f hf).mono (Nat.le_refl _) (fun _ => rfl) (fun _ _ hn => hn) ?_
      intro c hc
      simp only [hget]
      split
      · rfl
      · exact hc

theorem GapInv.repairs (h : GapInv w) {d : Db}
    (hsteps : Relation.ReflTransGen RepairStep w.db d) : GapInv { w with db := d } := by
  induction hsteps with
  | refl => exact h
  | tail _ hstep ih => exact GapInv.repair ih hstep

theorem GapInv.commit {w : GapWorld} (h : GapInv w) (input : SyncRangeCommit) :
    GapInv { w with db := ((commitSyncRange input).exec w.db).2 } := by
  rcases (commitSyncRange_atomic input).cases w.db with ⟨u, hret⟩ | hsame
  · obtain ⟨db₁, outbox, hpersist, hcomplete⟩ := commitSyncRange_effect hret
    -- the facts first: rows and anchors stay, coverage grows
    have hpersisted : GapInv { w with db := { db₁ with outbox := outbox } } := by
      refine h.keeps ?_ ?_ ?_
      · intro c
        rw [hpersist.rest]
        rfl
      · intro c
        rw [hpersist.rest]
        rfl
      · intro c n hn
        simp only [Covered, hpersist.coverage, mem_persistCollectionSyncBlocks]
        exact Or.inl hn
    rw [CompletionEffect.eq_def] at hcomplete
    split at hcomplete
    · rw [hcomplete]
      exact hpersisted
    · exact GapInv.repairs hpersisted hcomplete.2
    · obtain ⟨-, -, current, -, -, -, hdb⟩ := hcomplete
      rw [hdb]
      exact GapInv.keeps hpersisted (fun _ => rfl) (fun _ => rfl) (fun _ _ hn => hn)
  · rw [hsame]
    exact h

theorem GapInv.reconcile (h : GapInv w) (limits : SyncGapLimits)
    (repair : SyncGapRepairTarget) (now : Nat) :
    GapInv { w with db := ((reconcileRepairCoverage repair limits.batchSize now).exec w.db).2 } := by
  rcases (reconcileRepairCoverage_atomic repair limits.batchSize now).cases w.db with
    ⟨answer, hret⟩ | hsame
  · rcases reconcileRepairCoverage_effect limits.batchSize_pos hret with hsame | hstep
    · rw [hsame]
      exact h
    · exact h.repair hstep
  · rw [hsame]
    exact h

theorem getProgress_deferRetry {repair : SyncGapRepairTarget} {retryAt : Nat}
    :
    getProgress (deferRetry repair retryAt db) c = getProgress db c ∨
      ∃ p, getProgress db c = some p ∧ getProgress (deferRetry repair retryAt db) c =
        some { p with pending := p.pending.map (fun q => { q with retryAt := retryAt }) } := by
  simp only [getProgress, deferRetry, Table.get?_updateWhere]
  cases db.gapScans.get? c with
  | none => exact Or.inl rfl
  | some r =>
    simp only [Option.map_some]
    split
    · exact Or.inr ⟨_, rfl, rfl⟩
    · exact Or.inl rfl

theorem RowInv.deferRetry {bound retryAt : Nat}
    (h : RowInv coverage c bound p) :
    RowInv coverage c bound
      { p with pending := p.pending.map (fun q => { q with retryAt := retryAt }) } := by
  have hpending : ∀ r ∈ p.pending.map (fun q => { q with retryAt := retryAt }),
      ∃ q ∈ p.pending, r.fromBlock = q.fromBlock ∧ r.toBlock = q.toBlock := by
    intro r hr
    obtain ⟨q, hq, rfl⟩ := Option.map_eq_some_iff.mp hr
    exact ⟨q, hq, rfl, rfl⟩
  refine ⟨?_, h.cursor_le, ?_, ?_⟩
  · intro n hn hle hunc
    rcases h.remembers n hn hle hunc with hcur | ⟨r, hr, hlo, hhi⟩
    · exact Or.inl hcur
    · exact Or.inr ⟨{ r with retryAt := retryAt }, Option.map_eq_some_iff.mpr ⟨r, hr, rfl⟩, hlo, hhi⟩
  · intro r hr
    obtain ⟨q, hq, h₁, h₂⟩ := hpending r hr
    have := h.pending_le q hq
    omega
  · intro k hk r hr
    obtain ⟨q, hq, h₁, -⟩ := hpending r hr
    have := h.cursor_lt k hk q hq
    omega

theorem GapInv.deferRetry (h : GapInv w) (repair : SyncGapRepairTarget)
    (retryAt : Nat) : GapInv { w with db := Artgod.Indexer.deferRetry repair retryAt w.db } := by
  refine ⟨?_, ?_, ?_, h.eligible, ?_⟩
  · intro c p hp
    rcases getProgress_deferRetry with hsame | ⟨q, hq, hnew⟩
    · exact h.anchors c p (hsame ▸ hp)
    · rw [hnew, Option.some.injEq] at hp
      subst hp
      exact h.anchors c q hq
  · intro c p hp
    rcases getProgress_deferRetry with hsame | ⟨q, hq, hnew⟩
    · exact h.rows c p (hsame ▸ hp)
    · rw [hnew, Option.some.injEq] at hp
      subst hp
      exact (h.rows c q hq).deferRetry
  · intro c hc
    rcases getProgress_deferRetry with hsame | ⟨q, hq, hnew⟩
    · exact h.unchecked c (hsame ▸ hc)
    · rw [hnew] at hc
      exact absurd hc (by simp)
  · intro q f hf
    refine (h.flights q f hf).mono (Nat.le_refl _) (fun _ => rfl) (fun _ _ hn => hn) ?_
    intro c hc
    rcases getProgress_deferRetry with hsame | ⟨p, hp, hnew⟩
    · rw [hsame]
      exact hc
    · rw [hnew]
      rfl

/-! ## 5. Beginning a search -/

theorem noteScanned_eligible {anchor : Nat}
    {progress : SyncGapProgress} :
    (noteScanned s c anchor progress).eligibleChecked = s.eligibleChecked := by
  rw [noteScanned]
  cases progress.cursorBlock <;> rfl

theorem beginScan_eligible {window : Nat × Nat} {head : Nat} {expected : Option SyncGapProgress} :
    (beginScan limits s c window head expected).1.eligibleChecked = s.eligibleChecked := by
  have heq : ∀ known, (noteAnchor s c known).eligibleChecked = s.eligibleChecked := by
    intro known
    cases known <;> rfl
  simp only [beginScan]
  split
  · exact heq _
  split
  · rw [noteScanned_eligible]
    exact heq _
  · exact heq _

theorem beginCall_eligible {call : GapCall}
    {collection : CollectionRecord} {expected : Option SyncGapProgress} :
    (beginCall limits s call collection expected).1.eligibleChecked = s.eligibleChecked := by
  rw [beginCall]
  split
  · rfl
  cases call with
  | scanCollection head => exact beginScan_eligible
  | retainNewestGap head => rfl
  | checkEligibleCollection upper => rfl

theorem beginScan_flight (h : GapInv w) {c : CollectionId}
    {window : Nat × Nat} {head : Nat} {s : GapScheduler} {search : GapSearch}
    (hanchor : anchorOf w.db c = some window.1) (hpos : 1 ≤ window.1)
    (hb : (beginScan limits s c window head (getProgress w.db c)).2 = some search) :
    FlightInv w.db (w.checked search.collectionId) ⟨search, none⟩ := by
  have hwindow := limits.windowSize_pos
  have hexp : ∀ e ∈ getProgress w.db c, e.anchorBlock = window.1 := by
    intro e he
    have := h.anchors c e he
    rw [hanchor, Option.some.injEq] at this
    exact this.symm
  have hknown : (getProgress w.db c).filter (fun p => p.anchorBlock = window.1) =
      getProgress w.db c := by
    cases hp : getProgress w.db c with
    | none => rfl
    | some e => simp [hexp e hp]
  simp only [beginScan, hknown] at hb
  split at hb
  · exact absurd hb (by simp)
  split at hb
  · exact absurd hb (by simp)
  next hpending =>
  have hexpected : ∀ e ∈ getProgress w.db c, e.anchorBlock = window.1 ∧
      (getProgress w.db c).isSome = true := by
    intro e he
    exact ⟨hexp e he, by rw [Option.mem_def.mp he]; rfl⟩
  have hidle : ∀ e ∈ getProgress w.db c, e.pending = none := by
    intro e he
    rw [Option.mem_def.mp he, Option.getD_some] at hpending
    exact hpending
  simp only [Option.some.injEq] at hb
  subst hb
  refine ⟨hanchor, hpos, Nat.le_max_left _ _, hexpected, ⟨hidle, rfl, ?_, ?_⟩, by simp⟩
  · simp only
    omega
  · intro k hk
    simp only at hk ⊢
    split at hk
    · exact absurd hk (by simp)
    cases hp : getProgress w.db c with
    | none =>
      rw [hp] at hk
      exact absurd hk (by simp)
    | some e =>
      rw [hp, Option.getD_some] at hk
      exact ⟨e, rfl, hk⟩

theorem beginRetain_flight (h : GapInv w) {c : CollectionId} {window : Nat × Nat}
    {head : Nat} {search : GapSearch} (hanchor : anchorOf w.db c = some window.1)
    (hpos : 1 ≤ window.1) (hb : beginRetain c window head (getProgress w.db c) = some search) :
    FlightInv w.db (w.checked search.collectionId) ⟨search, none⟩ := by
  rw [beginRetain.eq_def] at hb
  cases hp : getProgress w.db c with
  | none =>
    rw [hp] at hb
    exact absurd hb (by simp)
  | some e =>
    simp only [hp] at hb
    split at hb
    · exact absurd hb (by simp)
    next hea =>
    rw [not_not] at hea
    rw [Option.some.injEq] at hb
    subst hb
    have hrow := h.rows c e hp
    refine ⟨hanchor, hpos, Nat.le_max_left _ _, ?_, ⟨rfl, e, rfl, ?_, ?_⟩, by simp⟩
    · intro e' he'
      rw [Option.mem_some_iff] at he'
      subst he'
      exact ⟨hea, by rw [hp]; rfl⟩
    · intro n hn
      cases hpend : e.pending with
      | none =>
        rcases hn with ⟨k, hk, hle⟩ | ⟨r, hr, -⟩
        · simp only [Option.mem_def.mp hk, Option.elim_some]
          omega
        · rw [hpend] at hr
          exact absurd hr (by simp)
      | some r =>
        have hord := (hrow.pending_le r hpend).1
        rcases hn with ⟨k, hk, hle⟩ | ⟨r', hr', -, hle⟩
        · have := hrow.cursor_lt k hk r hpend
          simp only
          omega
        · rw [hpend, Option.mem_some_iff] at hr'
          subst hr'
          simp only
          omega
    · cases hpend : e.pending with
      | none =>
        cases hcur : e.cursorBlock with
        | none =>
          simp only [Option.elim_none]
          omega
        | some k =>
          have := hrow.cursor_le k hcur
          simp only [Option.elim_some]
          omega
      | some r =>
        have := (hrow.pending_le r hpend).2
        simp only
        omega

theorem beginEligible_flight (h : GapInv w) {q : Nat} {c : CollectionId}
    {window : Nat × Nat} {upper : Nat} {search : GapSearch}
    (hanchor : anchorOf w.db c = some window.1) (hpos : 1 ≤ window.1)
    (hb : beginEligible (w.schedulers q) c window upper (getProgress w.db c) = some search) :
    FlightInv w.db (w.checked search.collectionId) ⟨search, none⟩ := by
  simp only [beginEligible] at hb
  split at hb
  · exact absurd hb (by simp)
  split at hb
  · exact absurd hb (by simp)
  next e hp =>
  split at hb
  · exact absurd hb (by simp)
  next hea =>
  split at hb
  · exact beginRetain_flight h hanchor hpos hb
  next last hlast =>
  rw [not_not] at hea
  rw [Option.some.injEq] at hb
  subst hb
  have hrow := h.rows c e hp
  have hbound : last.upperBound ≤ w.checked c :=
    h.eligible q c last (Option.filter_eq_some_iff.mp hlast).1
  refine ⟨hanchor, hpos, Nat.le_max_left _ _, ?_, ⟨rfl, e, hp, ?_, ?_⟩, by simp⟩
  · intro e' he'
    obtain rfl : e = e' := Option.some.inj (hp.symm.trans he')
    exact ⟨hea, Option.isSome_iff_exists.mpr ⟨e, hp⟩⟩
  · intro r hr n hn
    have hord := (hrow.pending_le r hr).1
    simp only [Option.mem_def.mp hr, Option.elim_some]
    rcases hn with ⟨k, hk, hle⟩ | ⟨r', hr', -, hle⟩
    · have := hrow.cursor_lt k hk r hr
      omega
    · rw [Option.mem_def.mp hr, Option.mem_some_iff] at hr'
      subst hr'
      omega
  · cases hpend : e.pending with
    | none =>
      simp only [Option.elim_none]
      omega
    | some r =>
      have := (hrow.pending_le r hpend).2
      simp only [Option.elim_some]
      omega

theorem beginCall_flight (h : GapInv w) {q : Nat}
    {call : GapCall} {collection : CollectionRecord} {search : GapSearch}
    (hanchor : anchorOf w.db collection.id = collection.bootstrapAnchorBlock)
    (hb : (beginCall limits (w.schedulers q) call collection
      (getProgress w.db collection.id)).2 = some search) :
    FlightInv w.db (w.checked search.collectionId) ⟨search, none⟩ := by
  rw [beginCall] at hb
  split at hb
  · exact absurd hb (by simp)
  next window hwindow =>
  obtain ⟨hrec, -, hpos, -, -⟩ := CollectionRecord.gapRepairWindow_some hwindow
  rw [hrec] at hanchor
  cases call with
  | scanCollection head => exact beginScan_flight h hanchor hpos hb
  | retainNewestGap head => exact beginRetain_flight h hanchor hpos hb
  | checkEligibleCollection upper => exact beginEligible_flight h hanchor hpos hb

/-- Changing one process changes no row; its scheduler must keep to what was checked and its
search must be in order. -/
theorem GapInv.process (h : GapInv w) {p : Nat} {s : GapScheduler}
    {f : Option GapFlight}
    (hs : ∀ c e, s.eligibleChecked c = some e → e.upperBound ≤ w.checked c)
    (hf : ∀ g ∈ f, FlightInv w.db (w.checked g.search.collectionId) g) :
    GapInv ((w.setScheduler p s).setFlight p f) where
  anchors := h.anchors
  rows := h.rows
  unchecked := h.unchecked
  eligible q c e he := by
    simp only [GapWorld.setFlight, GapWorld.setScheduler] at he
    split at he
    · exact hs c e he
    · exact h.eligible q c e he
  flights q g hg := by
    simp only [GapWorld.setFlight, GapWorld.setScheduler] at hg
    split at hg
    · exact hf g hg
    · exact h.flights q g hg

/-! ## 6. Finishing a search -/

/-- A new row that remembers everything up to `upper` takes over from one that mentions nothing
above `upper`. -/
theorem RowInv.takeOver {bound : Nat}
    {old next : SyncGapProgress} (hold : RowInv coverage c bound old)
    (hnext : RowInv coverage c upper next) (hanchor : next.anchorBlock = old.anchorBlock)
    (hle : ∀ n, old.Mentions n → n ≤ upper) : RowInv coverage c (max bound upper) next := by
  refine hnext.raise (Nat.le_max_right _ _) (fun n hn hlt hbound => ?_)
  by_contra hunc
  have := hle n (hold.remembers n (by omega) (by omega) hunc)
  omega

theorem saved_row_scan {bound head : Nat}
    (hc : search.call = .scanCollection head) (hf : FlightInv db bound ⟨search, some gap⟩)
    (hrow : ∀ e, getProgress db search.collectionId = some e →
      RowInv db.coverage search.collectionId bound e)
    (hfresh : getProgress db search.collectionId = none → bound = 0)
    (hcur : getProgress db search.collectionId = search.expected)
    (hno : ¬ search.Overtakes db gap) :
    RowInv db.coverage search.collectionId (max bound (search.recorded.getD 0))
      (progressForGap limits search.collectionId search.anchorBlock gap checkedAt search.fromBlock
        uuid now) := by
  have hcall := hf.call
  simp only [hc] at hcall
  obtain ⟨hidle, hto, hfrom, hcursor⟩ := hcall
  have hnew : RowInv db.coverage search.collectionId search.toBlock
      (progressForGap limits search.collectionId search.anchorBlock gap checkedAt search.fromBlock
        uuid now) :=
    progressForGap_inv hf.anchor_pos hf.window hfrom (hf.found gap rfl)
  cases he : search.expected with
  | none =>
    -- the first row of the collection: nothing was checked, and the scan began at the head
    have hbound : bound = 0 := hfresh (hcur.trans he)
    have hstart : search.cursor = none := by
      cases hk : search.cursor with
      | none => rfl
      | some k =>
        obtain ⟨e, hmem, -⟩ := hcursor k hk
        rw [he] at hmem
        exact absurd hmem (by simp)
    have hrec : search.recorded = some head := by
      rw [GapSearch.recorded, hc]
      simp [hstart]
    rw [hstart, Option.getD_none, Nat.min_self] at hto
    rw [hbound, hrec, Option.getD_some, Nat.zero_max, ← hto]
    exact hnew
  | some e =>
    have hold : RowInv db.coverage search.collectionId bound e := hrow e (hcur.trans he)
    have hea : e.anchorBlock = search.anchorBlock := (hf.expected e he).1
    have hpend : e.pending = none := hidle e he
    -- the head is not behind the cursor of the row
    have hahead : ∀ k ∈ e.cursorBlock, k ≤ head := by
      intro k hk
      by_contra hlt
      refine hno ⟨hcur, ⟨e, he, hpend, k, hk, ?_⟩, by rw [hc]; trivial⟩
      rw [hc, GapCall.bound]
      omega
    have hment : ∀ n, e.Mentions n → ∃ k ∈ e.cursorBlock, n ≤ k := by
      rintro n (hn | ⟨r, hr, -⟩)
      · exact hn
      · rw [hpend] at hr
        exact absurd hr (by simp)
    have hle : ∀ n, e.Mentions n → n ≤ search.toBlock := by
      intro n hn
      obtain ⟨k, hk, hnk⟩ := hment n hn
      have hkh := hahead k hk
      cases hcc : search.cursor with
      | none =>
        rw [hcc, Option.getD_none, Nat.min_self] at hto
        omega
      | some k' =>
        obtain ⟨e', he', hk'⟩ := hcursor k' hcc
        obtain rfl : e = e' := Option.some.inj (he.symm.trans he')
        obtain rfl : k = k' := Option.some.inj (hk.symm.trans hk')
        rw [hcc, Option.getD_some] at hto
        omega
    have htake := hold.takeOver hnew (by rw [hea]; rfl) hle
    cases hcc : search.cursor with
    | none =>
      have hrec : search.recorded = some head := by
        rw [GapSearch.recorded, hc]
        simp [hcc]
      rw [hcc, Option.getD_none, Nat.min_self] at hto
      rw [hrec, Option.getD_some, ← hto]
      exact htake
    | some k =>
      have hrec : search.recorded = none := by
        rw [GapSearch.recorded, hc]
        simp [hcc]
      obtain ⟨e', he', hk'⟩ := hcursor k hcc
      obtain rfl : e = e' := Option.some.inj (he.symm.trans he')
      have hkb := hold.cursor_le k hk'
      rw [hcc, Option.getD_some] at hto
      rw [hrec, Option.getD_none, Nat.max_eq_left (Nat.zero_le _)]
      rw [Nat.max_eq_left (by omega)] at htake
      exact htake

/-- A recheck and a check of eligible blocks write a row for a gap above everything that the old
row mentions. -/
theorem saved_row_gap {bound : Nat}
    {g : Nat × Nat} {e : SyncGapProgress}
    (hf : FlightInv db bound ⟨search, some (some g)⟩) (he : search.expected = some e)
    (hold : RowInv db.coverage search.collectionId bound e)
    (hle : ∀ n, e.Mentions n → n ≤ search.toBlock) :
    RowInv db.coverage search.collectionId (max bound search.toBlock)
      (progressForGap limits search.collectionId search.anchorBlock (some g) checkedAt
        search.fromBlock uuid now) := by
  have hfound : Found db.coverage search.collectionId search.fromBlock search.toBlock (some g) :=
    hf.found (some g) rfl
  have hfrom : search.fromBlock ≤ search.toBlock := by
    obtain ⟨h₁, h₂, h₃, -⟩ := hfound
    omega
  refine hold.takeOver (progressForGap_inv hf.anchor_pos hf.window (Or.inr hfrom) hfound) ?_ hle
  exact (hf.expected e he).1.symm

theorem RowInv.searched {bound : Nat}
    (h : RowInv coverage c bound p)
    (hlower : lower ≤ max p.anchorBlock (bound + 1)) (hfound : Found coverage c lower upper none) :
    RowInv coverage c (max bound upper) p :=
  h.raise (Nat.le_max_left _ _) (fun n hn hlt hle => hfound n (by omega) (by omega))

/-- **The row a search saves remembers its collection up to the new bound.** -/
theorem saved_row {bound : Nat}
    {next : SyncGapProgress}
    (hf : FlightInv db bound ⟨search, some gap⟩)
    (hrow : ∀ e, getProgress db search.collectionId = some e →
      RowInv db.coverage search.collectionId bound e)
    (hfresh : getProgress db search.collectionId = none → bound = 0)
    (hcur : getProgress db search.collectionId = search.expected)
    (hno : ¬ search.Overtakes db gap)
    (hnext : search.progress limits gap uuid now = some next) :
    next.anchorBlock = search.anchorBlock ∧
      RowInv db.coverage search.collectionId (max bound (search.recorded.getD 0)) next := by
  have hcall := hf.call
  simp only [GapSearch.progress] at hnext
  cases hc : search.call with
  | scanCollection head =>
    simp only [hc] at hnext
    split at hnext
    · obtain rfl := Option.some.inj hnext
      exact ⟨rfl, saved_row_scan hc hf hrow hfresh hcur hno⟩
    · obtain rfl := Option.some.inj hnext
      exact ⟨rfl, saved_row_scan hc hf hrow hfresh hcur hno⟩
  | retainNewestGap head =>
    simp only [hc] at hcall hnext
    obtain ⟨hto, e, he, hm, hfrom⟩ := hcall
    have hold := hrow e (hcur.trans he)
    have hrec : search.recorded = some search.toBlock := by rw [GapSearch.recorded, hc, hto]
    rw [hrec, Option.getD_some]
    cases gap with
    | some g =>
      obtain rfl := Option.some.inj hnext
      refine ⟨rfl, saved_row_gap hf he hold (fun n hn => ?_)⟩
      obtain ⟨h₁, h₂, h₃, -⟩ := hf.found (some g) rfl
      have := hm n hn
      simp only at h₁ h₃
      omega
    | none =>
      rw [he] at hnext
      obtain rfl := Option.some.inj hnext
      have hea : e.anchorBlock = search.anchorBlock := (hf.expected e he).1
      have hchecked := hold.searched (by rw [hea]; exact hfrom) (hf.found none rfl)
      exact ⟨hea, hchecked.remembers, hchecked.cursor_le, hchecked.pending_le, hchecked.cursor_lt⟩
  | checkEligibleCollection upper =>
    simp only [hc] at hcall hnext
    obtain ⟨hto, e, he, hm, hfrom⟩ := hcall
    have hold := hrow e (hcur.trans he)
    have hrec : search.recorded = some search.toBlock := by rw [GapSearch.recorded, hc, hto]
    rw [hrec, Option.getD_some]
    cases gap with
    | none => exact absurd hnext (by simp)
    | some g =>
      obtain rfl := Option.some.inj hnext
      refine ⟨rfl, saved_row_gap hf he hold (fun n hn => ?_)⟩
      obtain ⟨h₁, h₂, h₃, -⟩ := hf.found (some g) rfl
      simp only at h₁ h₃
      cases hpend : e.pending with
      | some r =>
        have := hm r hpend n hn
        omega
      | none =>
        -- without a pending range only the cursor mentions blocks, and it is not overtaken
        rcases hn with ⟨k, hk, hle⟩ | ⟨r, hr, -⟩
        · by_contra hlt
          refine hno ⟨hcur, ⟨e, he, hpend, k, hk, ?_⟩, by rw [hc]; simp⟩
          rw [hc, GapCall.bound]
          omega
        · rw [hpend] at hr
          exact absurd hr (by simp)

theorem noteSaved_eligible {progress : Option SyncGapProgress} {saved : Bool} {e : EligibleCheck}
    (h : (noteSaved s search gap progress saved).eligibleChecked c = some e) :
    s.eligibleChecked c = some e ∨
      (saved = true ∧ c = search.collectionId ∧ search.recorded = some e.upperBound) := by
  set s' : GapScheduler := match search.recorded with
    | some upper => s.setEligible search.collectionId ⟨search.anchorBlock, upper⟩
    | none => s with hs'
  have hrec : s'.eligibleChecked c = some e → s.eligibleChecked c = some e ∨
      (c = search.collectionId ∧ search.recorded = some e.upperBound) := by
    intro h'
    rw [hs'] at h'
    cases hr : search.recorded with
    | none =>
      rw [hr] at h'
      exact Or.inl h'
    | some upper =>
      rw [hr] at h'
      simp only [GapScheduler.setEligible] at h'
      split at h'
      · next hcc =>
        rw [Option.some.injEq] at h'
        exact Or.inr ⟨hcc, by rw [← h']⟩
      · exact Or.inl h'
  cases saved with
  | false =>
    left
    simp only [noteSaved, Bool.false_eq_true, if_false] at h
    cases hc : search.call <;> simpa only [hc] using h
  | true =>
    have hkeep : (noteSaved s search gap progress true).eligibleChecked = s'.eligibleChecked := by
      simp only [noteSaved, if_true]
      rw [← hs']
      cases search.call with
      | scanCollection head =>
        cases progress with
        | none => rfl
        | some p => exact noteScanned_eligible
      | retainNewestGap head =>
        cases gap with
        | some g => rfl
        | none =>
          simp only
          split <;> rfl
      | checkEligibleCollection upper => cases gap <;> rfl
    rw [hkeep] at h
    rcases hrec h with hold | hnew
    · exact Or.inl hold
    · exact Or.inr ⟨rfl, hnew⟩

theorem GapInv.record (h : GapInv w) {d : Db} {p : Nat} {s : GapScheduler}
    {c : CollectionId} {upper : Option Nat} (hcov : d.coverage = w.db.coverage)
    (hanchor : ∀ x, anchorOf d x = anchorOf w.db x)
    (hother : ∀ x, x ≠ c → getProgress d x = getProgress w.db x)
    (hrow : ∀ next, getProgress d c = some next → anchorOf w.db c = some next.anchorBlock ∧
      RowInv w.db.coverage c (max (w.checked c) (upper.getD 0)) next)
    (hnone : getProgress d c = none → getProgress w.db c = none ∧ upper = none)
    (hs : ∀ x e, s.eligibleChecked x = some e →
      (w.schedulers p).eligibleChecked x = some e ∨ (x = c ∧ upper = some e.upperBound)) :
    GapInv ((({ w with db := d }.setScheduler p s).setFlight p none).note c upper) := by
  have hbound : ∀ x, w.checked x ≤ if x = c then max (w.checked x) (upper.getD 0) else w.checked x := by
    intro x
    split
    · exact Nat.le_max_left _ _
    · exact Nat.le_refl _
  have hsome : ∀ x, (getProgress w.db x).isSome = true → (getProgress d x).isSome = true := by
    intro x hx
    by_cases hxc : x = c
    · subst hxc
      cases hd : getProgress d x with
      | some q => rfl
      | none =>
        rw [(hnone hd).1] at hx
        exact absurd hx (by simp)
    · rw [hother x hxc]
      exact hx
  refine ⟨?_, ?_, ?_, ?_, ?_⟩
  · intro x q hq
    change getProgress d x = some q at hq
    change anchorOf d x = some q.anchorBlock
    rw [hanchor]
    by_cases hxc : x = c
    · subst hxc
      exact (hrow q hq).1
    · exact h.anchors x q (hother x hxc ▸ hq)
  · intro x q hq
    change getProgress d x = some q at hq
    change RowInv d.coverage x (if x = c then _ else _) q
    rw [hcov]
    by_cases hxc : x = c
    · subst hxc
      rw [if_pos rfl]
      exact (hrow q hq).2
    · rw [if_neg hxc]
      exact h.rows x q (hother x hxc ▸ hq)
  · intro x hx
    change getProgress d x = none at hx
    change (if x = c then max (w.checked x) (upper.getD 0) else w.checked x) = 0
    by_cases hxc : x = c
    · subst hxc
      obtain ⟨hold, hup⟩ := hnone hx
      rw [if_pos rfl, hup, h.unchecked x hold]
      rfl
    · rw [if_neg hxc]
      exact h.unchecked x (hother x hxc ▸ hx)
  · intro q x e he
    change e.upperBound ≤ if x = c then _ else _
    simp only [GapWorld.note, GapWorld.setFlight, GapWorld.setScheduler] at he
    split at he
    · next hq =>
      subst hq
      rcases hs x e he with hold | ⟨rfl, hup⟩
      · exact Nat.le_trans (h.eligible q x e hold) (hbound x)
      · rw [if_pos rfl, hup, Option.getD_some]
        exact Nat.le_max_right _ _
    · exact Nat.le_trans (h.eligible q x e he) (hbound x)
  · intro q f hf
    simp only [GapWorld.note, GapWorld.setFlight, GapWorld.setScheduler] at hf
    split at hf
    · exact absurd hf (by simp)
    have hkeep : ∀ x n, Covered w.db.coverage x n → Covered d.coverage x n := by
      intro x n hn
      rw [hcov]
      exact hn
    exact (h.flights q f hf).mono (hbound _) hanchor hkeep hsome

theorem GapInv.finish (h : GapInv w) {p : Nat}
    {search : GapSearch} {gap : Option (Nat × Nat)} {uuid : String} {now : Nat}
    (hflight : w.flights p = some ⟨search, some gap⟩) (hno : ¬ search.Overtakes w.db gap) :
    GapInv (w.finish limits p search gap uuid now) := by
  have hf : FlightInv w.db (w.checked search.collectionId) ⟨search, some gap⟩ :=
    h.flights p _ hflight
  have hidle : GapInv (w.setFlight p none) :=
    ⟨h.anchors, h.rows, h.unchecked, h.eligible, fun q f hq => by
      simp only [GapWorld.setFlight] at hq
      split at hq
      · exact absurd hq (by simp)
      · exact h.flights q f hq⟩
  simp only [GapWorld.finish]
  cases hp : search.progress limits gap uuid now with
  | none =>
    -- a covered strip of eligible blocks: the row stays, the bound rises
    simp only [if_true]
    have hstrip : ∃ upper, search.call = .checkEligibleCollection upper ∧ gap = none := by
      simp only [GapSearch.progress] at hp
      cases hc : search.call with
      | scanCollection head =>
        simp only [hc] at hp
        split at hp <;> exact absurd hp (by simp)
      | retainNewestGap head =>
        have hcall := hf.call
        simp only [hc] at hp hcall
        obtain ⟨-, e, he, -⟩ := hcall
        cases gap with
        | some g => exact absurd hp (by simp)
        | none =>
          rw [he] at hp
          exact absurd hp (by simp)
      | checkEligibleCollection upper =>
        simp only [hc] at hp
        cases gap with
        | some g => exact absurd hp (by simp)
        | none => exact ⟨upper, rfl, rfl⟩
    obtain ⟨upper, hc, rfl⟩ := hstrip
    have hcall := hf.call
    simp only [hc] at hcall
    obtain ⟨hto, e, he, -, hfrom⟩ := hcall
    have hrec : search.recorded = some search.toBlock := by rw [GapSearch.recorded, hc, hto]
    refine h.record rfl (fun _ => rfl) (fun _ _ => rfl) ?_ ?_ ?_
    · intro next hnext
      have ha := h.anchors _ next hnext
      have hna : next.anchorBlock = search.anchorBlock :=
        Option.some.inj (ha.symm.trans hf.anchor)
      refine ⟨ha, ?_⟩
      rw [hrec, Option.getD_some]
      exact (h.rows _ next hnext).searched (by rw [hna]; exact hfrom) (hf.found none rfl)
    · intro hnone
      have := (hf.expected e he).2
      rw [hnone] at this
      exact absurd this (by simp)
    · intro x check hcheck
      rcases noteSaved_eligible hcheck with hold | ⟨-, hx, hup⟩
      · exact Or.inl hold
      · exact Or.inr ⟨hx, hup⟩
  | some next =>
    simp only
    rcases hrun : (saveProgress search.collectionId search.expected next).exec w.db with ⟨r, d⟩
    cases r with
    | error err => exact hidle
    | ok saved =>
      rcases saveProgress_effect hrun with ⟨rfl, rfl⟩ | ⟨rfl, -, hcur, hget, scans, hd⟩
      · -- the row changed in between: nothing is saved and nothing is recorded
        simp only [Bool.false_eq_true, if_false]
        refine h.record rfl (fun _ => rfl) (fun _ _ => rfl) ?_ (fun hnone => ⟨hnone, rfl⟩) ?_
        · intro q hq
          rw [Option.getD_none, Nat.max_eq_left (Nat.zero_le _)]
          exact ⟨h.anchors _ q hq, h.rows _ q hq⟩
        · intro x check hcheck
          rcases noteSaved_eligible hcheck with hold | ⟨hfalse, -⟩
          · exact Or.inl hold
          · exact absurd hfalse (by simp)
      · simp only [if_true]
        obtain ⟨hna, hnew⟩ := saved_row hf (h.rows _) (h.unchecked _) hcur hno hp
        refine h.record (by rw [hd]) (fun x => by rw [hd]; rfl) ?_ ?_ ?_ ?_
        · intro x hx
          rw [hget, if_neg hx]
        · intro q hq
          rw [hget, if_pos rfl, Option.some.injEq] at hq
          subst hq
          exact ⟨by rw [hna]; exact hf.anchor, hnew⟩
        · intro hnone
          rw [hget, if_pos rfl] at hnone
          exact absurd hnone (by simp)
        · intro x check hcheck
          rcases noteSaved_eligible hcheck with hold | ⟨-, hx, hup⟩
          · exact Or.inl hold
          · exact Or.inr ⟨hx, hup⟩

/-! ## 7. Every run -/

theorem gapInv_initial (db : Db) : GapInv (.initial db) where
  anchors c p hp := absurd hp (by simp [getProgress, GapWorld.initial])
  rows c p hp := absurd hp (by simp [getProgress, GapWorld.initial])
  unchecked _ _ := rfl
  eligible q c e he := absurd he (by simp [GapWorld.initial, GapScheduler.initial])
  flights q f hf := absurd hf (by simp [GapWorld.initial])

theorem anchorOf_congr {d : Db}
    (h : d.collections.rows.map (fun c => (c.id, c.bootstrapAnchorBlock)) =
      db.collections.rows.map (fun c => (c.id, c.bootstrapAnchorBlock))) (c : CollectionId) :
    anchorOf d c = anchorOf db c := by
  have hmem : ∀ {x y : Db}, x.collections.rows.map (fun c => (c.id, c.bootstrapAnchorBlock)) =
      y.collections.rows.map (fun c => (c.id, c.bootstrapAnchorBlock)) →
      ∀ r ∈ x.collections, ∃ r' ∈ y.collections, r'.id = r.id ∧
        r'.bootstrapAnchorBlock = r.bootstrapAnchorBlock := by
    intro x y hxy r hr
    have : (r.id, r.bootstrapAnchorBlock) ∈
        y.collections.rows.map (fun c => (c.id, c.bootstrapAnchorBlock)) := by
      rw [← hxy]
      exact List.mem_map_of_mem hr
    obtain ⟨r', hr', heq⟩ := List.mem_map.mp this
    rw [Prod.mk.injEq] at heq
    exact ⟨r', hr', heq⟩
  rw [anchorOf, anchorOf]
  cases hd : d.collections.get? c with
  | some r =>
    obtain ⟨hr, hkey⟩ := Table.get?_eq_some.mp hd
    obtain ⟨r', hr', hid, ha⟩ := hmem h r hr
    rw [Table.get?_eq_some.mpr ⟨hr', hid.trans hkey⟩]
    exact ha.symm
  | none =>
    have hno : db.collections.get? c = none := by
      refine Table.get?_eq_none.mpr (fun r hr hkey => ?_)
      obtain ⟨r', hr', hid, -⟩ := hmem h.symm r hr
      exact Table.get?_eq_none.mp hd r' hr' (hid.trans hkey)
    rw [hno]

theorem GapInv.step (h : GapInv w) {e : GapEvent}
    (hno : ¬ e.Overtakes w) : GapInv (gapStep limits w e) := by
  have hlocal : ∀ (p : Nat) (s : GapScheduler),
      (∀ c x, s.eligibleChecked c = some x → x.upperBound ≤ w.checked c) →
      GapInv (w.setScheduler p s) := by
    intro p s hs
    refine ⟨h.anchors, h.rows, h.unchecked, ?_, h.flights⟩
    intro q c x hx
    simp only [GapWorld.setScheduler] at hx
    split at hx
    · exact hs c x hx
    · exact h.eligible q c x hx
  cases e with
  | begin p call collection =>
    simp only [gapStep]
    split
    · exact h
    split
    · next hanchor =>
      refine h.process ?_ ?_
      · intro c x hx
        rw [beginCall_eligible] at hx
        exact h.eligible p c x hx
      · intro f hf
        obtain ⟨search, hsearch, rfl⟩ := Option.map_eq_some_iff.mp hf
        exact beginCall_flight h hanchor hsearch
    · exact h
  | find p =>
    simp only [gapStep]
    split
    · next search hflight =>
      have hf := h.flights p _ hflight
      refine ⟨h.anchors, h.rows, h.unchecked, h.eligible, ?_⟩
      intro q f hq
      simp only [GapWorld.setFlight] at hq
      split at hq
      · rw [Option.some.injEq] at hq
        subst hq
        refine { hf with found := ?_ }
        intro gap hgap
        rw [Option.mem_some_iff] at hgap
        subst hgap
        exact GapSearch.find_found
      · exact h.flights q f hq
    · exact h
  | finish p uuid now =>
    simp only [gapStep]
    split
    · next search gap hflight =>
      exact h.finish hflight (fun hover => hno ⟨search, gap, hflight, hover⟩)
    · exact h
  | resetDiscovery p => exact hlocal p _ (fun c x hx => absurd hx (by simp [GapScheduler.resetDiscovery]))
  | finishRound p now => exact hlocal p _ (fun c x hx => h.eligible p c x hx)
  | restart p =>
    exact h.process (fun c x hx => absurd hx (by simp [GapScheduler.initial])) (by simp)
  | commit input => exact h.commit input
  | reconcile repair now => exact h.reconcile limits repair now
  | deferRetry repair retryAt => exact h.deferRetry repair retryAt
  | other d =>
    simp only [gapStep]
    split
    · next hkeeps =>
      obtain ⟨hscans, hcov, hcollections⟩ := hkeeps
      refine h.keeps (fun c => ?_) (anchorOf_congr hcollections) (fun c n hn => hcov _ hn)
      rw [getProgress, hscans, getProgress]
    · exact h

theorem GapInv.run {limits : SyncGapLimits} :
    ∀ {events : List GapEvent} {w : GapWorld}, GapInv w → NeverOvertakes limits w events →
      GapInv (gapRun limits w events)
  | [], _, h, _ => h
  | e :: rest, w, h, ⟨hno, hrest⟩ => by
    have hnext : GapInv (gapRun limits (gapStep limits w e) rest) := GapInv.run (h.step hno) hrest
    exact hnext

theorem GapInv.remembered (h : GapInv w) : GapsRemembered w := by
  intro collection hmem _ anchor hanchor p hp n hn hle hunc
  have ha := h.anchors _ p hp
  have hstored : anchorOf w.db collection.id = some anchor := by
    rw [anchorOf, Table.get?_of_mem hmem]
    exact hanchor
  rw [hstored, Option.some.injEq] at ha
  exact (h.rows _ p hp).remembers n (by omega) hle hunc

/-- **Gap discovery forgets nothing, unless a lagging head overtakes a cursor.** -/
theorem gaps_remembered_of_neverOvertakes (limits : SyncGapLimits) (db : Db)
    (events : List GapEvent) (h : NeverOvertakes limits (.initial db) events) :
    GapsRemembered (gapRun limits (.initial db) events) :=
  ((gapInv_initial db).run h).remembered

/-- A live collection anchored at block 1. -/
def anchoredCollection : CollectionRecord where
  id := 1
  address := 9
  standard := .erc721
  status := .live
  bootstrapAnchorBlock := some 1

/-- Blocks 5 and 6 of it were acquired. -/
def laggingDb : Db :=
  { Db.fresh ((Table.empty).insertOrIgnore anchoredCollection) with
    coverage := ((Table.empty).insertOrIgnore ⟨1, 5⟩).insertOrIgnore ⟨1, 6⟩ }

def laggingLimits : SyncGapLimits := ⟨1, 2, 2, by decide, by decide⟩

/-- One whole scan of a process, at a head. -/
def scanAt (head : Nat) : List GapEvent :=
  [.begin 0 (.scanCollection head) anchoredCollection, .find 0, .finish 0 "a" 0]

/-- A scan at head 6 leaves the cursor at block 4; one at the lagging head 2 then writes the range
1..2 without a cursor, and blocks 3 and 4 are forgotten. -/
theorem lagging_scan_forgets :
    ¬ GapsRemembered (gapRun laggingLimits (.initial laggingDb) (scanAt 6 ++ scanAt 2)) := by
  intro h
  set w := gapRun laggingLimits (.initial laggingDb) (scanAt 6 ++ scanAt 2) with hw
  have hmem : anchoredCollection ∈ w.db.collections := by
    have hget : w.db.collections.get? 1 = some anchoredCollection := by
      rw [hw]
      decide +kernel
    exact (Table.get?_eq_some.mp hget).1
  have hrow : getProgress w.db 1 = some ⟨1, none, some ⟨"sync:gap:1:1:a", 1, 2, 0⟩, some 0⟩ := by
    rw [hw]
    decide +kernel
  have hchecked : 3 ≤ w.checked 1 := by
    rw [hw]
    decide +kernel
  have hunc : ¬ Covered w.db.coverage 1 3 := by
    have hrows : w.db.coverage.rows = [⟨1, 5⟩, ⟨1, 6⟩] := by
      rw [hw]
      decide +kernel
    rw [Covered, Table.mem_def, hrows]
    decide
  rcases h anchoredCollection hmem rfl 1 rfl _ hrow 3 (by decide) hchecked hunc with
    ⟨k, hk, -⟩ | ⟨r, hr, -, hle⟩
  · exact absurd hk (by simp)
  · rw [Option.mem_some_iff] at hr
    subst hr
    exact absurd hle (by decide)

theorem gaps_remembered_scan :
    NeverOvertakes laggingLimits (.initial laggingDb) (scanAt 6) ∧
      GapsRemembered (gapRun laggingLimits (.initial laggingDb) (scanAt 6)) := by
  have hno : NeverOvertakes laggingLimits (.initial laggingDb) (scanAt 6) := by
    refine ⟨id, id, ?_, trivial⟩
    rintro ⟨search, gap, hflight, -, ⟨e, he, -⟩, -⟩
    -- the scan found no row, so there is no cursor to overtake
    have hexp : ((gapStep laggingLimits (gapStep laggingLimits (.initial laggingDb)
        (.begin 0 (.scanCollection 6) anchoredCollection)) (.find 0)).flights 0).map
          (·.search.expected) = some none := by decide +kernel
    rw [hflight, Option.map_some, Option.some.injEq] at hexp
    rw [hexp] at he
    exact absurd he (by simp)
  exact ⟨hno, gaps_remembered_of_neverOvertakes laggingLimits laggingDb (scanAt 6) hno⟩

end Artgod.Indexer
