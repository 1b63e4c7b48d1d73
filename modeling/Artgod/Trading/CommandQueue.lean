/-
# The queue of job commands

The API appends commands to `trading_job_commands`, and `processPendingCommands` claims the lowest claimable row,
applies it, and records what came of it (`bidding-job-command-reconciler.ts`).  A row whose failure could not be
recorded stays `processing`, and later commands overtake it; where every failure is recorded, the commands are
applied in their order (`DrainInv`).  What a command does is left open here.
-/
import Artgod.Machine.Runs
import Artgod.Trading.JobDeclarations

namespace Artgod.Trading

/-! ## 1. The rows of the queue -/

/-- Neither completed nor terminally failed. -/
def CommandRow.isOpen (row : CommandRow) : Bool :=
  row.completedAt.isNone &&
    (row.status == .pending || row.status == .failedRetry || row.status == .processing)

/-- The `WHERE` of `selectClaimableCommands`.  The cutoff has no fraction of a second, and `claimed_at`
has one, so that the two texts compare by their seconds. -/
def CommandRow.isClaimable (now claimTimeoutMs : Nat) (row : CommandRow) : Bool :=
  row.completedAt.isNone && (row.status == .pending || row.status == .failedRetry ||
      (row.status == .processing &&
        row.claimedAt.any fun claimedAt => claimedAt / 1000 < (now - claimTimeoutMs) / 1000))

/-- `claimCommandById`. -/
def CommandRow.claim (now : Nat) (row : CommandRow) : CommandRow :=
  { row with status := .processing, attempts := row.attempts + 1, claimedAt := some now }

/-- `completeCommandById`. -/
def CommandRow.complete (now : Nat) (row : CommandRow) : CommandRow :=
  { row with status := .completed, completedAt := some now }

/-- `failCommandById`. -/
def CommandRow.fail (status : CommandStatus) (row : CommandRow) : CommandRow :=
  { row with status := status }

@[simp] theorem CommandRow.commandId_claim (now : Nat) (row : CommandRow) :
    (row.claim now).commandId = row.commandId := rfl

@[simp] theorem CommandRow.commandId_complete (now : Nat) (row : CommandRow) :
    (row.complete now).commandId = row.commandId := rfl

@[simp] theorem CommandRow.commandId_fail (status : CommandStatus) (row : CommandRow) :
    (row.fail status).commandId = row.commandId := rfl

variable {row : CommandRow} {claimTimeoutMs now : Nat}

theorem CommandRow.isOpen_iff : row.isOpen = true ↔ row.completedAt = none ∧
      (row.status = .pending ∨ row.status = .failedRetry ∨ row.status = .processing) := by
  simp [CommandRow.isOpen, or_assoc]

theorem CommandRow.isOpen_of_isClaimable
    (h : row.isClaimable now claimTimeoutMs = true) : row.isOpen = true := by
  simp only [CommandRow.isClaimable, Bool.and_eq_true, Bool.or_eq_true, beq_iff_eq,
    Option.isNone_iff_eq_none] at h
  rw [CommandRow.isOpen_iff]
  rcases h with ⟨hnone, (hpending | hretry) | ⟨hprocessing, -⟩⟩
  · exact ⟨hnone, .inl hpending⟩
  · exact ⟨hnone, .inr (.inl hretry)⟩
  · exact ⟨hnone, .inr (.inr hprocessing)⟩

@[simp] theorem CommandRow.isOpen_complete (now : Nat) (row : CommandRow) :
    (row.complete now).isOpen = false := rfl

@[simp] theorem CommandRow.isOpen_failTerminal (row : CommandRow) :
    (row.fail .failedTerminal).isOpen = false := by
  simp [CommandRow.isOpen, CommandRow.fail]

theorem CommandRow.isClaimable_of_isOpen (hopen : row.isOpen = true) (h : row.status ≠ .processing) :
    row.isClaimable now claimTimeoutMs = true := by
  obtain ⟨hnone, hstatus⟩ := CommandRow.isOpen_iff.mp hopen
  rcases hstatus with hpending | hretry | hprocessing
  · simp [CommandRow.isClaimable, hnone, hpending]
  · simp [CommandRow.isClaimable, hnone, hretry]
  · exact absurd hprocessing h

/-! ## 2. The statements of the repository -/

namespace CommandLog

/-- An `UPDATE … WHERE command_id = @commandId`. -/
def update (log : CommandLog) (commandId : Nat) (f : CommandRow → CommandRow)
    (keepsId : ∀ row, (f row).commandId = row.commandId) : CommandLog where
  rows := log.rows.map fun row => if row.commandId = commandId then f row else row
  lastId := log.lastId
  ordered := by
    refine List.Pairwise.map _ (fun a b hlt => ?_) log.ordered
    have hid : ∀ row : CommandRow,
        (if row.commandId = commandId then f row else row).commandId = row.commandId := by
      intro row
      split
      · exact keepsId row
      · rfl
    rw [hid, hid]
    exact hlt
  bounded := by
    intro row hrow
    obtain ⟨row', hrow', rfl⟩ := List.mem_map.mp hrow
    split
    · rw [keepsId]
      exact log.bounded row' hrow'
    · exact log.bounded row' hrow'

def markCompleted (log : CommandLog) (commandId now : Nat) : CommandLog :=
  log.update commandId (.complete now) (CommandRow.commandId_complete now)

def markFailedRetry (log : CommandLog) (commandId : Nat) : CommandLog :=
  log.update commandId (.fail .failedRetry) (CommandRow.commandId_fail _)

def markFailedTerminal (log : CommandLog) (commandId : Nat) : CommandLog :=
  log.update commandId (.fail .failedTerminal) (CommandRow.commandId_fail _)

end CommandLog

/-- `BiddingJobCommand`: a row as it was claimed. -/
structure BiddingJobCommand where
  row : CommandRow
  reclaimed : Bool

namespace CommandLog

/-- `claimNextBatch`: one transaction that reads the claimable rows and claims each of them. -/
def claimNextBatch (log : CommandLog) (limit now claimTimeoutMs : Nat) :
    List BiddingJobCommand × CommandLog :=
  let rows := (log.rows.filter (·.isClaimable now claimTimeoutMs)).take limit
  (rows.map fun row => ⟨row.claim now, row.status == .processing⟩,
    rows.foldl (fun log row => log.update row.commandId (.claim now) (CommandRow.commandId_claim now)) log)

variable {log : CommandLog} {commandId : Nat} {f : CommandRow → CommandRow}

variable {row : CommandRow}

theorem mem_update (keepsId : ∀ row, (f row).commandId = row.commandId) : row ∈ (log.update commandId f keepsId).rows ↔
    (row ∈ log.rows ∧ row.commandId ≠ commandId) ∨
      ∃ old ∈ log.rows, old.commandId = commandId ∧ f old = row := by
  constructor
  · intro h
    obtain ⟨old, hold, rfl⟩ := List.mem_map.mp h
    by_cases hid : old.commandId = commandId
    · rw [if_pos hid]
      exact .inr ⟨old, hold, hid, rfl⟩
    · rw [if_neg hid]
      exact .inl ⟨hold, hid⟩
  · rintro (⟨hrow, hid⟩ | ⟨old, hold, hid, rfl⟩)
    · exact List.mem_map.mpr ⟨row, hrow, if_neg hid⟩
    · exact List.mem_map.mpr ⟨old, hold, if_pos hid⟩

theorem exists_update (keepsId : ∀ row, (f row).commandId = row.commandId) (h : row ∈ log.rows) :
    ∃ row' ∈ (log.update commandId f keepsId).rows, row'.commandId = row.commandId := by
  by_cases hid : row.commandId = commandId
  · exact ⟨f row, (mem_update keepsId).mpr (.inr ⟨row, h, hid, rfl⟩), keepsId row⟩
  · exact ⟨row, (mem_update keepsId).mpr (.inl ⟨h, hid⟩), rfl⟩

theorem row_unique {a b : CommandRow} (ha : a ∈ log.rows) (hb : b ∈ log.rows)
    (hid : a.commandId = b.commandId) : a = b := by
  have h := List.Pairwise.forall_of_forall_of_flip
    (R := fun a b : CommandRow => a.commandId = b.commandId → a = b) (fun _ _ _ => rfl)
    (log.ordered.imp fun hlt heq => absurd heq (Nat.ne_of_lt hlt))
    (log.ordered.imp fun hlt heq => absurd heq (Nat.ne_of_gt hlt))
  exact h ha hb hid

theorem mem_push {jobId : String} {commandKind : CommandKind} {requestedRevision : Nat}
    {payload : CommandPayload} :
    row ∈ (log.push jobId commandKind requestedRevision payload).rows ↔
      row ∈ log.rows ∨ row = log.newRow jobId commandKind requestedRevision payload := by
  rw [CommandLog.push, List.mem_append, List.mem_singleton]

/-- The row that `claimNextBatch` takes first: no claimable row has a smaller id. -/
structure IsNextClaimable (log : CommandLog) (now claimTimeoutMs : Nat) (row : CommandRow) : Prop where
  mem : row ∈ log.rows
  claimable : row.isClaimable now claimTimeoutMs = true
  first : ∀ row' ∈ log.rows, row'.commandId < row.commandId → row'.isClaimable now claimTimeoutMs = false

/-- **What a claim of one row can do**: there is no claimable row and nothing is written, or the
claimable row of the smallest id is claimed. -/
theorem claimNextBatch_one (log : CommandLog) (now claimTimeoutMs : Nat) :
    (log.claimNextBatch 1 now claimTimeoutMs = ([], log) ∧
        ∀ row ∈ log.rows, row.isClaimable now claimTimeoutMs = false) ∨
      ∃ row, log.IsNextClaimable now claimTimeoutMs row ∧ log.claimNextBatch 1 now claimTimeoutMs =
          ([⟨row.claim now, row.status == .processing⟩],
            log.update row.commandId (.claim now) (CommandRow.commandId_claim now)) := by
  unfold claimNextBatch
  have hsorted := log.ordered.filter (·.isClaimable now claimTimeoutMs)
  cases hrows : log.rows.filter (·.isClaimable now claimTimeoutMs) with
  | nil =>
    refine .inl ⟨rfl, fun row hrow => ?_⟩
    have h := List.filter_eq_nil_iff.mp hrows row hrow
    exact Bool.eq_false_iff.mpr h
  | cons row rest =>
    rw [hrows, List.pairwise_cons] at hsorted
    have hmem : row ∈ log.rows.filter (·.isClaimable now claimTimeoutMs) := by
      rw [hrows]
      exact List.mem_cons_self
    obtain ⟨hrow, hclaimable⟩ := List.mem_filter.mp hmem
    refine .inr ⟨row, ⟨hrow, hclaimable, fun row' hrow' hlt => ?_⟩, rfl⟩
    -- A claimable row comes in the list at or after the first one.
    by_contra hne
    have hmem' : row' ∈ log.rows.filter (·.isClaimable now claimTimeoutMs) :=
      List.mem_filter.mpr ⟨hrow', Bool.eq_true_of_not_eq_false hne⟩
    rw [hrows, List.mem_cons] at hmem'
    rcases hmem' with rfl | hrest
    · omega
    · have := hsorted.1 row' hrest
      omega

end CommandLog

/-! ## 3. The loop of the reconciler -/

/-- `BiddingJobCommandReconcilerOptions`; the configuration reads positive integers. -/
structure ReconcilerOptions where
  batchSize : Nat
  claimTimeoutMs : Nat
  maxAttempts : Nat
  maxAttempts_pos : 0 < maxAttempts

/-- Where `processPendingCommands` is in the mutex.

* `claiming`: at the head of the loop, after so many commands of the batch.
* `applying`: in `applyCommand` and `reconcileEnabledJobs`.
* `applied`: before `markCompleted`.
* `failed`: in the `catch`. -/
inductive DrainPhase where
  | idle
  | claiming (processed : Nat)
  | applying (processed : Nat) (command : BiddingJobCommand)
  | applied (processed : Nat) (command : BiddingJobCommand)
  | failed (command : BiddingJobCommand)

/-- The command in work. -/
def DrainPhase.command : DrainPhase → Option BiddingJobCommand
  | .idle => none
  | .claiming _ => none
  | .applying _ command => some command
  | .applied _ command => some command
  | .failed command => some command

/-- The table and the reconciler; `started` are the ids that were claimed, one for each attempt. -/
structure Drain where
  log : CommandLog
  acceptingCommands : Bool
  phase : DrainPhase
  started : List Nat

/-- A new process finds the table as it is. -/
def Drain.boot (log : CommandLog) : Drain := ⟨log, true, .idle, []⟩

/-- What happens to the queue.

* `push`: the API commits a command.
* `enter`: a caller of `processPendingCommands` gets the mutex.
* `claim`, `claimThrows`: the transaction of `claimNextBatch` commits, or throws out of the batch.
* `applies`, `throws`: the application of the command ends, or throws.
* `completes`: `markCompleted`, which throws if it is not `written`.
* `records`: `markFailedRetry` or `markFailedTerminal`; if it is not `written` it throws out of the batch.
* `closeAdmission`: the shutdown of the scheduler begins. -/
inductive DrainEvent where
  | push (jobId : String) (commandKind : CommandKind) (requestedRevision : Nat) (payload : CommandPayload)
  | enter
  | claim (now : Nat)
  | claimThrows
  | applies
  | throws
  | completes (now : Nat) (written : Bool)
  | records (written : Bool)
  | closeAdmission

namespace Drain

variable (options : ReconcilerOptions)

/-- The head of the loop: the batch goes on while commands are accepted and it is not full. -/
def claimNext (d : Drain) (processed now : Nat) : Drain :=
  if d.acceptingCommands && processed < options.batchSize then
    match d.log.claimNextBatch 1 now options.claimTimeoutMs with
    | ([], log) => { d with log := log, phase := .idle }
    | (command :: _, log) =>
      { d with
        log := log
        phase := .applying (processed + 1) command
        started := d.started ++ [command.row.commandId] }
  else { d with phase := .idle }

/-- The `catch` of `processCommand`. -/
def recordFailure (d : Drain) (command : BiddingJobCommand) : Drain :=
  if options.maxAttempts ≤ command.row.attempts then
    { d with log := d.log.markFailedTerminal command.row.commandId, phase := .idle }
  else { d with log := d.log.markFailedRetry command.row.commandId, phase := .idle }

def step (d : Drain) (event : DrainEvent) : Drain :=
  match event, d.phase with
  | .push jobId commandKind requestedRevision payload, _ =>
    { d with log := d.log.push jobId commandKind requestedRevision payload }
  | .closeAdmission, _ => { d with acceptingCommands := false }
  | .enter, .idle => { d with phase := .claiming 0 }
  | .claim now, .claiming processed => d.claimNext options processed now
  | .claimThrows, .claiming _ => { d with phase := .idle }
  | .applies, .applying processed command => { d with phase := .applied processed command }
  | .throws, .applying _ command => { d with phase := .failed command }
  | .completes now true, .applied processed command =>
    { d with
      log := d.log.markCompleted command.row.commandId now
      phase := .claiming processed }
  | .completes _ false, .applied _ command => { d with phase := .failed command }
  | .records true, .failed command => d.recordFailure options command
  | .records false, .failed _ => { d with phase := .idle }
  | _, _ => d

end Drain

/-! ## 4. The order of the commands

What a run keeps whose failures are recorded. -/

/-- **The commands are worked off in order.**  Only the row in work is `processing`; what was started
comes in the order of the ids, and before it nothing is open; an open row that is not in work has
attempts left. -/
structure DrainInv (options : ReconcilerOptions) (d : Drain) : Prop where
  processing : ∀ row ∈ d.log.rows, row.isOpen = true → row.status = .processing →
    ∃ command, d.phase.command = some command ∧ command.row = row
  inWork : ∀ command, d.phase.command = some command →
    command.row ∈ d.log.rows ∧ command.row.isOpen = true ∧ command.row.status = .processing ∧
      command.reclaimed = false
  earlier : ∀ id ∈ d.started, ∀ row ∈ d.log.rows, row.commandId < id → row.isOpen = false
  known : ∀ id ∈ d.started, ∃ row ∈ d.log.rows, row.commandId = id
  ordered : d.started.Pairwise (· ≤ ·)
  counted : ∀ row ∈ d.log.rows, d.started.count row.commandId ≤ row.attempts
  bounded : ∀ row ∈ d.log.rows, d.started.count row.commandId ≤ options.maxAttempts
  left : ∀ row ∈ d.log.rows, row.isOpen = true → row.status ≠ .processing →
    d.started.count row.commandId < options.maxAttempts

/-- No process holds a row: the rows that are open can be claimed. -/
def CommandLog.isReleased (log : CommandLog) : Bool :=
  log.rows.all fun row => !row.isOpen || row.status != .processing

/-- The record of the failure is written. -/
def DrainEvent.recordsFailures (_ : Drain) : DrainEvent → Bool
  | .records written => written
  | _ => true

namespace DrainInv

variable {options : ReconcilerOptions} {d : Drain}

theorem boot {log : CommandLog} (h : log.isReleased = true) : DrainInv options (.boot log) where
  processing := by
    intro row hrow hopen hstatus
    have hreleased := List.all_eq_true.mp h row hrow
    simp [hopen, hstatus] at hreleased
  inWork := fun _ h => nomatch h
  earlier := fun _ h => absurd h List.not_mem_nil
  known := fun _ h => absurd h List.not_mem_nil
  ordered := List.Pairwise.nil
  counted := fun _ _ => Nat.zero_le _
  bounded := fun _ _ => Nat.zero_le _
  left := fun _ _ _ _ => options.maxAttempts_pos

theorem phase (h : DrainInv options d) {d' : Drain} (hlog : d'.log = d.log)
    (hstarted : d'.started = d.started) (hcommand : d'.phase.command = d.phase.command) :
    DrainInv options d' := by
  obtain ⟨log', accepting', phase', started'⟩ := d'
  dsimp only at hlog hstarted hcommand
  subst hlog hstarted
  exact ⟨fun row hrow hopen hstatus => hcommand ▸ h.processing row hrow hopen hstatus,
    fun command hc => h.inWork command (hcommand ▸ hc), h.earlier, h.known, h.ordered, h.counted,
    h.bounded, h.left⟩

theorem push (h : DrainInv options d) (jobId : String) (commandKind : CommandKind)
    (requestedRevision : Nat) (payload : CommandPayload) :
    DrainInv options { d with log := d.log.push jobId commandKind requestedRevision payload } := by
  have hnew : d.started.count (d.log.lastId + 1) = 0 := by
    rw [List.count_eq_zero]
    intro hmem
    obtain ⟨row, hrow, hid⟩ := h.known _ hmem
    have := d.log.bounded row hrow
    omega
  constructor
  · intro row hrow hopen hstatus
    rcases CommandLog.mem_push.mp hrow with hold | rfl
    · exact h.processing row hold hopen hstatus
    · exact absurd hstatus (by simp [CommandLog.newRow])
  · intro command hc
    obtain ⟨hmem, hrest⟩ := h.inWork command hc
    exact ⟨CommandLog.mem_push.mpr (.inl hmem), hrest⟩
  · intro id hid row hrow hlt
    rcases CommandLog.mem_push.mp hrow with hold | rfl
    · exact h.earlier id hid row hold hlt
    obtain ⟨row', hrow', rfl⟩ := h.known id hid
    have := d.log.bounded row' hrow'
    have : (d.log.newRow jobId commandKind requestedRevision payload).commandId = d.log.lastId + 1 := rfl
    omega
  · intro id hid
    obtain ⟨row, hrow, rfl⟩ := h.known id hid
    exact ⟨row, CommandLog.mem_push.mpr (.inl hrow), rfl⟩
  · exact h.ordered
  · intro row hrow
    rcases CommandLog.mem_push.mp hrow with hold | rfl
    · exact h.counted row hold
    · exact hnew.le
  · intro row hrow
    rcases CommandLog.mem_push.mp hrow with hold | rfl
    · exact h.bounded row hold
    · exact hnew.le.trans (Nat.zero_le _)
  · intro row hrow hopen hstatus
    rcases CommandLog.mem_push.mp hrow with hold | rfl
    · exact h.left row hold hopen hstatus
    · exact hnew.le.trans_lt options.maxAttempts_pos

/-- **The claim.**  No row is `processing`, so that the next claimable row is the first open one: all
that was started lies at or before it. -/
theorem claim (h : DrainInv options d) (hidle : d.phase.command = none) {now processed : Nat}
    {row : CommandRow} (hnext : d.log.IsNextClaimable now options.claimTimeoutMs row) :
    DrainInv options { d with
        log := d.log.update row.commandId (.claim now) (CommandRow.commandId_claim now)
        phase := .applying processed ⟨row.claim now, row.status == .processing⟩
        started := d.started ++ [row.commandId] } := by
  have hfree : ∀ row' ∈ d.log.rows, row'.isOpen = true → row'.status ≠ .processing := by
    intro row' hrow' hopen hstatus
    obtain ⟨command, hc, -⟩ := h.processing row' hrow' hopen hstatus
    rw [hidle] at hc
    exact nomatch hc
  have hopen : row.isOpen = true := row.isOpen_of_isClaimable hnext.claimable
  have hbefore : ∀ row' ∈ d.log.rows, row'.commandId < row.commandId → row'.isOpen = false := by
    intro row' hrow' hlt
    by_contra hne
    have hopen' := Bool.eq_true_of_not_eq_false hne
    have hclaimable : row'.isClaimable now options.claimTimeoutMs = true :=
      CommandRow.isClaimable_of_isOpen hopen' (hfree row' hrow' hopen')
    rw [hnext.first row' hrow' hlt] at hclaimable
    exact nomatch hclaimable
  have hlast : ∀ id ∈ d.started, id ≤ row.commandId := by
    intro id hid
    by_contra hgt
    have hclosed := h.earlier id hid row hnext.mem (by omega)
    rw [hopen] at hclosed
    exact nomatch hclosed
  -- The row itself counts one attempt more, the others none.
  have hcount : ∀ id, (d.started ++ [row.commandId]).count id =
      d.started.count id + if id = row.commandId then 1 else 0 := by
    intro id
    rw [List.count_append, List.count_singleton]
    by_cases hid : id = row.commandId
    · simp [hid]
    · simp [hid, Ne.symm hid]
  constructor
  · intro row' hrow' hopen' hstatus'
    rcases (CommandLog.mem_update (CommandRow.commandId_claim now)).mp hrow' with ⟨hold, -⟩ | ⟨old, hold, hid, rfl⟩
    · exact absurd hstatus' (hfree row' hold hopen')
    · rw [CommandLog.row_unique hold hnext.mem hid]
      exact ⟨_, rfl, rfl⟩
  · intro command hc
    obtain rfl := Option.some.inj hc
    refine ⟨(CommandLog.mem_update (CommandRow.commandId_claim now)).mpr (.inr ⟨row, hnext.mem, rfl, rfl⟩), ?_, rfl, ?_⟩
    · exact CommandRow.isOpen_iff.mpr ⟨(CommandRow.isOpen_iff.mp hopen).1, .inr (.inr rfl)⟩
    · exact beq_eq_false_iff_ne.mpr (hfree row hnext.mem hopen)
  · intro id hid row' hrow' hlt
    have hle : id ≤ row.commandId := by
      rcases List.mem_append.mp hid with hold | hnew
      · exact hlast id hold
      · rw [List.mem_singleton] at hnew
        exact hnew.le
    rcases (CommandLog.mem_update (CommandRow.commandId_claim now)).mp hrow' with ⟨hold, -⟩ | ⟨old, -, hold, rfl⟩
    · exact hbefore row' hold (by omega)
    · rw [CommandRow.commandId_claim] at hlt
      omega
  · intro id hid
    rcases List.mem_append.mp hid with hold | hnew
    · obtain ⟨old, hmem, rfl⟩ := h.known id hold
      exact CommandLog.exists_update (CommandRow.commandId_claim now) hmem
    · rw [List.mem_singleton.mp hnew]
      exact CommandLog.exists_update (CommandRow.commandId_claim now) hnext.mem
  · rw [List.pairwise_append]
    refine ⟨h.ordered, List.pairwise_singleton _ _, fun a ha b hb => ?_⟩
    rw [List.mem_singleton] at hb
    exact (hlast a ha).trans hb.ge
  · intro row' hrow'
    dsimp only
    rw [hcount]
    rcases (CommandLog.mem_update (CommandRow.commandId_claim now)).mp hrow' with ⟨hold, hid⟩ | ⟨old, hold, hid, rfl⟩
    · rw [if_neg hid]
      exact h.counted row' hold
    have hle := h.counted old hold
    have hattempts : (old.claim now).attempts = old.attempts + 1 := rfl
    rw [CommandRow.commandId_claim, if_pos hid]
    omega
  · intro row' hrow'
    dsimp only
    rw [hcount]
    rcases (CommandLog.mem_update (CommandRow.commandId_claim now)).mp hrow' with ⟨hold, hid⟩ | ⟨old, hold, hid, rfl⟩
    · rw [if_neg hid]
      exact h.bounded row' hold
    have hold_eq := CommandLog.row_unique hold hnext.mem hid
    have hlt := h.left old hold (hold_eq ▸ hopen) (hold_eq ▸ hfree row hnext.mem hopen)
    rw [CommandRow.commandId_claim, if_pos hid]
    omega
  · intro row' hrow' hopen' hstatus'
    dsimp only
    rw [hcount]
    rcases (CommandLog.mem_update (CommandRow.commandId_claim now)).mp hrow' with ⟨hold, hid⟩ | ⟨old, hold, hid, rfl⟩
    · rw [if_neg hid]
      exact h.left row' hold hopen' hstatus'
    · exact absurd rfl hstatus'

/-- **The end of an attempt.**  The row leaves `processing`; if it is still open it has attempts left. -/
theorem leave (h : DrainInv options d) {command : BiddingJobCommand}
    (hcommand : d.phase.command = some command) {f : CommandRow → CommandRow}
    (keepsId : ∀ row, (f row).commandId = row.commandId)
    (keepsAttempts : ∀ row, (f row).attempts = row.attempts)
    (hleaves : (f command.row).isOpen = true →
      (f command.row).status ≠ .processing ∧ command.row.attempts < options.maxAttempts)
    {accepting : Bool} {phase : DrainPhase} (hphase : phase.command = none) :
    DrainInv options ⟨d.log.update command.row.commandId f keepsId, accepting, phase, d.started⟩ := by
  obtain ⟨hmem, hopen, -⟩ := h.inWork command hcommand
  have hrow : ∀ old ∈ d.log.rows, old.commandId = command.row.commandId → old = command.row :=
    fun old hold hid => CommandLog.row_unique hold hmem hid
  constructor
  · intro row' hrow' hopen' hstatus'
    rcases (CommandLog.mem_update keepsId).mp hrow' with ⟨hold, hid⟩ | ⟨old, hold, hid, rfl⟩
    · obtain ⟨command', hc', rfl⟩ := h.processing row' hold hopen' hstatus'
      rw [hcommand] at hc'
      exact absurd (congrArg (·.row.commandId) (Option.some.inj hc').symm) hid
    · obtain rfl := hrow old hold hid
      exact absurd hstatus' (hleaves hopen').1
  · intro command' hc'
    rw [hphase] at hc'
    exact nomatch hc'
  · intro id hid row' hrow' hlt
    rcases (CommandLog.mem_update keepsId).mp hrow' with ⟨hold, -⟩ | ⟨old, hold, hid', rfl⟩
    · exact h.earlier id hid row' hold hlt
    obtain rfl := hrow old hold hid'
    rw [keepsId] at hlt
    have hclosed := h.earlier id hid _ hmem hlt
    rw [hopen] at hclosed
    exact nomatch hclosed
  · intro id hid
    obtain ⟨old, hold, rfl⟩ := h.known id hid
    exact CommandLog.exists_update keepsId hold
  · exact h.ordered
  · intro row' hrow'
    rcases (CommandLog.mem_update keepsId).mp hrow' with ⟨hold, -⟩ | ⟨old, hold, -, rfl⟩
    · exact h.counted row' hold
    · rw [keepsId, keepsAttempts]
      exact h.counted old hold
  · intro row' hrow'
    rcases (CommandLog.mem_update keepsId).mp hrow' with ⟨hold, -⟩ | ⟨old, hold, -, rfl⟩
    · exact h.bounded row' hold
    · rw [keepsId]
      exact h.bounded old hold
  · intro row' hrow' hopen' hstatus'
    rcases (CommandLog.mem_update keepsId).mp hrow' with ⟨hold, -⟩ | ⟨old, hold, hid, rfl⟩
    · exact h.left row' hold hopen' hstatus'
    · obtain rfl := hrow old hold hid
      rw [keepsId]
      exact (h.counted _ hmem).trans_lt (hleaves hopen').2

theorem recordFailure (h : DrainInv options d) {command : BiddingJobCommand}
    (hcommand : d.phase.command = some command) : DrainInv options (d.recordFailure options command) := by
  unfold Drain.recordFailure
  split
  · refine h.leave hcommand (f := .fail .failedTerminal) _ (fun _ => rfl) (fun hopen => ?_) rfl
    rw [CommandRow.isOpen_failTerminal] at hopen
    exact nomatch hopen
  case isFalse hattempts =>
  refine h.leave hcommand (f := .fail .failedRetry) _ (fun _ => rfl) (fun _ => ⟨?_, ?_⟩) rfl
  · exact (nofun : CommandStatus.failedRetry ≠ .processing)
  · exact Nat.lt_of_not_le hattempts

theorem step (h : DrainInv options d) {event : DrainEvent} (hmeets : event.recordsFailures d = true) :
    DrainInv options (d.step options event) := by
  unfold Drain.step
  split
  case h_1 _ jobId commandKind requestedRevision payload => exact h.push jobId commandKind requestedRevision payload
  case h_2 => exact h.phase rfl rfl rfl
  case h_3 hphase => exact h.phase rfl rfl (by rw [hphase]; rfl)
  case h_4 now processed hphase =>
    have hidle : d.phase.command = none := by rw [hphase]; rfl
    unfold Drain.claimNext
    split
    · rcases d.log.claimNextBatch_one now options.claimTimeoutMs with ⟨hnone, -⟩ | ⟨row, hnext, hsome⟩
      · rw [hnone]
        exact h.phase rfl rfl (by rw [hidle]; rfl)
      · rw [hsome]
        exact h.claim hidle hnext
    · exact h.phase rfl rfl (by rw [hidle]; rfl)
  case h_5 hphase => exact h.phase rfl rfl (by rw [hphase]; rfl)
  case h_6 hphase => exact h.phase rfl rfl (by rw [hphase]; rfl)
  case h_7 hphase => exact h.phase rfl rfl (by rw [hphase]; rfl)
  case h_8 now processed command hphase =>
    refine h.leave (by rw [hphase]; rfl) (f := .complete now) _ (fun _ => rfl) (fun hopen => ?_) rfl
    rw [CommandRow.isOpen_complete] at hopen
    exact nomatch hopen
  case h_9 hphase => exact h.phase rfl rfl (by rw [hphase]; rfl)
  case h_10 hphase => exact h.recordFailure (by rw [hphase]; rfl)
  case h_11 => exact nomatch hmeets
  case h_12 => exact h

end DrainInv

/-- What the order of the commands comes to.

* Commands are started in the order of their ids.
* When one is started, every earlier one of the queue is completed or terminally failed.
* None is started more often than `maxAttempts`, and one that was is not open any more.
* The failure of the last attempt is recorded as terminal. -/
structure WorkedOffInOrder (options : ReconcilerOptions) (d : Drain) : Prop where
  increasing : d.started.Pairwise (· ≤ ·)
  earlier : ∀ id ∈ d.started, ∀ row ∈ d.log.rows, row.commandId < id → row.isOpen = false
  attempts : ∀ id, d.started.count id ≤ options.maxAttempts
  spent : ∀ row ∈ d.log.rows, d.started.count row.commandId = options.maxAttempts →
    (∀ command, d.phase.command = some command → command.row ≠ row) → row.isOpen = false
  lastFailure : ∀ command, d.phase = .failed command → options.maxAttempts ≤ command.row.attempts →
    ∀ row ∈ (d.step options (.records true)).log.rows, row.commandId = command.row.commandId →
      row.status = .failedTerminal

theorem DrainInv.workedOff {options : ReconcilerOptions} {d : Drain} (h : DrainInv options d) :
    WorkedOffInOrder options d where
  increasing := h.ordered
  earlier := h.earlier
  attempts := by
    intro id
    by_cases hid : id ∈ d.started
    · obtain ⟨row, hrow, rfl⟩ := h.known id hid
      exact h.bounded row hrow
    · rw [List.count_eq_zero_of_not_mem hid]
      exact Nat.zero_le _
  spent := by
    intro row hrow hcount hidle
    by_contra hne
    have hopen := Bool.eq_true_of_not_eq_false hne
    by_cases hstatus : row.status = .processing
    · obtain ⟨command, hc, heq⟩ := h.processing row hrow hopen hstatus
      exact hidle command hc heq
    · have := h.left row hrow hopen hstatus
      omega
  lastFailure := by
    intro command hphase hlast row hrow hid
    have hstep : d.step options (.records true) =
        { d with log := d.log.markFailedTerminal command.row.commandId, phase := .idle } := by
      rw [Drain.step]
      · exact if_pos hlast
      · exact hphase
    rw [hstep] at hrow
    rcases (CommandLog.mem_update (CommandRow.commandId_fail _)).mp hrow with ⟨-, hne⟩ | ⟨_, -, -, rfl⟩
    · exact absurd hid hne
    · rfl

/-- **Commands are applied in order** where no process left a row in work and every failure is
recorded. -/
theorem commands_applied_in_order (options : ReconcilerOptions) (log : CommandLog)
    (events : List DrainEvent) (hreleased : log.isReleased = true)
    (hrecorded : Machine.meetsThroughout DrainEvent.recordsFailures (Drain.step options) (.boot log)
      events = true) :
    WorkedOffInOrder options (Machine.run (Drain.step options) (.boot log) events) :=
  (Machine.run_invariant_of_meets (fun _ _ hinv hok => hinv.step hok) (DrainInv.boot hreleased)
    hrecorded).workedOff

/-- Two commands of two jobs. -/
def twoCommands : CommandLog :=
  (CommandLog.empty.push "a" .jobUpdated 2 ⟨1, 1, "a", .token "1", none⟩).push "b" .jobUpdated 2
    ⟨1, 1, "b", .token "2", none⟩

/-- The first of them. -/
def firstCommand : CommandRow := CommandLog.empty.newRow "a" .jobUpdated 2 ⟨1, 1, "a", .token "1", none⟩

def threeAttempts : ReconcilerOptions := ⟨10, 300000, 3, by decide⟩

theorem commands_applied_in_order_sample :
    WorkedOffInOrder threeAttempts (Machine.run (Drain.step threeAttempts) (.boot twoCommands)
      [.enter, .claim 1000000, .throws, .records true, .enter, .claim 1001000, .applies,
        .completes 1001500 true, .claim 1002000]) :=
  commands_applied_in_order threeAttempts twoCommands _ (by decide) (by decide)

/-- No claim takes a row that is `processing`. -/
def DrainEvent.reclaimsNothing (options : ReconcilerOptions) (d : Drain) : DrainEvent → Bool
  | .claim now => (d.log.claimNextBatch 1 now options.claimTimeoutMs).1.all (!·.reclaimed)
  | _ => true

/-- The queue after a process that crashed in its first command. -/
def crashedQueue : CommandLog :=
  (Machine.run (Drain.step threeAttempts) (.boot twoCommands) [.enter, .claim 1000000]).log

/-- **An earlier command is overtaken** where the record of its failure is lost, and where a crash left
it in work: the next claim passes over the row and starts the later command. -/
theorem overtaken_command : (¬ ∀ options log events, log.isReleased = true →
        Machine.meetsThroughout (DrainEvent.reclaimsNothing options) (Drain.step options) (.boot log)
          events = true →
        WorkedOffInOrder options (Machine.run (Drain.step options) (.boot log) events)) ∧
      ¬ ∀ options log events,
        Machine.meetsThroughout DrainEvent.recordsFailures (Drain.step options) (.boot log) events = true →
        Machine.meetsThroughout (DrainEvent.reclaimsNothing options) (Drain.step options) (.boot log)
          events = true →
        WorkedOffInOrder options (Machine.run (Drain.step options) (.boot log) events) := by
  refine ⟨fun h => ?_, fun h => ?_⟩
  · have hlost := h threeAttempts twoCommands
      [.enter, .claim 1000000, .throws, .records false, .enter, .claim 1001000] (by decide) (by decide)
    exact absurd (hlost.earlier 2 (by decide) (firstCommand.claim 1000000) (by decide)
      (by decide)) (by decide)
  · have hcrashed := h threeAttempts crashedQueue [.enter, .claim 1001000] (by decide) (by decide)
    exact absurd (hcrashed.earlier 2 (by decide) (firstCommand.claim 1000000) (by decide)
      (by decide)) (by decide)

end Artgod.Trading
