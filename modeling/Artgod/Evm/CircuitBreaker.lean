/-
# The circuit breaker of an endpoint

`CircuitBreaker` (`shared/evm/rpc-resilience.ts`) closes after enough successful probes of a half-open period.
Requests overlap: one that started in an earlier period still finishes later, through the code of its own start.
The runs count the probes of each period beside the breaker, whose counters do not know the period.
-/
import Artgod.Machine.Runs

namespace Artgod.Evm

/-! ## 1. The breaker -/

inductive CircuitState
  | closed | opened | halfOpen
  deriving DecidableEq

structure RpcCircuitBreakerConfig where
  failureThreshold : Int
  openMs : Int
  halfOpenMaxRequests : Int

structure CircuitBreaker where
  state : CircuitState
  consecutiveFailures : Nat
  openedAtMs : Int
  halfOpenInFlight : Nat
  halfOpenSuccesses : Nat
  deriving DecidableEq

/-- How a request ended; `shouldRecordCircuitFailure` says whether its failure is recorded. -/
inductive RequestOutcome
  | succeeded | failed (recorded : Bool)
  deriving DecidableEq

variable (config : RpcCircuitBreakerConfig)

def RpcCircuitBreakerConfig.probeLimit : Int := max 1 config.halfOpenMaxRequests

namespace CircuitBreaker

variable (nowMs : Int) (breaker : CircuitBreaker)

def new : CircuitBreaker := ⟨.closed, 0, 0, 0, 0⟩

def openCircuit : CircuitBreaker := ⟨.opened, 0, nowMs, 0, 0⟩

def closeCircuit : CircuitBreaker := ⟨.closed, 0, breaker.openedAtMs, 0, 0⟩

def transitionOpenToHalfOpenIfReady : CircuitBreaker :=
  if breaker.state ≠ .opened then breaker
  else if nowMs - breaker.openedAtMs < max 1 config.openMs then breaker
  else { breaker with state := .halfOpen, halfOpenInFlight := 0, halfOpenSuccesses := 0 }

def ensureRequestAllowed : Except String Unit :=
  if breaker.state = .opened then .error "RPC circuit is open"
  else if breaker.state = .halfOpen ∧ config.probeLimit ≤ breaker.halfOpenInFlight then
    .error "RPC circuit is half-open and probe limit is reached"
  else .ok ()

/-- The rest of `execute` after a request that started in the closed state. -/
def finishClosed : RequestOutcome → CircuitBreaker
  | .succeeded => { breaker with consecutiveFailures := 0 }
  | .failed false => breaker
  | .failed true =>
    if max 1 config.failureThreshold ≤ breaker.consecutiveFailures + 1 then openCircuit nowMs
    else { breaker with consecutiveFailures := breaker.consecutiveFailures + 1 }

/-- The `finally` block of `executeHalfOpen`. -/
def settleProbe (succeeded : Bool) : CircuitBreaker :=
  let settled := { breaker with
    halfOpenInFlight := breaker.halfOpenInFlight - 1
    halfOpenSuccesses := breaker.halfOpenSuccesses + succeeded.toNat }
  if succeeded ∧ config.probeLimit ≤ settled.halfOpenSuccesses ∧ settled.halfOpenInFlight = 0 then
    settled.closeCircuit
  else settled

/-- The rest of `executeHalfOpen` after its request, in whatever state the breaker is by then. -/
def finishHalfOpen : RequestOutcome → CircuitBreaker
  | .succeeded => breaker.settleProbe config true
  | .failed false => breaker.settleProbe config false
  | .failed true => (openCircuit nowMs).settleProbe config false

end CircuitBreaker

/-! ## 2. Overlapping requests -/

/-- The breaker with its requests in flight.  Half-open periods are numbered; a request is known by the period
that it started in, `none` for the closed state.  `succeeded` and `failed` count the probes of the last
half-open period that ended so, the failures if recorded. -/
structure Overlap where
  breaker : CircuitBreaker
  inFlight : List (Option Nat)
  period : Nat
  succeeded : Nat
  failed : Nat
  deriving DecidableEq

inductive RequestEvent
  | start (nowMs : Int)
  | finish (started : Option Nat) (outcome : RequestOutcome) (nowMs : Int)

def RequestEvent.reading : RequestEvent → Int
  | .start nowMs => nowMs
  | .finish _ _ nowMs => nowMs

namespace Overlap

variable (s : Overlap)

def initial : Overlap := ⟨.new, [], 0, 0, 0⟩

def probes : Nat := s.inFlight.count (some s.period)

/-- A reading of the clock: a half-open period may begin. -/
def enter (nowMs : Int) : Overlap :=
  let breaker := s.breaker.transitionOpenToHalfOpenIfReady config nowMs
  if breaker.state = s.breaker.state then s else ⟨breaker, s.inFlight, s.period + 1, 0, 0⟩

/-- `execute` up to its request. -/
def launch : Overlap :=
  match s.breaker.ensureRequestAllowed config with
  | .error _ => s
  | .ok () =>
    if s.breaker.state = .halfOpen then
      { s with
        breaker := { s.breaker with halfOpenInFlight := s.breaker.halfOpenInFlight + 1 }
        inFlight := some s.period :: s.inFlight }
    else { s with inFlight := none :: s.inFlight }

def finish (started : Option Nat) (outcome : RequestOutcome) (nowMs : Int) : Overlap where
  breaker := if started = none then s.breaker.finishClosed config nowMs outcome
    else s.breaker.finishHalfOpen config nowMs outcome
  inFlight := s.inFlight.erase started
  period := s.period
  succeeded := s.succeeded + (decide (started = some s.period ∧ outcome = .succeeded)).toNat
  failed := s.failed + (decide (started = some s.period ∧ outcome = .failed true)).toNat

def step : RequestEvent → Overlap
  | .start nowMs => (s.enter config nowMs).launch config
  | .finish started outcome nowMs =>
    if started ∈ s.inFlight then s.finish config started outcome nowMs else s

/-- The request that finishes belongs to the half-open period, or what it runs leaves that period's accounting
and an open circuit as they are. -/
def harmless : RequestEvent → Bool
  | .start _ => true
  | .finish started outcome _ =>
    match s.breaker.state, started with
    | .closed, _ => true
    | .opened, none => true
    | .opened, some _ => outcome ≠ .succeeded ∨ s.breaker.halfOpenSuccesses + 1 < config.probeLimit
    | .halfOpen, none =>
      outcome ≠ .failed true ∨ s.breaker.consecutiveFailures + 1 < max 1 config.failureThreshold
    | .halfOpen, some p => p = s.period ∨ outcome = .failed false ∧ s.breaker.halfOpenInFlight = 0

/-- The last half-open period saw enough probes succeed, none fail with a record, and none is in flight. -/
structure Recovered : Prop where
  succeeded : config.probeLimit ≤ s.succeeded
  failed : s.failed = 0
  probes : s.probes = 0

/-- What the breaker's counters mean. -/
structure Accounted : Prop where
  periods : ∀ p, some p ∈ s.inFlight → p ≤ s.period
  waiting : s.breaker.state = .opened → s.breaker.halfOpenInFlight = 0
  inFlight : s.breaker.state = .halfOpen → s.breaker.halfOpenInFlight = s.probes
  limited : s.breaker.state = .halfOpen → (s.probes : Int) ≤ config.probeLimit
  succeeded : s.breaker.state = .halfOpen → s.breaker.halfOpenSuccesses = s.succeeded
  failed : s.breaker.state = .halfOpen → s.failed = 0

variable {config s} {started : Option Nat} {outcome : RequestOutcome} {nowMs : Int}

/-! ## 3. What a start keeps -/

theorem enter_cases : s.enter config nowMs = s ∨
    s.breaker.state = .opened ∧ max 1 config.openMs ≤ nowMs - s.breaker.openedAtMs ∧
      s.enter config nowMs = ⟨{ s.breaker with state := .halfOpen, halfOpenInFlight := 0, halfOpenSuccesses := 0 },
        s.inFlight, s.period + 1, 0, 0⟩ := by
  unfold enter CircuitBreaker.transitionOpenToHalfOpenIfReady
  by_cases hopen : s.breaker.state = .opened
  · by_cases hcool : nowMs - s.breaker.openedAtMs < max 1 config.openMs
    · left
      simp [hopen, hcool]
    · right
      exact ⟨hopen, Int.not_lt.mp hcool, by simp [hopen, hcool]⟩
  · left
    simp [hopen]

theorem Accounted.enter (h : s.Accounted config) : (s.enter config nowMs).Accounted config := by
  rcases @enter_cases config s nowMs with heq | ⟨-, -, heq⟩
  · rwa [heq]
  rw [heq]
  -- No request can have started in the period that begins here.
  have hnone : s.inFlight.count (some (s.period + 1)) = 0 :=
    List.count_eq_zero.mpr fun hmem => absurd (h.periods _ hmem) (by omega)
  refine ⟨fun p hp => Nat.le_succ_of_le (h.periods p hp), (nomatch ·),
    fun _ => hnone.symm, fun _ => ?_, fun _ => rfl, fun _ => rfl⟩
  rw [probes, hnone]
  exact Int.le_trans (by decide) (Int.le_max_left 1 _)

theorem Accounted.launch (h : s.Accounted config) : (s.launch config).Accounted config := by
  unfold Overlap.launch
  split
  · exact h
  case h_2 hallowed =>
    split
    case isTrue hhalf =>
      have hroom : ¬config.probeLimit ≤ s.breaker.halfOpenInFlight := by
        intro hfull
        simp [CircuitBreaker.ensureRequestAllowed, hhalf, hfull] at hallowed
      have hcount : (some s.period :: s.inFlight).count (some s.period) = s.probes + 1 := List.count_cons_self
      have hsame := h.inFlight hhalf
      refine ⟨fun p hp => ?_, fun hopen => by simp [hhalf] at hopen, fun _ => ?_, fun _ => ?_,
        h.succeeded, h.failed⟩
      · rcases List.mem_cons.mp hp with heq | hp
        · exact Nat.le_of_eq (Option.some.inj heq)
        · exact h.periods p hp
      · exact (congrArg (· + 1) hsame).trans hcount.symm
      · rw [probes, hcount]
        omega
    case isFalse =>
      have hcount : (none :: s.inFlight).count (some s.period) = s.probes := List.count_cons_of_ne (by simp)
      exact ⟨fun p hp => h.periods p (by simpa using hp), h.waiting, fun hhalf => (h.inFlight hhalf).trans hcount.symm,
        fun hhalf => hcount ▸ h.limited hhalf, h.succeeded, h.failed⟩

/-! ## 4. What a finish keeps -/

theorem probes_finish : (s.finish config started outcome nowMs).probes
    = s.probes - if started = some s.period then 1 else 0 := by
  unfold probes finish
  rw [List.count_erase]
  simp only [beq_iff_eq]

variable {s' : Overlap}

theorem finish_stale (hs' : s.finish config started outcome nowMs = s') (hhalf : s.breaker.state = .halfOpen)
    (hstale : started ≠ some s.period) (hharmless : s.harmless config (.finish started outcome nowMs)) :
    s'.breaker = { s.breaker with consecutiveFailures := s'.breaker.consecutiveFailures } ∧
      s'.probes = s.probes ∧ s'.succeeded = s.succeeded ∧ s'.failed = s.failed := by
  subst hs'
  refine ⟨?_, by rw [probes_finish, if_neg hstale, Nat.sub_zero], by simp [finish, hstale], by simp [finish, hstale]⟩
  cases started with
  | none =>
    simp only [harmless, hhalf, decide_eq_true_eq] at hharmless
    match outcome with
    | .succeeded => rfl
    | .failed false => rfl
    | .failed true =>
      have hbelow : ¬max 1 config.failureThreshold ≤ s.breaker.consecutiveFailures + 1 :=
        Int.not_le.mpr (hharmless.resolve_left (not_not_intro rfl))
      simp [finish, CircuitBreaker.finishClosed, hbelow]
  | some p =>
    have hp : p ≠ s.period := fun heq => hstale (heq ▸ rfl)
    simp only [harmless, hhalf, hp, false_or, decide_eq_true_eq] at hharmless
    obtain ⟨rfl, hzero⟩ := hharmless
    simp [finish, CircuitBreaker.finishHalfOpen, CircuitBreaker.settleProbe, hzero]

theorem finish_outside (hs' : s.finish config started outcome nowMs = s') (hhalf : s.breaker.state ≠ .halfOpen)
    (hwaiting : s.breaker.state = .opened → s.breaker.halfOpenInFlight = 0)
    (hharmless : s.harmless config (.finish started outcome nowMs)) :
    s'.breaker.state ≠ .halfOpen ∧ (s.breaker.state = .opened → s'.breaker.state = .opened) ∧
      (s'.breaker.state = .opened → s'.breaker.halfOpenInFlight = 0) := by
  subst hs'
  match started, outcome with
  | none, .succeeded => exact ⟨hhalf, id, hwaiting⟩
  | none, .failed false => exact ⟨hhalf, id, hwaiting⟩
  | none, .failed true =>
    simp only [finish, CircuitBreaker.finishClosed, if_true]
    split
    · exact ⟨(nomatch ·), fun _ => rfl, fun _ => rfl⟩
    · exact ⟨hhalf, id, hwaiting⟩
  | some p, .succeeded =>
    simp only [finish, CircuitBreaker.finishHalfOpen, CircuitBreaker.settleProbe, reduceCtorEq, if_false]
    split
    case isTrue hclose =>
      refine ⟨(nomatch ·), fun hopen => absurd hclose.2.1 ?_, (nomatch ·)⟩
      simpa [harmless, hopen] using hharmless
    case isFalse => exact ⟨hhalf, id, fun hopen => by rw [hwaiting hopen]⟩
  | some p, .failed false => exact ⟨hhalf, id, fun hopen => congrArg (· - 1) (hwaiting hopen)⟩
  | some p, .failed true => exact ⟨(nomatch ·), fun _ => rfl, fun _ => rfl⟩

theorem settle_current (h : s.Accounted config) (hhalf : s.breaker.state = .halfOpen) (succeeded : Bool)
    (hbreaker : s'.breaker = s.breaker.settleProbe config succeeded)
    (hinFlight : s'.inFlight = s.inFlight.erase (some s.period)) (hperiod : s'.period = s.period)
    (hsucceeded : s'.succeeded = s.breaker.halfOpenSuccesses + succeeded.toNat) (hfailed : s'.failed = 0) :
    s'.Accounted config ∧ (s'.breaker.state = .closed → s'.Recovered config) := by
  have hprobes : s'.probes = s.breaker.halfOpenInFlight - 1 := by
    rw [probes, hinFlight, hperiod, List.count_erase_self, h.inFlight hhalf]
    rfl
  have hperiods : ∀ p, some p ∈ s'.inFlight → p ≤ s'.period :=
    fun p hp => hperiod ▸ h.periods p (List.mem_of_mem_erase (hinFlight ▸ hp))
  have hlimited := h.limited hhalf
  rw [← h.inFlight hhalf] at hlimited
  unfold CircuitBreaker.settleProbe at hbreaker
  dsimp only at hbreaker
  split at hbreaker
  case isTrue hclose =>
    have hclosed : s'.breaker.state = .closed := by rw [hbreaker, CircuitBreaker.closeCircuit]
    refine ⟨⟨hperiods, ?_, ?_, ?_, ?_, ?_⟩, fun _ => ⟨hsucceeded ▸ hclose.2.1, hfailed, hprobes.trans hclose.2.2⟩⟩ <;>
      · rw [hclosed]
        exact (nomatch ·)
  case isFalse =>
    have hstate : s'.breaker.state = .halfOpen := by rw [hbreaker, hhalf]
    refine ⟨⟨hperiods, fun hopen => ?_, fun _ => ?_, fun _ => by omega, fun _ => ?_, fun _ => hfailed⟩,
      fun hclosed => ?_⟩
    · exact absurd (hopen.symm.trans hstate) (by decide)
    · rw [hbreaker, hprobes]
    · rw [hbreaker, hsucceeded]
    · exact absurd (hclosed.symm.trans hstate) (by decide)

/-- A finishing probe of the half-open period: it keeps the accounting, opens the circuit, or closes it when the
period has recovered. -/
theorem finish_current (hs' : s.finish config started outcome nowMs = s') (h : s.Accounted config)
    (hhalf : s.breaker.state = .halfOpen) (hcurrent : started = some s.period) :
    s'.Accounted config ∧ (s'.breaker.state = .closed → s'.Recovered config) := by
  subst hs' hcurrent
  have hsucceeded := h.succeeded hhalf
  have hfailed := h.failed hhalf
  match outcome with
  | .succeeded =>
    exact settle_current h hhalf true rfl rfl rfl (by simp [finish, hsucceeded]) (by simp [finish, hfailed])
  | .failed false =>
    exact settle_current h hhalf false rfl rfl rfl (by simp [finish, hsucceeded]) (by simp [finish, hfailed])
  | .failed true =>
    exact ⟨⟨fun p hp => h.periods p (List.mem_of_mem_erase hp), fun _ => rfl, (nomatch ·), (nomatch ·), (nomatch ·),
      (nomatch ·)⟩, (nomatch ·)⟩

theorem Accounted.step (h : s.Accounted config) {e : RequestEvent} (hharmless : s.harmless config e) :
    (s.step config e).Accounted config := by
  cases e with
  | start nowMs => exact h.enter.launch
  | finish started outcome nowMs =>
    by_cases hmem : started ∈ s.inFlight
    · rw [Overlap.step, if_pos hmem]
      have hperiods : ∀ p, some p ∈ s.inFlight.erase started → p ≤ s.period :=
        fun p hp => h.periods p (List.mem_of_mem_erase hp)
      by_cases hhalf : s.breaker.state = .halfOpen
      · by_cases hcurrent : started = some s.period
        · exact (finish_current rfl h hhalf hcurrent).1
        obtain ⟨hbreaker, hprobes, hsucceeded, hfailed⟩ := finish_stale rfl hhalf hcurrent hharmless
        refine ⟨hperiods, ?_, ?_, ?_, ?_, ?_⟩ <;> rw [hbreaker]
        · exact h.waiting
        · exact hprobes ▸ h.inFlight
        · exact hprobes ▸ h.limited
        · exact hsucceeded ▸ h.succeeded
        · exact hfailed ▸ h.failed
      · obtain ⟨hnot, -, hwaiting⟩ := finish_outside rfl hhalf h.waiting hharmless
        exact ⟨hperiods, hwaiting, (absurd · hnot), (absurd · hnot), (absurd · hnot), (absurd · hnot)⟩
    · rwa [Overlap.step, if_neg hmem]

theorem accounted_initial : initial.Accounted config :=
  ⟨fun _ hp => (nomatch hp), (nomatch ·), (nomatch ·), (nomatch ·), (nomatch ·), (nomatch ·)⟩

/-! ## 5. Runs -/

theorem launch_keeps : (s.launch config).breaker.state = s.breaker.state ∧
    (s.launch config).breaker.openedAtMs = s.breaker.openedAtMs := by
  unfold launch
  split
  · exact ⟨rfl, rfl⟩
  · split <;> exact ⟨rfl, rfl⟩

theorem settleProbe_keeps (breaker : CircuitBreaker) (succeeded : Bool) :
    (breaker.settleProbe config succeeded).openedAtMs = breaker.openedAtMs ∧
      ((breaker.settleProbe config succeeded).state = .opened → breaker.state = .opened) := by
  unfold CircuitBreaker.settleProbe
  dsimp only
  split
  · exact ⟨rfl, (nomatch ·)⟩
  · exact ⟨rfl, id⟩

theorem finish_opened (hs' : s.finish config started outcome nowMs = s') (hopen : s'.breaker.state = .opened) :
    s'.breaker.openedAtMs = nowMs ∨
      s.breaker.state = .opened ∧ s'.breaker.openedAtMs = s.breaker.openedAtMs := by
  subst hs'
  match started, outcome with
  | none, .succeeded => exact .inr ⟨hopen, rfl⟩
  | none, .failed false => exact .inr ⟨hopen, rfl⟩
  | none, .failed true =>
    simp only [finish, CircuitBreaker.finishClosed, if_true] at hopen ⊢
    split at hopen
    case isTrue hreached => exact .inl (by rw [if_pos hreached]; rfl)
    case isFalse hbelow => exact .inr ⟨hopen, by rw [if_neg hbelow]⟩
  | some p, .succeeded => exact .inr ⟨(settleProbe_keeps s.breaker true).2 hopen, (settleProbe_keeps s.breaker true).1⟩
  | some p, .failed false => exact .inr ⟨hopen, rfl⟩
  | some p, .failed true => exact .inl rfl

/-- **The half-open accounting holds in the runs without harmful late finishes**: the probes of a half-open
period are limited and counted, an open circuit admits nothing before its cooldown has passed since the reading
at which it was last opened, it closes only once the half-open period has shown that the endpoint recovered, and
requests of earlier periods leave that accounting as it is. -/
theorem half_open_accounting {events : List RequestEvent}
    (hharmless : Machine.meetsThroughout (harmless config) (step config) initial events) :
    let s := Machine.run (step config) initial events
    (s.breaker.state = .halfOpen → (s.probes : Int) ≤ config.probeLimit ∧ s.breaker.halfOpenInFlight = s.probes ∧
      s.breaker.halfOpenSuccesses = s.succeeded ∧ s.failed = 0) ∧
    (∀ nowMs, s.breaker.state = .opened → nowMs - s.breaker.openedAtMs < max 1 config.openMs →
      (s.breaker.transitionOpenToHalfOpenIfReady config nowMs).ensureRequestAllowed config
        = .error "RPC circuit is open" ∧ s.step config (.start nowMs) = s) ∧
    (∀ e, (s.step config e).breaker.state = .opened → (s.step config e).breaker.openedAtMs = e.reading ∨
      s.breaker.state = .opened ∧ (s.step config e).breaker.openedAtMs = s.breaker.openedAtMs) ∧
    (∀ e, s.harmless config e → s.breaker.state ≠ .closed → (s.step config e).breaker.state = .closed →
      s.breaker.state = .halfOpen ∧ (s.step config e).Recovered config) ∧
    ∀ started outcome nowMs, s.harmless config (.finish started outcome nowMs) → s.breaker.state = .halfOpen →
      started ≠ some s.period →
      let s' := s.step config (.finish started outcome nowMs)
      s'.breaker.state = .halfOpen ∧ s'.breaker.halfOpenInFlight = s.breaker.halfOpenInFlight ∧
        s'.breaker.halfOpenSuccesses = s.breaker.halfOpenSuccesses ∧ s'.probes = s.probes ∧
        s'.succeeded = s.succeeded ∧ s'.failed = s.failed := by
  have haccounted : (Machine.run (step config) initial events).Accounted config :=
    Machine.run_invariant_of_meets (fun s e h hok => h.step hok) accounted_initial hharmless
  generalize Machine.run (step config) initial events = s at haccounted
  refine ⟨fun hhalf => ⟨haccounted.limited hhalf, haccounted.inFlight hhalf, haccounted.succeeded hhalf,
    haccounted.failed hhalf⟩, fun nowMs hopen hcool => ?_, fun e => ?_, fun e hok hleft hclosed => ?_,
    fun started outcome nowMs hok hhalf hstale => ?_⟩
  · have hstays : s.breaker.transitionOpenToHalfOpenIfReady config nowMs = s.breaker := by
      simp [CircuitBreaker.transitionOpenToHalfOpenIfReady, hcool]
    have hrefused : s.breaker.ensureRequestAllowed config = .error "RPC circuit is open" := by
      rw [CircuitBreaker.ensureRequestAllowed, if_pos hopen]
    refine ⟨by rw [hstays, hrefused], ?_⟩
    simp [step, enter, hstays, launch, hrefused]
  · cases e with
    | start nowMs =>
      intro hopen
      rw [step, launch_keeps.1] at hopen
      rw [step, launch_keeps.2]
      rcases @enter_cases config s nowMs with heq | ⟨-, -, heq⟩
      · rw [heq] at hopen ⊢
        exact .inr ⟨hopen, rfl⟩
      · rw [heq] at hopen
        cases hopen
    | finish started outcome nowMs =>
      intro hopen
      rw [step] at hopen ⊢
      split at hopen
      case isTrue hmem => exact if_pos (c := started ∈ s.inFlight) hmem ▸ finish_opened rfl hopen
      case isFalse hmem => exact .inr ⟨hopen, by rw [if_neg hmem]⟩
  · cases e with
    | start nowMs =>
      rw [step, launch_keeps.1] at hclosed
      rcases @enter_cases config s nowMs with heq | ⟨-, -, heq⟩
      · exact absurd (heq ▸ hclosed) hleft
      · rw [heq] at hclosed
        cases hclosed
    | finish started outcome nowMs =>
      rw [step] at hclosed ⊢
      split at hclosed
      case isFalse => exact absurd hclosed hleft
      case isTrue hmem =>
        rw [if_pos hmem]
        by_cases hhalf : s.breaker.state = .halfOpen
        · refine ⟨hhalf, ?_⟩
          by_cases hcurrent : started = some s.period
          · exact (finish_current rfl haccounted hhalf hcurrent).2 hclosed
          · rw [(finish_stale rfl hhalf hcurrent hok).1] at hclosed
            exact absurd hclosed hleft
        · have hopen : s.breaker.state = .opened := by
            cases hstate : s.breaker.state with
            | opened => rfl
            | closed => exact absurd hstate hleft
            | halfOpen => exact absurd hstate hhalf
          have hstays := (finish_outside rfl hhalf haccounted.waiting hok).2.1 hopen
          exact absurd (hstays.symm.trans hclosed) (by decide)
  · rw [step]
    split
    · obtain ⟨hbreaker, hprobes, hsucceeded, hfailed⟩ := finish_stale rfl hhalf hstale hok
      dsimp only
      rw [hbreaker]
      exact ⟨hhalf, rfl, rfl, hprobes, hsucceeded, hfailed⟩
    · exact ⟨hhalf, rfl, rfl, rfl, rfl, rfl⟩

theorem half_open_accounting_twoProbes : ((Machine.run (step ⟨1, 10, 2⟩) initial
      [.start 0, .finish none (.failed true) 0, .start 10, .start 10]).probes : Int)
        ≤ RpcCircuitBreakerConfig.probeLimit ⟨1, 10, 2⟩ :=
  ((half_open_accounting (by decide)).1 (by decide)).1

/-- A probe of the first half-open period succeeds in the second one and frees the place of the probe that runs
there: three probes of the second period are in flight where two may be. -/
theorem late_success_frees_place :
    let s := Machine.run (step ⟨1, 10, 2⟩) initial [.start 0, .finish none (.failed true) 0, .start 10, .start 10,
      .finish (some 1) (.failed true) 10, .start 20, .finish (some 1) .succeeded 20, .start 20, .start 20]
    s.breaker.state = .halfOpen ∧ RpcCircuitBreakerConfig.probeLimit ⟨1, 10, 2⟩ < s.probes := by
  decide

end Overlap

end Artgod.Evm
