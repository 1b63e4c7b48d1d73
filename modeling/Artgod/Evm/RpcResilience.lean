/-
# Rate limiting and retrying RPC requests

`TokenBucketRateLimiter` lets a request through for a token, or for what is a token up to rounding, and
`executeWithRpcRetry` repeats an attempt that failed.  Every reading of the clock is an argument.
-/
import Mathlib.Data.Rat.Floor
import Mathlib.Algebra.Order.Group.MinMax
import Artgod.Flow.TokenBucket
import Artgod.Machine.Runs

namespace Artgod.Evm

open Flow

/-! ## 1. The rate limiter -/

inductive RpcRateLimiterConfig
  | unlimited
  | limited (requestsPerSecond burst : ℚ)

def assertRpcRateLimiterConfig : RpcRateLimiterConfig → Except String Unit
  | .unlimited => .ok ()
  | .limited requestsPerSecond burst =>
    if requestsPerSecond ≤ 0 ∨ burst.den ≠ 1 ∨ 2 ^ 53 ≤ burst ∨ burst < 1 then
      .error "Invalid RPC rate limit policy"
    else .ok ()

structure TokenBucketRateLimiter where
  config : RpcRateLimiterConfig
  tokens : ℚ
  lastRefillMs : ℚ

namespace TokenBucketRateLimiter

/-- The constructor. -/
def create (config : RpcRateLimiterConfig) (nowMs : ℚ) : Except String TokenBucketRateLimiter := do
  assertRpcRateLimiterConfig config
  return ⟨config, match config with | .limited _ burst => burst | .unlimited => 0, nowMs⟩

variable (s : TokenBucketRateLimiter) (now : ℚ)

def refillTokens : TokenBucketRateLimiter :=
  match s.config with
  | .unlimited => s
  | .limited requestsPerSecond burst =>
    let elapsedMs := max 0 (now - s.lastRefillMs)
    if elapsedMs ≤ 0 then s
    else { s with tokens := min burst (s.tokens + elapsedMs / 1000 * requestsPerSecond), lastRefillMs := now }

def tryAcquire : Bool × TokenBucketRateLimiter :=
  match s.config with
  | .unlimited => (true, s)
  | .limited _ _ =>
    let s := s.refillTokens now
    if s.tokens < 1 - 1e-9 then (false, s) else (true, { s with tokens := max 0 (s.tokens - 1) })

def waitTimeMs : Int × TokenBucketRateLimiter :=
  match s.config with
  | .unlimited => (0, s)
  | .limited requestsPerSecond _ =>
    let s := s.refillTokens now
    (if 1 - 1e-9 ≤ s.tokens then 0 else max 1 ⌈(1 - s.tokens) / requestsPerSecond * 1000⌉, s)

/-- A call of the limiter's owner. -/
inductive Call
  | tryAcquire (nowMs : ℚ)
  | waitTimeMs (nowMs : ℚ)

def Call.nowMs : Call → ℚ
  | .tryAcquire nowMs => nowMs
  | .waitTimeMs nowMs => nowMs

/-- A call, with the number of tokens granted. -/
def step (m : TokenBucketRateLimiter × Nat) : Call → TokenBucketRateLimiter × Nat
  | .tryAcquire nowMs =>
    let (acquired, s) := m.1.tryAcquire nowMs
    (s, if acquired then m.2 + 1 else m.2)
  | .waitTimeMs nowMs => ((m.1.waitTimeMs nowMs).2, m.2)

/-- The bucket of a limited mode. -/
def bucket (rate burst : ℚ) : Bucket ℚ := ⟨burst, rate / 1000, s.tokens, s.lastRefillMs⟩

/-- What the calls keep in a limited mode. -/
structure Limited (rate burst : ℚ) : Prop where
  config : s.config = .limited rate burst
  sound : (s.bucket rate burst).Sound

variable {s} {rate burst start : ℚ} {m : TokenBucketRateLimiter × Nat}

theorem Limited.create (h : create (.limited rate burst) start = .ok s) : s.Limited rate burst := by
  unfold TokenBucketRateLimiter.create assertRpcRateLimiterConfig at h
  dsimp only at h
  split at h
  · cases h
  case isFalse hvalid =>
    cases h
    push Not at hvalid
    have hburst : 0 ≤ burst := le_trans zero_le_one hvalid.2.2.2
    exact ⟨rfl, div_nonneg hvalid.1.le (by norm_num), hburst, le_refl _⟩

theorem Limited.refillTokens (h : s.Limited rate burst) (now : ℚ) : (s.refillTokens now).Limited rate burst ∧
    (s.refillTokens now).bucket rate burst = (s.bucket rate burst).refill now := by
  have hbucket : (s.refillTokens now).config = .limited rate burst ∧
      (s.refillTokens now).bucket rate burst = (s.bucket rate burst).refill now := by
    unfold TokenBucketRateLimiter.refillTokens Bucket.refill bucket
    rw [h.config]
    dsimp only
    rcases le_or_gt now s.lastRefillMs with hle | hlt
    · rw [if_pos (max_le (le_refl _) (sub_nonpos.mpr hle)), if_pos hle]
      exact ⟨h.config, rfl⟩
    · have hpos := sub_pos.mpr hlt
      rw [max_eq_right hpos.le, if_neg hpos.not_ge, if_neg hlt.not_ge, div_mul_eq_mul_div, ← mul_div_assoc]
      exact ⟨rfl, rfl⟩
  exact ⟨⟨hbucket.1, hbucket.2 ▸ h.sound.refill now⟩, hbucket.2⟩

/-- **What a call does:** it brings the bucket up to its reading and takes the cost of what it grants. -/
theorem Limited.step (h : m.1.Limited rate burst) (c : Call) : (step m c).1.Limited rate burst ∧ ∃ cost,
    (step m c).1.bucket rate burst = ((m.1.bucket rate burst).refill c.nowMs).charge cost ∧
      ((step m c).2 - m.2) * (1 - 1e-9) ≤ cost := by
  obtain ⟨hp, hbucket⟩ := h.refillTokens c.nowMs
  rw [← hbucket]
  cases c with
  | waitTimeMs now =>
    simp only [TokenBucketRateLimiter.step, waitTimeMs, h.config, Call.nowMs] at hp ⊢
    exact ⟨hp, 0, by simp [Bucket.charge], by simp⟩
  | tryAcquire now =>
    simp only [TokenBucketRateLimiter.step, tryAcquire, h.config, Call.nowMs] at hp ⊢
    generalize m.1.refillTokens now = p at hp ⊢
    split
    · exact ⟨hp, 0, by simp [Bucket.charge], by simp⟩
    case isFalse henough =>
      -- The cost is what there is, if that is less than a token.
      have htaken : max 0 (p.tokens - 1) = p.tokens - min 1 p.tokens := by
        rw [← max_sub_sub_left, sub_self, max_comm]
      have hcharged : (⟨p.config, max 0 (p.tokens - 1), p.lastRefillMs⟩ : TokenBucketRateLimiter).bucket rate burst
          = (p.bucket rate burst).charge (min 1 p.tokens) := by
        rw [htaken]
        rfl
      refine ⟨⟨hp.config, ?_⟩, _, hcharged, ?_⟩
      · rw [hcharged]
        exact hp.sound.charge (le_min zero_le_one hp.sound.tokens_nonneg) (min_le_right _ _)
      · simp only [if_true]
        push_cast
        rw [add_sub_cancel_left, one_mul]
        exact le_min (by norm_num) (not_lt.mp henough)

theorem Limited.run (h : m.1.Limited rate burst) {last : ℚ} {calls : List Call}
    (hcalls : ∀ c ∈ calls, c.nowMs ≤ last) :
    let m' := Machine.run TokenBucketRateLimiter.step m calls
    m'.1.Limited rate burst ∧
      (m'.2 - m.2) * (1 - 1e-9) + (m'.1.bucket rate burst).potential ≤ (m.1.bucket rate burst).potential ∧
      m'.1.lastRefillMs ≤ max m.1.lastRefillMs last := by
  induction calls generalizing m with
  | nil => exact ⟨h, by simp, le_max_left _ _⟩
  | cons c calls ih =>
    obtain ⟨hnow, hcalls⟩ := List.forall_mem_cons.mp hcalls
    obtain ⟨h', cost, hbucket, hpaid⟩ := h.step c
    obtain ⟨hrun, hspent, hclock⟩ := ih h' hcalls
    have hlast := congrArg Bucket.last hbucket
    rw [Bucket.charge, Bucket.refill_last] at hlast
    have hrefill := (m.1.bucket rate burst).potential_refill_le c.nowMs
    rw [hbucket, Bucket.potential_charge] at hspent
    refine ⟨hrun, ?_, hclock.trans (max_le (hlast.trans_le (max_le_max_left _ hnow)) (le_max_right _ _))⟩
    rw [Machine.run_cons]
    linarith

theorem Limited.reached (hcreate : TokenBucketRateLimiter.create (.limited rate burst) start = .ok s)
    (calls : List Call) : (Machine.run TokenBucketRateLimiter.step (s, 0) calls).1.Limited rate burst :=
  @Machine.run_invariant _ _ _ (fun m => m.1.Limited rate burst) (fun _ c h => (h.step c).1) (s, 0)
    (Limited.create hcreate) calls

/-- **The limit of the rate.**  In every run the tokens stay between zero and the burst, and calls with readings
between `first` and `last` are granted at most the burst and what that time brings, up to `1e-9` of a token each. -/
theorem rpc_rate_limited {first last : ℚ} (hcreate : create (.limited rate burst) start = .ok s)
    (before calls : List Call) (hle : first ≤ last) (hcalls : ∀ c ∈ calls, first ≤ c.nowMs ∧ c.nowMs ≤ last) :
    let m := Machine.run step (s, 0) before
    (0 ≤ m.1.tokens ∧ m.1.tokens ≤ burst) ∧
      ((Machine.run step m calls).2 - m.2) * (1 - 1e-9) ≤ burst + (last - first) * (rate / 1000) := by
  intro m
  have hm : m.1.Limited rate burst := Limited.reached hcreate before
  refine ⟨⟨hm.sound.tokens_nonneg, hm.sound.tokens_le⟩, ?_⟩
  have hrate : 0 ≤ rate / 1000 := hm.sound.rate_nonneg
  cases calls with
  | nil =>
    have hburst : 0 ≤ burst := hm.sound.tokens_nonneg.trans hm.sound.tokens_le
    have helapsed := mul_nonneg (sub_nonneg.mpr hle) hrate
    rw [Machine.run_nil, sub_self, zero_mul]
    exact add_nonneg hburst helapsed
  | cons c calls =>
    obtain ⟨⟨hfirst, -⟩, hcalls⟩ := List.forall_mem_cons.mp hcalls
    obtain ⟨h', cost, hbucket, hpaid⟩ := hm.step c
    obtain ⟨hrun, hspent, hclock⟩ := h'.run fun c hc => (hcalls c hc).2
    rw [Machine.run_cons]
    generalize Machine.run step (step m c) calls = m' at hrun hspent hclock ⊢
    -- The first call finds the burst at best, and the rest is what the clock brings afterwards.
    have hread : (step m c).1.lastRefillMs = max m.1.lastRefillMs c.nowMs :=
      (congrArg Bucket.last hbucket).trans (Bucket.refill_last _ _)
    have hfull := (hm.sound.refill c.nowMs).potential_le
    rw [Bucket.refill_last, Bucket.refill_rate, Bucket.refill_max] at hfull
    rw [hbucket, Bucket.potential_charge] at hspent
    have helapsed : m'.1.lastRefillMs - max m.1.lastRefillMs c.nowMs ≤ last - first := by
      have hstays : first ≤ max m.1.lastRefillMs c.nowMs := hfirst.trans (le_max_right _ _)
      rw [hread] at hclock
      rcases max_cases (max m.1.lastRefillMs c.nowMs) last with ⟨heq, -⟩ | ⟨heq, -⟩
      · rw [heq] at hclock
        linarith
      · rw [heq] at hclock
        exact sub_le_sub hclock hstays
    have hbrought := mul_le_mul_of_nonneg_right helapsed hrate
    have hempty : 0 ≤ m'.1.tokens := hrun.sound.tokens_nonneg
    simp only [Bucket.potential, bucket] at hfull hspent
    linarith

theorem rpc_rate_limited_burst :
    let m := Machine.run step (⟨.limited 1 2, 2, 0⟩, 0) []
    (0 ≤ m.1.tokens ∧ m.1.tokens ≤ 2) ∧
      (((Machine.run step m [.tryAcquire 0, .tryAcquire 1, .waitTimeMs 2, .tryAcquire 2]).2 : ℚ) - m.2) * (1 - 1e-9)
        ≤ 2 + (2 - 0) * (1 / 1000) :=
  rpc_rate_limited (show create (.limited 1 2) 0 = _ by rfl) [] _ (by decide) (by decide +kernel)

end TokenBucketRateLimiter

/-! ## 2. The retry loop -/

structure RpcRetryPolicy where
  maxAttempts : Int
  baseDelayMs : ℚ
  maxDelayMs : ℚ

def getRpcRetryDelayMs (attempt : Nat) (policy : RpcRetryPolicy) : ℚ :=
  min (policy.baseDelayMs * 2 ^ (attempt - 1)) policy.maxDelayMs

/-- `RpcRetryScheduledContext`; the loop sleeps for `delayMs` after it. -/
structure RpcRetryScheduledContext (E : Type) where
  attempt : Nat
  nextAttempt : Nat
  delayMs : ℚ
  error : E

section

variable {E T : Type} (policy : RpcRetryPolicy) (executeAttempt : Nat → Except E T) (shouldRetry : E → Bool)

/-- The loop of `executeWithRpcRetry`: its result, and the retries it schedules. -/
def retryFrom (attempt : Nat) : Except E T × List (RpcRetryScheduledContext E) :=
  match executeAttempt attempt with
  | .ok value => (.ok value, [])
  | .error error =>
    if _ : !shouldRetry error ∨ policy.maxAttempts ≤ attempt then (.error error, [])
    else
      let (result, scheduled) := retryFrom (attempt + 1)
      (result, ⟨attempt, attempt + 1, getRpcRetryDelayMs attempt policy, error⟩ :: scheduled)
termination_by (policy.maxAttempts - attempt).toNat
decreasing_by omega

def executeWithRpcRetry : Except E T × List (RpcRetryScheduledContext E) :=
  retryFrom policy executeAttempt shouldRetry 1

/-- The retry that follows attempt `n`, which failed. -/
structure Retries (n : Nat) (c : RpcRetryScheduledContext E) : Prop where
  attempts : c.attempt = n ∧ c.nextAttempt = n + 1 ∧ (n : Int) < policy.maxAttempts
  delay : c.delayMs = getRpcRetryDelayMs n policy
  failed : executeAttempt n = .error c.error ∧ shouldRetry c.error = true

variable {policy executeAttempt shouldRetry} {n : Nat}

theorem retryFrom_spec (attempt : Nat) : ∃ last, attempt ≤ last ∧ (last = attempt ∨ (last : Int) ≤ policy.maxAttempts) ∧
    (retryFrom policy executeAttempt shouldRetry attempt).1 = executeAttempt last ∧
    (∀ error, executeAttempt last = .error error → shouldRetry error = false ∨ policy.maxAttempts ≤ last) ∧
    List.Forall₂ (Retries policy executeAttempt shouldRetry) (List.range' attempt (last - attempt))
      (retryFrom policy executeAttempt shouldRetry attempt).2 := by
  fun_induction retryFrom policy executeAttempt shouldRetry attempt with
  | case1 attempt value hvalue =>
    refine ⟨attempt, le_refl _, .inl rfl, hvalue.symm, fun error h => ?_, by simp⟩
    rw [hvalue] at h
    cases h
  | case2 attempt error herror hends =>
    refine ⟨attempt, le_refl _, .inl rfl, herror.symm, fun error' h => ?_, by simp⟩
    rw [herror] at h
    cases h
    simpa using hends
  | case3 attempt error herror hgoes result scheduled hrest ih =>
    obtain ⟨last, hle, hmax, hresult, hends, hall⟩ := ih
    rw [hrest] at hresult hall
    push Not at hgoes
    refine ⟨last, by omega, .inr (by omega), hresult, hends, ?_⟩
    rw [show last - attempt = (last - (attempt + 1)) + 1 by omega, List.range'_succ]
    exact .cons ⟨⟨rfl, rfl, hgoes.2⟩, rfl, herror, by simpa using hgoes.1⟩ hall

theorem sum_delays_le (k : Nat) : ((List.range' 1 k).map (getRpcRetryDelayMs · policy)).sum
    ≤ min (policy.baseDelayMs * (2 ^ k - 1)) (k * policy.maxDelayMs) := by
  induction k with
  | zero => simp
  | succ k ih =>
    obtain ⟨hbase, hmax⟩ := le_min_iff.mp ih
    have hdelay : getRpcRetryDelayMs (1 + k) policy ≤ policy.baseDelayMs * 2 ^ k := by
      rw [getRpcRetryDelayMs, Nat.add_sub_cancel_left]
      exact min_le_left _ _
    have hlimit : getRpcRetryDelayMs (1 + k) policy ≤ policy.maxDelayMs := min_le_right _ _
    rw [List.range'_concat, List.map_append, List.sum_append, List.map_singleton, List.sum_singleton, one_mul, pow_succ]
    push_cast
    exact le_min (by linarith) (by linarith)

theorem delays_eq {ns : List Nat} {scheduled : List (RpcRetryScheduledContext E)}
    (h : List.Forall₂ (Retries policy executeAttempt shouldRetry) ns scheduled) :
    scheduled.map (·.delayMs) = ns.map (getRpcRetryDelayMs · policy) := by
  induction h with
  | nil => rfl
  | cons h _ ih => rw [List.map_cons, List.map_cons, h.delay, ih]

/-- **The retry loop ends.**  Its result is that of the first attempt that succeeds, fails for good or is the last
allowed; each attempt before it is followed by one sleep, none shorter than the sleep before it, and together the
sleeps are bounded by the sum of the exponential delays and by the greatest delay for each. -/
theorem rpc_retry_bounded (policy : RpcRetryPolicy) (executeAttempt : Nat → Except E T) (shouldRetry : E → Bool) :
    ∃ last : Nat, 1 ≤ last ∧ (last : Int) ≤ max 1 policy.maxAttempts ∧
      (executeWithRpcRetry policy executeAttempt shouldRetry).1 = executeAttempt last ∧
      (∀ error, executeAttempt last = .error error → shouldRetry error = false ∨ policy.maxAttempts ≤ last) ∧
      List.Forall₂ (Retries policy executeAttempt shouldRetry) (List.range' 1 (last - 1))
        (executeWithRpcRetry policy executeAttempt shouldRetry).2 ∧
      let delays := (executeWithRpcRetry policy executeAttempt shouldRetry).2.map (·.delayMs)
      (0 ≤ policy.baseDelayMs → delays.Pairwise (· ≤ ·)) ∧
        delays.sum ≤ min (policy.baseDelayMs * (2 ^ (last - 1) - 1)) ((last - 1 : Nat) * policy.maxDelayMs) := by
  obtain ⟨last, hle, hmax, hresult, hends, hall⟩ := @retryFrom_spec E T policy executeAttempt shouldRetry 1
  refine ⟨last, hle, by omega, hresult, hends, hall, fun hbase => ?_, delays_eq hall ▸ sum_delays_le _⟩
  rw [executeWithRpcRetry, delays_eq hall, List.pairwise_map]
  refine (List.pairwise_lt_range' 1).imp fun {m n} hmn => ?_
  have hpow : (2 : ℚ) ^ (m - 1) ≤ 2 ^ (n - 1) := pow_le_pow_right₀ one_le_two (by omega)
  exact min_le_min_right _ (mul_le_mul_of_nonneg_left hpow hbase)

end

end Artgod.Evm
