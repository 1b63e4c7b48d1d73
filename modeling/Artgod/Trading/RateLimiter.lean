/-
# The token bucket rate limiter

`TokenBucketRateLimiter`: a GET and a POST bucket with one clock, a queue of waiting requests, and one timer.
A drain looks at the waiting requests of the highest priority and takes the earliest that the buckets can pay,
so a request can be overtaken by a later one of its priority (`Admission.InOrder`).  Every reading of the clock
that decides something is an argument of its event.
-/
import Mathlib.Data.Rat.Floor
import Mathlib.Data.List.Perm.Basic
import Artgod.Flow.TokenBucket
import Artgod.Machine.Runs

namespace Artgod.Trading

open Flow

/-! ## 1. The limiter -/

/-- `TOKEN_BUCKET_RATE_LIMIT_PRIORITY`. -/
inductive RateLimitPriority
  | background
  | userCommand
  deriving DecidableEq

/-- The number behind a priority. -/
def RateLimitPriority.rank : RateLimitPriority → Nat
  | .background => 0
  | .userCommand => 1

/-- What a request takes from the two buckets. -/
structure RequestCost where
  get : ℚ
  post : ℚ
  get_nonneg : 0 ≤ get
  post_nonneg : 0 ≤ post

structure TokenBucketRateLimiterConfig where
  getMax : ℚ
  getRefillPerSecond : ℚ
  postMax : ℚ
  postRefillPerSecond : ℚ

/-- `PendingRateLimitRequest`; `call` is the call whose promise `resolve` resolves. -/
structure PendingRateLimitRequest where
  cost : RequestCost
  priority : RateLimitPriority
  sequence : Nat
  call : Nat

/-- An admission: who, at what cost, and the queue and the tokens it was chosen from.  A call that did
not wait has no sequence number. -/
structure Admission where
  call : Nat
  cost : RequestCost
  priority : RateLimitPriority
  sequence : Option Nat
  waiting : List PendingRateLimitRequest
  getTokens : ℚ
  postTokens : ℚ

structure RateLimiter where
  getMax : ℚ
  postMax : ℚ
  getRefillPerMs : ℚ
  postRefillPerMs : ℚ
  getTokens : ℚ
  postTokens : ℚ
  lastRefillAt : ℚ
  pendingRequests : List PendingRateLimitRequest
  nextSequence : Nat
  /-- When the timer runs, if it is set. -/
  drainTimerAt : Option ℚ
  /-- How many calls were made, those that cost nothing and were not metered, and what was admitted; the
  latest first. -/
  calls : Nat
  unmetered : List Nat
  admissions : List Admission

namespace RateLimiter

/-- The constructor. -/
def create (config : TokenBucketRateLimiterConfig) (now : ℚ) : RateLimiter where
  getMax := max 1 config.getMax
  postMax := max 1 config.postMax
  getRefillPerMs := max 0 config.getRefillPerSecond / 1000
  postRefillPerMs := max 0 config.postRefillPerSecond / 1000
  getTokens := max 1 config.getMax
  postTokens := max 1 config.postMax
  lastRefillAt := now
  pendingRequests := []
  nextSequence := 1
  drainTimerAt := none
  calls := 0
  unmetered := []
  admissions := []

section

variable (s : RateLimiter)

def refill (now : ℚ) : RateLimiter :=
  let deltaMs := now - s.lastRefillAt
  if deltaMs ≤ 0 then s
  else
    { s with
      getTokens := min s.getMax (s.getTokens + deltaMs * s.getRefillPerMs)
      postTokens := min s.postMax (s.postTokens + deltaMs * s.postRefillPerMs)
      lastRefillAt := now }

def canSatisfy (cost : RequestCost) : Bool :=
  cost.get ≤ s.getTokens && cost.post ≤ s.postTokens

def consume (cost : RequestCost) : RateLimiter :=
  { s with getTokens := s.getTokens - cost.get, postTokens := s.postTokens - cost.post }

def scheduleDrain (delayMs now : ℚ) : RateLimiter :=
  let runAt := now + max 0 (⌈delayMs⌉ : ℚ)
  match s.drainTimerAt with
  | some drainTimerAt => if drainTimerAt ≤ runAt then s else { s with drainTimerAt := some runAt }
  | none => { s with drainTimerAt := some runAt }

/-- `Math.max` of the priorities that wait. -/
def highestPriority : Nat :=
  (s.pendingRequests.map fun request => request.priority.rank).foldl max 0

/-- The callback of `findNextSatisfiableRequestIndex`: what is selected after one more request. -/
def preferNext (highestPriority index : Nat) (request : PendingRateLimitRequest)
    (selected : Option (Nat × PendingRateLimitRequest)) : Option (Nat × PendingRateLimitRequest) :=
  if request.priority.rank ≠ highestPriority then selected
  else if !s.canSatisfy request.cost then selected
  else
    match selected with
    | some (_, best) => if request.sequence < best.sequence then some (index, request) else selected
    | none => some (index, request)

/-- Its `forEach`. -/
def selectNext (s : RateLimiter) (highestPriority : Nat) :
    List PendingRateLimitRequest → Nat → Option (Nat × PendingRateLimitRequest) →
      Option (Nat × PendingRateLimitRequest)
  | [], _, selected => selected
  | request :: rest, index, selected =>
    selectNext s highestPriority rest (index + 1) (s.preferNext highestPriority index request selected)

/-- `findNextSatisfiableRequestIndex`, with the request at the index. -/
def findNextSatisfiableRequest : Option (Nat × PendingRateLimitRequest) :=
  s.selectNext s.highestPriority s.pendingRequests 0 none

/-- The first request by sequence. -/
def earliest : List PendingRateLimitRequest → Option PendingRateLimitRequest
  | [] => none
  | request :: rest =>
    match earliest rest with
    | some best => if best.sequence < request.sequence then some best else some request
    | none => some request

def computeWaitMs (cost : RequestCost) : ℚ :=
  let neededGet := max 0 (cost.get - s.getTokens)
  let neededPost := max 0 (cost.post - s.postTokens)
  let getWaitMs := if neededGet = 0 ∨ s.getRefillPerMs = 0 then 0 else neededGet / s.getRefillPerMs
  let postWaitMs := if neededPost = 0 ∨ s.postRefillPerMs = 0 then 0 else neededPost / s.postRefillPerMs
  max getWaitMs (max postWaitMs 25)

def computeNextWaitMs : ℚ :=
  match earliest (s.pendingRequests.filter fun request => request.priority.rank = s.highestPriority) with
  | some nextRequest => s.computeWaitMs nextRequest.cost
  | none => 25

/-- The buckets pay for a call, which is recorded. -/
def admission (s : RateLimiter) (call : Nat) (cost : RequestCost) (priority : RateLimitPriority)
    (sequence : Option Nat) : RateLimiter :=
  { s.consume cost with
    admissions :=
      ⟨call, cost, priority, sequence, s.pendingRequests, s.getTokens, s.postTokens⟩ :: s.admissions }

/-- The body of the loop of `drainQueue`, as often as requests wait; `now` is what `scheduleDrain`
reads. -/
def drainLoop (now : ℚ) : Nat → RateLimiter → RateLimiter
  | 0, s => s
  | n + 1, s =>
    match s.findNextSatisfiableRequest with
    | none => s.scheduleDrain s.computeNextWaitMs now
    | some (nextIndex, request) =>
      drainLoop now n
        ({ s with pendingRequests := s.pendingRequests.eraseIdx nextIndex }.admission request.call
          request.cost request.priority (some request.sequence))

def drainQueue (refillNow scheduleNow : ℚ) : RateLimiter :=
  drainLoop scheduleNow (s.refill refillNow).pendingRequests.length (s.refill refillNow)

def wait (cost : RequestCost) (priority : RateLimitPriority) (refillNow scheduleNow : ℚ) : RateLimiter :=
  let call := s.calls
  let s := { s with calls := s.calls + 1 }
  if cost.get ≤ 0 ∧ cost.post ≤ 0 then { s with unmetered := call :: s.unmetered }
  else
    let s := s.refill refillNow
    if s.pendingRequests = [] ∧ s.canSatisfy cost then s.admission call cost priority none
    else
      let request : PendingRateLimitRequest := ⟨cost, priority, s.nextSequence, call⟩
      { s with
        pendingRequests := s.pendingRequests ++ [request]
        nextSequence := s.nextSequence + 1 }.scheduleDrain 0 scheduleNow

end

end RateLimiter

/-- A call, or the timer running when it is set. -/
inductive LimiterEvent
  | wait (cost : RequestCost) (priority : RateLimitPriority) (refillNow scheduleNow : ℚ)
  | timer (refillNow scheduleNow : ℚ)

namespace RateLimiter

def step (s : RateLimiter) : LimiterEvent → RateLimiter
  | .wait cost priority refillNow scheduleNow => s.wait cost priority refillNow scheduleNow
  | .timer refillNow scheduleNow =>
    match s.drainTimerAt with
    | none => s
    | some _ => { s with drainTimerAt := none }.drainQueue refillNow scheduleNow

end RateLimiter

/-! ## 2. The buckets -/

inductive BucketKind
  | get
  | post

/-- What a request takes from one bucket. -/
def RequestCost.on (cost : RequestCost) : BucketKind → ℚ
  | .get => cost.get
  | .post => cost.post

theorem RequestCost.on_nonneg (cost : RequestCost) (kind : BucketKind) : 0 ≤ cost.on kind := by
  cases kind with
  | get => exact cost.get_nonneg
  | post => exact cost.post_nonneg

namespace RateLimiter

/-- The two buckets share the clock. -/
def bucket (s : RateLimiter) : BucketKind → Bucket ℚ
  | .get => ⟨s.getMax, s.getRefillPerMs, s.getTokens, s.lastRefillAt⟩
  | .post => ⟨s.postMax, s.postRefillPerMs, s.postTokens, s.lastRefillAt⟩

/-- What was admitted from a bucket so far. -/
def spent (s : RateLimiter) (kind : BucketKind) : ℚ := (s.admissions.map fun a => a.cost.on kind).sum

variable {s : RateLimiter} {kind : BucketKind} {cost : RequestCost}

theorem bucket_refill {now : ℚ} :
    (s.refill now).bucket kind = (s.bucket kind).refill now := by
  have hlast : (s.bucket kind).last = s.lastRefillAt := by cases kind <;> rfl
  unfold refill Bucket.refill
  rw [hlast]
  by_cases h : now - s.lastRefillAt ≤ 0
  · rw [if_pos h, if_pos (sub_nonpos.mp h)]
  · rw [if_neg h, if_neg fun hle => h (sub_nonpos.mpr hle)]
    cases kind <;> rfl

variable {call : Nat} {priority : RateLimitPriority} {sequence : Option Nat}
  {seen : List PendingRateLimitRequest}

theorem bucket_admission :
    (s.admission call cost priority sequence).bucket kind = (s.bucket kind).charge (cost.on kind) := by
  cases kind <;> rfl

theorem spent_admission :
    (s.admission call cost priority sequence).spent kind = cost.on kind + s.spent kind := by
  unfold spent admission
  rw [List.map_cons, List.sum_cons]

theorem canSatisfy_iff : s.canSatisfy cost = true ↔ ∀ kind, cost.on kind ≤ (s.bucket kind).tokens := by
  constructor
  · intro h kind
    simp only [canSatisfy, Bool.and_eq_true, decide_eq_true_eq] at h
    cases kind with
    | get => exact h.1
    | post => exact h.2
  · intro h
    simp only [canSatisfy, Bool.and_eq_true, decide_eq_true_eq]
    exact ⟨h .get, h .post⟩

theorem refill_eq (s : RateLimiter) (now : ℚ) :
    ∃ get post last, s.refill now = { s with getTokens := get, postTokens := post, lastRefillAt := last } := by
  by_cases h : now - s.lastRefillAt ≤ 0
  · exact ⟨s.getTokens, s.postTokens, s.lastRefillAt, by simp only [refill, if_pos h]⟩
  · exact ⟨_, _, _, by simp only [refill, if_neg h]; rfl⟩

theorem scheduleDrain_eq (s : RateLimiter) (delayMs now : ℚ) :
    ∃ at', s.scheduleDrain delayMs now = { s with drainTimerAt := some at' } := by
  unfold scheduleDrain
  cases htimer : s.drainTimerAt with
  | none => exact ⟨_, rfl⟩
  | some drainTimerAt =>
    by_cases hle : drainTimerAt ≤ now + max 0 (⌈delayMs⌉ : ℚ)
    · refine ⟨drainTimerAt, ?_⟩
      simp only [if_pos hle]
      cases s
      simp only at htimer
      rw [htimer]
    · exact ⟨_, by simp only [if_neg hle]; rfl⟩

/-! ## 3. The choice of a drain -/

theorem le_foldl_max {l : List Nat} {a : Nat} : a ≤ l.foldl max a ∧ ∀ x ∈ l, x ≤ l.foldl max a := by
  induction l generalizing a with
  | nil => exact ⟨Nat.le_refl a, fun x hx => by cases hx⟩
  | cons y rest ih =>
    obtain ⟨hstart, hrest⟩ := ih (a := max a y)
    rw [List.foldl_cons]
    refine ⟨Nat.le_trans (Nat.le_max_left a y) hstart, fun x hx => ?_⟩
    rcases List.mem_cons.mp hx with rfl | hx
    · exact Nat.le_trans (Nat.le_max_right a x) hstart
    · exact hrest x hx

theorem rank_le_highestPriority {request : PendingRateLimitRequest}
    (h : request ∈ s.pendingRequests) : request.priority.rank ≤ s.highestPriority :=
  le_foldl_max.2 _ (List.mem_map.mpr ⟨request, h, rfl⟩)

/-- A candidate that a scan of `seen` may have selected: it is in its place, of the priority asked for,
payable, and no payable one of the priority came before it in sequence. -/
structure Selected (s : RateLimiter) (priority : Nat) (seen : List PendingRateLimitRequest)
    (index : Nat) (request : PendingRateLimitRequest) : Prop where
  place : seen[index]? = some request
  priority_eq : request.priority.rank = priority
  payable : s.canSatisfy request.cost = true
  earliest : ∀ other ∈ seen, other.priority.rank = priority → s.canSatisfy other.cost = true →
    request.sequence ≤ other.sequence

/-- What a scan of `seen` knows. -/
def Scanned (s : RateLimiter) (priority : Nat) (seen : List PendingRateLimitRequest) :
    Option (Nat × PendingRateLimitRequest) → Prop
  | some (index, request) => Selected s priority seen index request
  | none => ∀ other ∈ seen, other.priority.rank = priority → s.canSatisfy other.cost = false

theorem scanned_cons {priority : Nat}
    {selected : Option (Nat × PendingRateLimitRequest)} (h : Scanned s priority seen selected)
    (request : PendingRateLimitRequest) :
    Scanned s priority (seen ++ [request]) (s.preferNext priority seen.length request selected) := by
  have hplace : (seen ++ [request])[seen.length]? = some request := by simp
  have hkeep : (request.priority.rank = priority → s.canSatisfy request.cost = true →
      ∀ index best, selected = some (index, best) → best.sequence ≤ request.sequence) →
      (request.priority.rank = priority → s.canSatisfy request.cost = true → selected ≠ none) →
      Scanned s priority (seen ++ [request]) selected := by
    intro hearlier hsome
    cases selected with
    | none =>
      intro other hother hpriority
      rcases List.mem_append.mp hother with hother | hother
      · exact h other hother hpriority
      · rw [List.mem_singleton.mp hother] at hpriority ⊢
        exact Bool.eq_false_iff.mpr fun hpay => hsome hpriority hpay rfl
    | some best =>
      obtain ⟨index, best⟩ := best
      have hbest : Selected s priority seen index best := h
      refine ⟨?_, hbest.priority_eq, hbest.payable, fun other hother hpriority hpay => ?_⟩
      · have hlt : index < seen.length := (List.getElem?_eq_some_iff.mp hbest.place).1
        rw [List.getElem?_append_left hlt]
        exact hbest.place
      rcases List.mem_append.mp hother with hother | hother
      · exact hbest.earliest other hother hpriority hpay
      · rw [List.mem_singleton.mp hother] at hpriority hpay ⊢
        exact hearlier hpriority hpay index best rfl
  unfold preferNext
  split
  · next hne => exact hkeep (fun heq => absurd heq hne) (fun heq => absurd heq hne)
  next heq =>
  rw [ne_eq, not_not] at heq
  split
  · next hpay =>
    rw [Bool.not_eq_true'] at hpay
    refine hkeep (fun _ hpay' => ?_) (fun _ hpay' => ?_)
    · rw [hpay] at hpay'
      cases hpay'
    · rw [hpay] at hpay'
      cases hpay'
  · next hpay =>
    rw [Bool.not_eq_true', Bool.not_eq_false] at hpay
    cases selected with
    | none =>
      refine ⟨hplace, heq, hpay, fun other hother hpriority hpay' => ?_⟩
      rcases List.mem_append.mp hother with hother | hother
      · rw [h other hother hpriority] at hpay'
        cases hpay'
      · rw [List.mem_singleton.mp hother]
    | some best =>
      obtain ⟨index, best⟩ := best
      have hbest : Selected s priority seen index best := h
      by_cases hlt : request.sequence < best.sequence
      · simp only [if_pos hlt]
        refine ⟨hplace, heq, hpay, fun other hother hpriority hpay' => ?_⟩
        rcases List.mem_append.mp hother with hother | hother
        · exact Nat.le_trans (Nat.le_of_lt hlt) (hbest.earliest other hother hpriority hpay')
        · rw [List.mem_singleton.mp hother]
      · simp only [if_neg hlt]
        refine hkeep (fun _ _ index' best' hsome => ?_) (fun _ _ hnone => by cases hnone)
        cases hsome
        omega

theorem scanned_selectNext {priority : Nat}
    {selected : Option (Nat × PendingRateLimitRequest)} (h : Scanned s priority seen selected)
    (rest : List PendingRateLimitRequest) :
    Scanned s priority (seen ++ rest) (s.selectNext priority rest seen.length selected) := by
  induction rest generalizing seen selected with
  | nil =>
    rw [List.append_nil]
    exact h
  | cons request rest ih =>
    have hnext := ih (scanned_cons h request)
    rw [List.append_assoc, List.singleton_append, List.length_append, List.length_singleton] at hnext
    exact hnext

/-- **The choice of a drain**: the earliest of the payable requests of the highest priority, if any. -/
theorem findNextSatisfiableRequest_spec (s : RateLimiter) :
    Scanned s s.highestPriority s.pendingRequests s.findNextSatisfiableRequest := by
  have hnil : Scanned s s.highestPriority [] none := fun other hother => by cases hother
  have hscan := scanned_selectNext hnil s.pendingRequests
  rw [List.nil_append] at hscan
  exact hscan

end RateLimiter

/-! ## 4. What a drain does -/

/-- **The order of an admission.**  Nobody of a higher priority waited, and whoever of its priority waited
from an earlier call could not be paid for. -/
structure Admission.InOrder (a : Admission) : Prop where
  payable : a.cost.get ≤ a.getTokens ∧ a.cost.post ≤ a.postTokens
  priority : ∀ q ∈ a.waiting, q.priority.rank ≤ a.priority.rank
  arrival : ∀ q ∈ a.waiting, q.priority = a.priority → q.call < a.call →
    ¬ (q.cost.get ≤ a.getTokens ∧ q.cost.post ≤ a.postTokens)

/-- The queue is in the order of the calls, and so are the sequence numbers. -/
def Arrived (p q : PendingRateLimitRequest) : Prop := p.sequence < q.sequence ∧ p.call < q.call

variable {q : PendingRateLimitRequest} {s'' start : RateLimiter} {t₁ t₂ : ℚ} {kind : BucketKind}

theorem sequence_lt_of_call_lt {queue : List PendingRateLimitRequest} (h : queue.Pairwise Arrived)
    {p : PendingRateLimitRequest} (hp : p ∈ queue) (hq : q ∈ queue) (hlt : p.call < q.call) :
    p.sequence < q.sequence := by
  obtain ⟨i, hi, rfl⟩ := List.getElem_of_mem hp
  obtain ⟨j, hj, rfl⟩ := List.getElem_of_mem hq
  rcases Nat.lt_trichotomy i j with hij | rfl | hji
  · exact (List.pairwise_iff_getElem.mp h i j hi hj hij).1
  · omega
  · have hcall := (List.pairwise_iff_getElem.mp h j i hj hi hji).2
    omega

/-- What is paid comes out of the buckets, at one clock reading. -/
structure Paid (s s' : RateLimiter) : Prop where
  last : s'.lastRefillAt = s.lastRefillAt
  frame : ∀ kind, (s'.bucket kind).max = (s.bucket kind).max ∧ (s'.bucket kind).rate = (s.bucket kind).rate
  sound : (∀ kind, (s.bucket kind).Sound) → ∀ kind, (s'.bucket kind).Sound
  potential : ∀ kind, s'.spent kind + (s'.bucket kind).potential = s.spent kind + (s.bucket kind).potential

variable {s s' : RateLimiter} {now : ℚ}

theorem Paid.trans (h : Paid s s') (h' : Paid s' s'') : Paid s s'' where
  last := h'.last.trans h.last
  frame := fun kind => ⟨(h'.frame kind).1.trans (h.frame kind).1, (h'.frame kind).2.trans (h.frame kind).2⟩
  sound := fun hs => h'.sound (h.sound hs)
  potential := fun kind => (h'.potential kind).trans (h.potential kind)

theorem Paid.nothing (hbucket : ∀ kind, s'.bucket kind = s.bucket kind)
    (hadmissions : s'.admissions = s.admissions) : Paid s s' where
  last := congrArg Bucket.last (hbucket .get)
  frame := fun kind => by rw [hbucket]; exact ⟨rfl, rfl⟩
  sound := fun h kind => by rw [hbucket]; exact h kind
  potential := fun kind => by rw [hbucket, RateLimiter.spent, RateLimiter.spent, hadmissions]

theorem Paid.admission {call : Nat} {cost : RequestCost} {priority : RateLimitPriority}
    {sequence : Option Nat} (h : s.canSatisfy cost = true) :
    Paid s (s.admission call cost priority sequence) where
  last := rfl
  frame := fun kind => by rw [RateLimiter.bucket_admission]; exact ⟨rfl, rfl⟩
  sound := fun hsound kind => by
    rw [RateLimiter.bucket_admission]
    exact (hsound kind).charge (cost.on_nonneg kind) (RateLimiter.canSatisfy_iff.mp h kind)
  potential := fun kind => by
    rw [RateLimiter.bucket_admission, RateLimiter.spent_admission, Bucket.potential_charge]
    ring

/-- What a drain does to the limiter: it pays, and whoever is paid for leaves the queue. -/
structure Charged (s s' : RateLimiter) : Prop extends Paid s s' where
  calls : s'.calls = s.calls ∧ s'.unmetered = s.unmetered
  accounted : (s'.admissions.map (·.call) ++ s'.pendingRequests.map (·.call)).Perm
    (s.admissions.map (·.call) ++ s.pendingRequests.map (·.call))
  queue : s'.pendingRequests.Sublist s.pendingRequests ∧ s'.nextSequence = s.nextSequence
  ordered : s.pendingRequests.Pairwise Arrived → (∀ a ∈ s.admissions, a.InOrder) →
    ∀ a ∈ s'.admissions, a.InOrder

theorem Charged.trans (h : Charged s s') (h' : Charged s' s'') : Charged s s'' where
  toPaid := h.toPaid.trans h'.toPaid
  calls := ⟨h'.calls.1.trans h.calls.1, h'.calls.2.trans h.calls.2⟩
  accounted := h'.accounted.trans h.accounted
  queue := ⟨h'.queue.1.trans h.queue.1, h'.queue.2.trans h.queue.2⟩
  ordered := fun hq ho => h'.ordered (hq.sublist h.queue.1) (h.ordered hq ho)

theorem Charged.timer (s : RateLimiter) (drainTimerAt : Option ℚ) :
    Charged s { s with drainTimerAt := drainTimerAt } where
  toPaid := .nothing (fun kind => by cases kind <;> rfl) rfl
  calls := ⟨rfl, rfl⟩
  accounted := .refl _
  queue := ⟨.refl _, rfl⟩
  ordered := fun _ h => h

theorem Charged.refl (s : RateLimiter) : Charged s s := .timer s s.drainTimerAt

theorem Charged.selected {index : Nat} {request : PendingRateLimitRequest}
    (h : s.findNextSatisfiableRequest = some (index, request)) :
    Charged s ({ s with pendingRequests := s.pendingRequests.eraseIdx index }.admission request.call
      request.cost request.priority (some request.sequence)) := by
  have hspec := s.findNextSatisfiableRequest_spec
  rw [h] at hspec
  have hselected : RateLimiter.Selected s s.highestPriority s.pendingRequests index request := hspec
  obtain ⟨hlt, hget⟩ := List.getElem?_eq_some_iff.mp hselected.place
  have hpay := RateLimiter.canSatisfy_iff.mp hselected.payable
  have hleft : Paid s { s with pendingRequests := s.pendingRequests.eraseIdx index } :=
    .nothing (fun kind => by cases kind <;> rfl) rfl
  have hsub : ∀ q ∈ s.pendingRequests.eraseIdx index, q ∈ s.pendingRequests :=
    fun q hq => List.mem_of_mem_eraseIdx hq
  refine ⟨hleft.trans (.admission hselected.payable), ⟨rfl, rfl⟩, ?_, ⟨List.eraseIdx_sublist _ _, rfl⟩,
    fun hqueue ho a ha => ?_⟩
  · show ((request.call :: s.admissions.map (·.call)) ++ _).Perm _
    rw [List.cons_append]
    refine List.perm_middle.symm.trans (List.Perm.append_left _ ?_)
    rw [← List.map_cons, ← hget]
    exact (List.getElem_cons_eraseIdx_perm hlt).map _
  · rcases List.mem_cons.mp ha with rfl | ha
    · refine ⟨⟨hpay .get, hpay .post⟩, fun q hq => ?_, fun q hq hpriority hcall hq' => ?_⟩
      · rw [show request.priority.rank = s.highestPriority from hselected.priority_eq]
        exact RateLimiter.rank_le_highestPriority (hsub q hq)
      have hearliest := hselected.earliest q (hsub q hq) (hpriority ▸ hselected.priority_eq)
        (RateLimiter.canSatisfy_iff.mpr fun kind => by cases kind with
          | get => exact hq'.1
          | post => exact hq'.2)
      have hsequence := sequence_lt_of_call_lt hqueue (hsub q hq)
        (List.mem_of_getElem? hselected.place) hcall
      omega
    · exact ho a ha

/-- **A drain.**  It admits, and if somebody is left waiting it sets the timer. -/
theorem Charged.drainLoop {now : ℚ} {n : Nat} {s : RateLimiter} (hn : n = s.pendingRequests.length) :
    Charged s (RateLimiter.drainLoop now n s) ∧ ((RateLimiter.drainLoop now n s).pendingRequests ≠ [] →
        (RateLimiter.drainLoop now n s).drainTimerAt.isSome = true) := by
  induction n generalizing s with
  | zero => exact ⟨.refl s, fun h => absurd (List.length_eq_zero_iff.mp hn.symm) h⟩
  | succ n ih =>
    rw [RateLimiter.drainLoop]
    cases hfind : s.findNextSatisfiableRequest with
    | none =>
      obtain ⟨at', heq⟩ := s.scheduleDrain_eq s.computeNextWaitMs now
      simp only [heq]
      exact ⟨.timer s _, fun _ => rfl⟩
    | some selected =>
      obtain ⟨index, request⟩ := selected
      have hspec := s.findNextSatisfiableRequest_spec
      rw [hfind] at hspec
      have hselected : RateLimiter.Selected s s.highestPriority s.pendingRequests index request := hspec
      have hlt : index < s.pendingRequests.length := (List.getElem?_eq_some_iff.mp hselected.place).1
      have hlength : n = (s.pendingRequests.eraseIdx index).length := by
        rw [List.length_eraseIdx_of_lt hlt]
        omega
      obtain ⟨hcharged, harmed⟩ := ih (s := { s with
        pendingRequests := s.pendingRequests.eraseIdx index }.admission request.call request.cost
          request.priority (some request.sequence)) hlength
      exact ⟨(Charged.selected hfind).trans hcharged, harmed⟩

/-! ## 5. One event -/

/-- What holds in every state of the limiter. -/
structure LimiterInv (s : RateLimiter) : Prop where
  sound : ∀ kind, (s.bucket kind).Sound
  ordered : ∀ a ∈ s.admissions, a.InOrder
  /-- Every call was admitted, waits, or cost nothing, and is there once. -/
  accounted : (s.admissions.map (·.call) ++ s.pendingRequests.map (·.call) ++ s.unmetered).Perm
    (List.range s.calls)
  queue : s.pendingRequests.Pairwise Arrived
  numbered : ∀ q ∈ s.pendingRequests, q.sequence < s.nextSequence
  armed : s.pendingRequests ≠ [] → s.drainTimerAt.isSome = true

/-- What an event that reads the clock at `now` may take from a bucket.  What it pays comes out of a bucket
that was brought up to the reading. -/
structure Metered (s s' : RateLimiter) (now : ℚ) (kind : BucketKind) : Prop where
  frame : (s'.bucket kind).max = (s.bucket kind).max ∧ (s'.bucket kind).rate = (s.bucket kind).rate
  later : s.lastRefillAt ≤ s'.lastRefillAt
  clock : s'.lastRefillAt ≤ max s.lastRefillAt now
  paid : s'.spent kind + (s'.bucket kind).potential ≤ s.spent kind + (s.bucket kind).potential
  fresh : s'.spent kind = s.spent kind ∨
    now ≤ s'.lastRefillAt ∧ s'.spent kind + (s'.bucket kind).potential ≤
      s.spent kind + ((s.bucket kind).max - s'.lastRefillAt * (s.bucket kind).rate)

theorem last_bucket (s : RateLimiter) (kind : BucketKind) : (s.bucket kind).last = s.lastRefillAt := by
  cases kind <;> rfl

theorem Paid.metered (hinv : ∀ kind, (s.bucket kind).Sound)
    (h : Paid (s.refill now) s') (kind : BucketKind) : Metered s s' now kind := by
  have hspent : (s.refill now).spent kind = s.spent kind := by
    obtain ⟨get, post, last, heq⟩ := s.refill_eq now
    rw [heq]
    rfl
  have hlast : s'.lastRefillAt = ((s.bucket kind).refill now).last := by
    rw [h.last, ← last_bucket _ kind, RateLimiter.bucket_refill]
  have hmaxlast : s'.lastRefillAt = max s.lastRefillAt now := by
    rw [hlast, Bucket.refill_last, last_bucket]
  have hpotential := h.potential kind
  rw [hspent, RateLimiter.bucket_refill] at hpotential
  obtain ⟨hmax, hrate⟩ := h.frame kind
  rw [RateLimiter.bucket_refill] at hmax hrate
  refine ⟨⟨hmax.trans (Bucket.refill_max _ _), hrate.trans (Bucket.refill_rate _ _)⟩, ?_, hmaxlast.le, ?_,
    .inr ⟨?_, ?_⟩⟩
  · rw [hmaxlast]
    exact le_max_left _ _
  · rw [hpotential]
    exact add_le_add_right (Bucket.potential_refill_le _ _) _
  · rw [hmaxlast]
    exact le_max_right _ _
  have hfull := ((hinv kind).refill now).potential_le
  rw [Bucket.refill_max, Bucket.refill_rate, ← hlast] at hfull
  rw [hpotential]
  exact add_le_add_right hfull _

theorem Paid.metered_same (h : Paid s s')
    (hadmissions : s'.admissions = s.admissions) (kind : BucketKind) : Metered s s' now kind where
  frame := h.frame kind
  later := le_of_eq h.last.symm
  clock := le_trans (le_of_eq h.last) (le_max_left _ _)
  paid := le_of_eq (h.potential kind)
  fresh := .inl (by rw [RateLimiter.spent, RateLimiter.spent, hadmissions])

theorem LimiterInv.charged (h : LimiterInv s) (hcharged : Charged s s')
    (harmed : s'.pendingRequests ≠ [] → s'.drainTimerAt.isSome = true) : LimiterInv s' where
  sound := hcharged.sound h.sound
  ordered := hcharged.ordered h.queue h.ordered
  accounted := by
    rw [hcharged.calls.1, hcharged.calls.2]
    exact (hcharged.accounted.append_right _).trans h.accounted
  queue := h.queue.sublist hcharged.queue.1
  numbered := fun q hq => by
    rw [hcharged.queue.2]
    exact h.numbered q (hcharged.queue.1.subset hq)
  armed := harmed

theorem LimiterInv.refill (h : LimiterInv s) (now : ℚ) : LimiterInv (s.refill now) := by
  have hsound : ∀ kind, ((s.refill now).bucket kind).Sound := fun kind => by
    rw [RateLimiter.bucket_refill]
    exact (h.sound kind).refill now
  obtain ⟨get, post, last, heq⟩ := s.refill_eq now
  rw [heq] at hsound ⊢
  exact ⟨hsound, h.ordered, h.accounted, h.queue, h.numbered, h.armed⟩

theorem refill_timer (s : RateLimiter) (drainTimerAt : Option ℚ) (now : ℚ) :
    RateLimiter.refill { s with drainTimerAt := drainTimerAt } now =
      { s.refill now with drainTimerAt := drainTimerAt } := by
  unfold RateLimiter.refill
  by_cases h : now - s.lastRefillAt ≤ 0
  · simp only [if_pos h]
  · simp only [if_neg h]

theorem LimiterInv.timer (h : LimiterInv s) (refillNow scheduleNow : ℚ) :
    LimiterInv (s.step (.timer refillNow scheduleNow)) ∧
      ∀ kind, Metered s (s.step (.timer refillNow scheduleNow)) refillNow kind := by
  rw [RateLimiter.step]
  cases htimer : s.drainTimerAt with
  | none => exact ⟨h, (Charged.refl s).toPaid.metered_same rfl⟩
  | some drainTimerAt =>
    obtain ⟨hcharged, harmed⟩ :=
      @Charged.drainLoop scheduleNow _ (RateLimiter.refill { s with drainTimerAt := none } refillNow) rfl
    rw [refill_timer] at hcharged harmed
    -- the drain starts from the refilled limiter with its timer off
    have hdrained := (Charged.timer (s.refill refillNow) none).trans hcharged
    simp only [RateLimiter.drainQueue, refill_timer]
    exact ⟨(h.refill refillNow).charged hdrained harmed, hdrained.toPaid.metered h.sound⟩

theorem wait_cases (s : RateLimiter) (cost : RequestCost) (priority : RateLimitPriority)
    (refillNow scheduleNow : ℚ) :
    (s.wait cost priority refillNow scheduleNow =
      { s with calls := s.calls + 1, unmetered := s.calls :: s.unmetered }) ∨
    (s.pendingRequests = [] ∧ (s.refill refillNow).canSatisfy cost = true ∧
      s.wait cost priority refillNow scheduleNow =
        { (s.refill refillNow).admission s.calls cost priority none with calls := s.calls + 1 }) ∨
    (∃ drainTimerAt, s.wait cost priority refillNow scheduleNow = { s.refill refillNow with
        calls := s.calls + 1
        pendingRequests := s.pendingRequests ++ [⟨cost, priority, s.nextSequence, s.calls⟩]
        nextSequence := s.nextSequence + 1
        drainTimerAt := some drainTimerAt }) := by
  have hcalled : RateLimiter.refill { s with calls := s.calls + 1 } refillNow =
      { s.refill refillNow with calls := s.calls + 1 } := by
    unfold RateLimiter.refill
    by_cases h : refillNow - s.lastRefillAt ≤ 0
    · simp only [if_pos h]
    · simp only [if_neg h]
  obtain ⟨get, post, last, hrefill⟩ := s.refill_eq refillNow
  unfold RateLimiter.wait
  simp only [hcalled]
  by_cases hfree : cost.get ≤ 0 ∧ cost.post ≤ 0
  · exact .inl (if_pos hfree)
  rw [if_neg hfree]
  by_cases hnow : (s.refill refillNow).pendingRequests = [] ∧ (s.refill refillNow).canSatisfy cost = true
  · refine .inr (.inl ⟨?_, hnow.2, if_pos hnow⟩)
    have hpending := hnow.1
    rw [hrefill] at hpending
    exact hpending
  · obtain ⟨drainTimerAt, hscheduled⟩ := RateLimiter.scheduleDrain_eq { s.refill refillNow with
      calls := s.calls + 1
      pendingRequests := (s.refill refillNow).pendingRequests ++
        [⟨cost, priority, (s.refill refillNow).nextSequence, s.calls⟩]
      nextSequence := (s.refill refillNow).nextSequence + 1 } 0 scheduleNow
    refine .inr (.inr ⟨drainTimerAt, (if_neg hnow).trans (hscheduled.trans ?_)⟩)
    rw [hrefill]

theorem perm_range_succ {calls : List Nat} {n : Nat} (h : calls.Perm (List.range n)) :
    (n :: calls).Perm (List.range (n + 1)) := by
  rw [List.range_succ]
  exact (h.cons n).trans (List.perm_append_singleton n _).symm

theorem LimiterInv.call_lt (h : LimiterInv s) (hq : q ∈ s.pendingRequests) : q.call < s.calls := by
  refine List.mem_range.mp (h.accounted.subset ?_)
  exact List.mem_append_left _ (List.mem_append_right _ (List.mem_map.mpr ⟨q, hq, rfl⟩))

theorem LimiterInv.wait (h : LimiterInv s) (cost : RequestCost)
    (priority : RateLimitPriority) (refillNow scheduleNow : ℚ) :
    LimiterInv (s.step (.wait cost priority refillNow scheduleNow)) ∧
      ∀ kind, Metered s (s.step (.wait cost priority refillNow scheduleNow)) refillNow kind := by
  rw [RateLimiter.step]
  rcases wait_cases s cost priority refillNow scheduleNow with heq | ⟨hpending, hpay, heq⟩ | ⟨at', heq⟩
  · rw [heq]
    have hpaid : Paid s { s with calls := s.calls + 1, unmetered := s.calls :: s.unmetered } :=
      .nothing (fun kind => by cases kind <;> rfl) rfl
    refine ⟨⟨hpaid.sound h.sound, h.ordered, ?_, h.queue, h.numbered, h.armed⟩, hpaid.metered_same rfl⟩
    exact List.perm_middle.trans (perm_range_succ h.accounted)
  · rw [heq]
    have hadmitted : Paid (s.refill refillNow)
        { (s.refill refillNow).admission s.calls cost priority none with calls := s.calls + 1 } :=
      (Paid.admission hpay).trans (.nothing (fun kind => by cases kind <;> rfl) rfl)
    refine ⟨?_, hadmitted.metered h.sound⟩
    have hrefilled := h.refill refillNow
    have hempty : (s.refill refillNow).pendingRequests = [] := by
      obtain ⟨get, post, last, hrefill⟩ := s.refill_eq refillNow
      rw [hrefill]
      exact hpending
    have hcalls : (s.refill refillNow).calls = s.calls := by
      obtain ⟨get, post, last, hrefill⟩ := s.refill_eq refillNow
      rw [hrefill]
    have hpayable := RateLimiter.canSatisfy_iff.mp hpay
    refine ⟨hadmitted.sound hrefilled.sound, fun a ha => ?_, ?_, hrefilled.queue, hrefilled.numbered,
      hrefilled.armed⟩
    · rcases List.mem_cons.mp ha with rfl | ha
      · refine ⟨⟨hpayable .get, hpayable .post⟩, fun q hq => ?_, fun q hq => ?_⟩
        · rw [hempty] at hq
          cases hq
        · rw [hempty] at hq
          cases hq
      · exact hrefilled.ordered a ha
    · have haccounted := hrefilled.accounted
      rw [hcalls] at haccounted
      exact perm_range_succ haccounted
  · rw [heq]
    have hqueued : Paid (s.refill refillNow) { s.refill refillNow with
        calls := s.calls + 1
        pendingRequests := s.pendingRequests ++ [⟨cost, priority, s.nextSequence, s.calls⟩]
        nextSequence := s.nextSequence + 1
        drainTimerAt := some at' } := .nothing (fun kind => by cases kind <;> rfl) rfl
    refine ⟨⟨hqueued.sound (h.refill refillNow).sound, (h.refill refillNow).ordered, ?_, ?_, fun q hq => ?_,
      fun _ => rfl⟩, hqueued.metered h.sound⟩
    · obtain ⟨get, post, last, hrefill⟩ := s.refill_eq refillNow
      rw [hrefill]
      simp only [List.map_append, List.map_cons, List.map_nil]
      rw [← List.append_assoc, List.append_assoc _ [s.calls], List.singleton_append]
      exact List.perm_middle.trans (perm_range_succ h.accounted)
    · refine List.pairwise_append.mpr ⟨h.queue, List.pairwise_singleton _ _, fun p hp q hq => ?_⟩
      rw [List.mem_singleton.mp hq]
      exact ⟨h.numbered p hp, h.call_lt hp⟩
    · rcases List.mem_append.mp hq with hq | hq
      · exact Nat.lt_succ_of_lt (h.numbered q hq)
      · rw [List.mem_singleton.mp hq]
        exact Nat.lt_succ_self _

/-- The clock reading that an event refills at. -/
def LimiterEvent.refillNow : LimiterEvent → ℚ
  | .wait _ _ refillNow _ => refillNow
  | .timer refillNow _ => refillNow

theorem LimiterInv.step (h : LimiterInv s) (e : LimiterEvent) :
    LimiterInv (s.step e) ∧ ∀ kind, Metered s (s.step e) e.refillNow kind := by
  cases e with
  | wait cost priority refillNow scheduleNow => exact h.wait cost priority refillNow scheduleNow
  | timer refillNow scheduleNow => exact h.timer refillNow scheduleNow

/-! ## 6. Runs -/

theorem LimiterInv.create (config : TokenBucketRateLimiterConfig) (now : ℚ) :
    LimiterInv (RateLimiter.create config now) where
  sound := by
    have hrate : ∀ perSecond : ℚ, 0 ≤ max 0 perSecond / 1000 :=
      fun perSecond => div_nonneg (le_max_left _ _) (by norm_num)
    have hmax : ∀ m : ℚ, 0 ≤ max 1 m := fun m => le_trans zero_le_one (le_max_left _ _)
    intro kind
    cases kind with
    | get => exact ⟨hrate _, hmax _, le_refl _⟩
    | post => exact ⟨hrate _, hmax _, le_refl _⟩
  ordered := fun a ha => by cases ha
  accounted := .refl _
  queue := .nil
  numbered := fun q hq => by cases hq
  armed := fun h => absurd rfl h

theorem LimiterInv.run {s : RateLimiter} (h : LimiterInv s) (es : List LimiterEvent) :
    LimiterInv (Machine.run RateLimiter.step s es) :=
  Machine.run_invariant (fun _ e h => (h.step e).1) h es

theorem LimiterInv.run_frame (h : LimiterInv s) (es : List LimiterEvent) (kind : BucketKind) :
    ((Machine.run RateLimiter.step s es).bucket kind).max = (s.bucket kind).max ∧
      ((Machine.run RateLimiter.step s es).bucket kind).rate = (s.bucket kind).rate := by
  induction es generalizing s with
  | nil => exact ⟨rfl, rfl⟩
  | cons e rest ih =>
    obtain ⟨hinv, hmetered⟩ := h.step e
    obtain ⟨hmax, hrate⟩ := ih hinv
    exact ⟨hmax.trans (hmetered kind).frame.1, hrate.trans (hmetered kind).frame.2⟩

/-- Between `start` and the state, whose events read the clock from `t₁` to `t₂`: nothing was paid, or all
of it came out of a bucket that was full at `t₁` at best. -/
structure WithinInterval (start s : RateLimiter) (t₁ t₂ : ℚ) (kind : BucketKind) : Prop where
  frame : (s.bucket kind).max = (start.bucket kind).max ∧ (s.bucket kind).rate = (start.bucket kind).rate
  later : start.lastRefillAt ≤ s.lastRefillAt
  clock : s.lastRefillAt ≤ max start.lastRefillAt t₂
  paid : s.spent kind = start.spent kind ∨ s.spent kind + (s.bucket kind).potential ≤ start.spent kind +
      ((start.bucket kind).max - max start.lastRefillAt t₁ * (start.bucket kind).rate)

theorem WithinInterval.step (h : WithinInterval start s t₁ t₂ kind) (hrate : 0 ≤ (start.bucket kind).rate)
    (hmetered : Metered s s' now kind) (hfrom : t₁ ≤ now) (hto : now ≤ t₂) :
    WithinInterval start s' t₁ t₂ kind := by
  refine ⟨⟨hmetered.frame.1.trans h.frame.1, hmetered.frame.2.trans h.frame.2⟩,
    h.later.trans hmetered.later, ?_, ?_⟩
  · refine hmetered.clock.trans (max_le h.clock (hto.trans (le_max_right _ _)))
  rcases h.paid with hnothing | hpaid
  · rcases hmetered.fresh with hsame | ⟨hread, hfresh⟩
    · exact .inl (hsame.trans hnothing)
    -- the first event that pays reads the clock
    have hlast : max start.lastRefillAt t₁ ≤ s'.lastRefillAt :=
      max_le (h.later.trans hmetered.later) (hfrom.trans hread)
    have hbrought := mul_le_mul_of_nonneg_right hlast hrate
    rw [h.frame.1, h.frame.2, hnothing] at hfresh
    exact .inr (by linarith)
  · exact .inr (hmetered.paid.trans hpaid)

theorem WithinInterval.run {start s : RateLimiter} {t₁ t₂ : ℚ} {kind : BucketKind}
    (hinv : LimiterInv s) (h : WithinInterval start s t₁ t₂ kind)
    (hrate : 0 ≤ (start.bucket kind).rate) {es : List LimiterEvent}
    (hes : ∀ e ∈ es, t₁ ≤ e.refillNow ∧ e.refillNow ≤ t₂) :
    WithinInterval start (Machine.run RateLimiter.step s es) t₁ t₂ kind := by
  induction es generalizing s with
  | nil => exact h
  | cons e rest ih =>
    obtain ⟨hfrom, hto⟩ := hes e List.mem_cons_self
    obtain ⟨hinv', hmetered⟩ := hinv.step e
    exact ih hinv' (h.step hrate (hmetered kind) hfrom hto) fun e' he' => hes e' (List.mem_cons_of_mem _ he')

theorem WithinInterval.spent_le (h : WithinInterval start s t₁ t₂ kind) (hstart : (start.bucket kind).Sound)
    (hsound : (s.bucket kind).Sound) (hle : t₁ ≤ t₂) :
    s.spent kind - start.spent kind ≤ (start.bucket kind).max + (t₂ - t₁) * (start.bucket kind).rate := by
  have helapsed : 0 ≤ (t₂ - t₁) * (start.bucket kind).rate :=
    mul_nonneg (sub_nonneg.mpr hle) hstart.rate_nonneg
  rcases h.paid with hnothing | hpaid
  · have hmax : 0 ≤ (start.bucket kind).max := hstart.tokens_nonneg.trans hstart.tokens_le
    linarith
  have hclock : s.lastRefillAt - max start.lastRefillAt t₁ ≤ t₂ - t₁ := by
    have hlast := h.clock
    rcases le_total start.lastRefillAt t₂ with hcase | hcase
    · rw [max_eq_right hcase] at hlast
      exact sub_le_sub hlast (le_max_right _ _)
    · rw [max_eq_left hcase] at hlast
      have hstays : start.lastRefillAt ≤ max start.lastRefillAt t₁ := le_max_left _ _
      linarith
  have hbrought := mul_le_mul_of_nonneg_right hclock hstart.rate_nonneg
  have hempty := hsound.tokens_nonneg
  unfold Bucket.potential at hpaid
  rw [last_bucket, h.frame.2] at hpaid
  linarith

/-- Two calls of one priority that wait for the POST bucket, the later one cheaper. -/
def overtakingRun : List LimiterEvent :=
  [.wait ⟨0, 2, by decide, by decide⟩ .background 0 0, .wait ⟨1, 2, by decide, by decide⟩ .background 0 0,
   .wait ⟨0, 1, by decide, by decide⟩ .background 0 0,
   .timer 1000 1000]

/-- The arrival order does not hold within a priority: the third call is admitted while the second, of the
same priority and also for the POST bucket, still waits. -/
theorem later_request_admitted_first :
    ∃ a ∈ (Machine.run RateLimiter.step (RateLimiter.create ⟨10, 1, 2, 1⟩ 0) overtakingRun).admissions,
      ∃ q ∈ a.waiting, q.priority = a.priority ∧ q.call < a.call ∧ 0 < q.cost.post ∧ 0 < a.cost.post ∧
        q.cost.get ≤ 10 ∧ q.cost.post ≤ 2 ∧ a.cost.get ≤ 10 ∧ a.cost.post ≤ 2 := by
  decide +kernel

/-- **The law of the limiter.**  In every state: the tokens are within bounds; every admission was the first
by priority, and by arrival among those the buckets could pay; every call is admitted, waits or was not
metered, exactly once; and while a call waits the timer is set.  From every state: what is admitted by
events whose clock readings lie in an interval is at most the capacity and what the interval brings. -/
theorem rate_limiter_law (config : TokenBucketRateLimiterConfig) (start : ℚ) (es : List LimiterEvent) :
    let s₀ := RateLimiter.create config start
    let s := Machine.run RateLimiter.step s₀ es
    (∀ kind, 0 ≤ (s.bucket kind).tokens ∧ (s.bucket kind).tokens ≤ (s₀.bucket kind).max) ∧
    (∀ a ∈ s.admissions, (∀ q ∈ a.waiting, q.priority.rank ≤ a.priority.rank) ∧
      ∀ q ∈ a.waiting, q.priority = a.priority → q.call < a.call →
        ¬ (q.cost.get ≤ a.getTokens ∧ q.cost.post ≤ a.postTokens)) ∧
    (s.admissions.map (·.call) ++ s.pendingRequests.map (·.call) ++ s.unmetered).Perm (List.range s.calls) ∧
    (s.pendingRequests ≠ [] → s.drainTimerAt.isSome = true) ∧
    ∀ (kind : BucketKind) (t₁ t₂ : ℚ) (interval : List LimiterEvent), t₁ ≤ t₂ →
      (∀ e ∈ interval, t₁ ≤ e.refillNow ∧ e.refillNow ≤ t₂) →
      (Machine.run RateLimiter.step s interval).spent kind - s.spent kind ≤
        (s₀.bucket kind).max + (t₂ - t₁) * (s₀.bucket kind).rate := by
  intro s₀ s
  have hinit := LimiterInv.create config start
  have hinv : LimiterInv s := hinit.run es
  have hframe := fun kind => hinit.run_frame es kind
  refine ⟨fun kind => ?_, fun a ha => ?_, hinv.accounted, hinv.armed,
    fun kind t₁ t₂ interval hle hinterval => ?_⟩
  · rw [← (hframe kind).1]
    exact ⟨(hinv.sound kind).tokens_nonneg, (hinv.sound kind).tokens_le⟩
  · exact ⟨(hinv.ordered a ha).priority, (hinv.ordered a ha).arrival⟩
  rw [← (hframe kind).1, ← (hframe kind).2]
  have hnothing : WithinInterval s s t₁ t₂ kind := ⟨⟨rfl, rfl⟩, le_refl _, le_max_left _ _, .inl rfl⟩
  have hwithin := hnothing.run hinv (hinv.sound kind).rate_nonneg hinterval
  exact hwithin.spent_le (hinv.sound kind) ((hinv.run interval).sound kind) hle

end Artgod.Trading
