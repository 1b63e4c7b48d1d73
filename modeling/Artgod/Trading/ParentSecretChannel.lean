/-
# The parent secret channel

`readSecretEnvelopeFromParent`: a bot process reads one frame from its parent, in chunks of any size, and then
keeps the channel as a sign that the parent is alive.  The channel is in one of five phases (`Reached`), and one
lemma for each says where an event leads.
-/
import Mathlib.Data.List.Induction
import Artgod.Machine.Runs
import Artgod.Trading.SecretEnvelope

namespace Artgod.Trading

open Js
open Desktop (BotKind)

/-! ## 1. The handlers -/

/-- What the promise is settled with. -/
inductive Settlement
  | resolved (envelope : List UInt8)
  | rejected (message : String)
  deriving DecidableEq

/-- The closure of `readSecretEnvelopeFromParent`, with the listeners that are attached, the calls of
`resolve` and `reject`, and the calls of the failure handler. -/
structure ParentChannel where
  chunks : List (List UInt8)
  bufferedLength : Nat
  expectedFrameLength : Option Nat
  envelopeDelivered : Bool
  channelTerminated : Bool
  dataAttached : Bool
  endAttached : Bool
  errorAttached : Bool
  closeAttached : Bool
  settled : List Settlement
  failures : List String

/-- The listeners are attached before the first byte. -/
def ParentChannel.initial : ParentChannel where
  chunks := []
  bufferedLength := 0
  expectedFrameLength := none
  envelopeDelivered := false
  channelTerminated := false
  dataAttached := true
  endAttached := true
  errorAttached := true
  closeAttached := true
  settled := []
  failures := []

def TradingError.message : TradingError → String
  | .biddingMandateViolation message => message
  | .openSeaPolicyViolation message => message
  | .rangeError message => message
  | .error message => message

namespace ParentChannel

section

variable (s : ParentChannel)

def wipeChunks : ParentChannel := { s with chunks := [], bufferedLength := 0 }

def detachListeners : ParentChannel :=
  { s with dataAttached := false, endAttached := false, errorAttached := false, closeAttached := false }

def rejectBeforeDelivery (message : String) : ParentChannel :=
  if s.channelTerminated then s
  else
    let s := { s with channelTerminated := true }.detachListeners.wipeChunks
    { s with settled := s.settled ++ [.rejected message] }

def failAfterDelivery (message : String) : ParentChannel :=
  if s.channelTerminated then s
  else
    let s := { s with channelTerminated := true }.detachListeners
    { s with failures := s.failures ++ [message] }

def releaseAfterCleanup : ParentChannel :=
  if s.channelTerminated then s else { s with channelTerminated := true }.detachListeners

/-- The loop that copies the header out of the chunks. -/
def copyHeader : List (List UInt8) → List UInt8 → List UInt8
  | [], header => header
  | chunk :: rest, header =>
    let remainingLength := secretEnvelopeHeaderLength - header.length
    if remainingLength = 0 then header
    else copyHeader rest (header ++ chunk.take (min chunk.length remainingLength))

def resolveExpectedFrameLength : Result (Option Nat) :=
  if s.bufferedLength < secretEnvelopeHeaderLength then .ok none
  else resolveSecretEnvelopeFrameLength (copyHeader s.chunks [])

/-- `expectedFrameLength ??= resolveExpectedFrameLength()`. -/
def expectFrameLength : Result (Option Nat) :=
  match s.expectedFrameLength with
  | some n => .ok (some n)
  | none => s.resolveExpectedFrameLength

def onData (incoming : List UInt8) : ParentChannel :=
  if s.channelTerminated then s
  else if s.envelopeDelivered then
    s.failAfterDelivery "Parent secret channel contains data after the complete frame"
  else if incoming.length = 0 then s
  else
    let s := { s with
      chunks := s.chunks ++ [incoming]
      bufferedLength := s.bufferedLength + incoming.length }
    match s.expectFrameLength with
    | .error error => s.rejectBeforeDelivery error.message
    | .ok none => { s with expectedFrameLength := none }
    | .ok (some n) =>
      let s := { s with expectedFrameLength := some n }
      if n < s.bufferedLength then
        s.rejectBeforeDelivery "Parent secret channel contains data after the complete frame"
      else if s.bufferedLength < n then s
      else
        let envelope := s.chunks.flatten
        let s := { s.wipeChunks with envelopeDelivered := true }
        { s with settled := s.settled ++ [Settlement.resolved envelope] }

def onEnd : ParentChannel :=
  if s.envelopeDelivered then s.failAfterDelivery "Parent secret channel closed unexpectedly"
  else s.rejectBeforeDelivery
    (if s.bufferedLength = 0 then "Secret envelope is missing" else "Secret envelope is truncated")

def onError : ParentChannel :=
  if s.envelopeDelivered then s.failAfterDelivery "Parent secret channel failed"
  else s.rejectBeforeDelivery "Parent secret channel failed"

def onClose : ParentChannel :=
  if s.envelopeDelivered then s.failAfterDelivery "Parent secret channel closed unexpectedly"
  else s.rejectBeforeDelivery "Secret envelope is truncated"

end

end ParentChannel

/-- What happens to the channel; `release` is the receiver's call of `releaseAfterCleanup`. -/
inductive ChannelEvent
  | data (chunk : List UInt8)
  | ended
  | failed
  | closed
  | release

namespace ParentChannel

def step (s : ParentChannel) : ChannelEvent → ParentChannel
  | .data chunk => if s.dataAttached then s.onData chunk else s
  | .ended => if s.endAttached then { s with endAttached := false }.onEnd else s
  | .failed => if s.errorAttached then { s with errorAttached := false }.onError else s
  | .closed => if s.closeAttached then { s with closeAttached := false }.onClose else s
  | .release => if s.envelopeDelivered then s.releaseAfterCleanup else s

/-- The channel after the events. -/
def after (es : List ChannelEvent) : ParentChannel := Machine.run step initial es

end ParentChannel

/-! ## 2. The phases -/

/-- The bytes of the events. -/
def receivedBytes (es : List ChannelEvent) : List UInt8 :=
  es.flatMap fun e => match e with
    | .data chunk => chunk
    | _ => []

variable {s : ParentChannel} {envelope received : List UInt8} {es : List ChannelEvent}

theorem receivedBytes_concat {e : ChannelEvent} :
    receivedBytes (es ++ [e]) = receivedBytes es ++ receivedBytes [e] := List.flatMap_append

theorem copyHeader_eq {chunks : List (List UInt8)} {header : List UInt8}
    (h : header.length ≤ secretEnvelopeHeaderLength) :
    ParentChannel.copyHeader chunks header
      = (header ++ chunks.flatten).take secretEnvelopeHeaderLength := by
  induction chunks generalizing header with
  | nil =>
    rw [ParentChannel.copyHeader, List.flatten_nil, List.append_nil, List.take_of_length_le h]
  | cons chunk rest ih =>
    rw [ParentChannel.copyHeader, List.flatten_cons]
    by_cases hfull : secretEnvelopeHeaderLength - header.length = 0
    · rw [if_pos hfull, List.take_append_of_le_length (by omega), List.take_of_length_le h]
    rw [if_neg hfull, ih (by rw [List.length_append, List.length_take]; omega)]
    by_cases hfits : chunk.length ≤ secretEnvelopeHeaderLength - header.length
    · rw [Nat.min_eq_left hfits, List.take_length, List.append_assoc]
    -- the header ends inside this chunk
    have h₁ : secretEnvelopeHeaderLength - header.length
        - (List.take (secretEnvelopeHeaderLength - header.length) chunk).length = 0 := by
      rw [List.length_take]
      omega
    have h₂ : secretEnvelopeHeaderLength - header.length - chunk.length = 0 := by omega
    rw [Nat.min_eq_right (by omega), List.append_assoc]
    simp only [List.take_append, List.take_take, Nat.min_self, h₁, h₂]

/-- Nothing was settled, and the bytes received are not a complete frame. -/
structure Waiting (s : ParentChannel) (received : List UInt8) : Prop where
  chunks : s.chunks.flatten = received
  buffered : s.bufferedLength = received.length
  delivered : s.envelopeDelivered = false
  terminated : s.channelTerminated = false
  data : s.dataAttached = true
  ended : s.endAttached = true
  failed : s.errorAttached = true
  closed : s.closeAttached = true
  settled : s.settled = []
  failures : s.failures = []
  expected : match s.expectedFrameLength with
    | none => received.length < secretEnvelopeHeaderLength
    | some n => resolveSecretEnvelopeFrameLength received = .ok (some n) ∧ received.length < n

/-- The envelope was delivered. -/
structure Opened (s : ParentChannel) (envelope : List UInt8) : Prop where
  delivered : s.envelopeDelivered = true
  terminated : s.channelTerminated = false
  data : s.dataAttached = true
  ended : s.endAttached = true
  failed : s.errorAttached = true
  closed : s.closeAttached = true
  settled : s.settled = [.resolved envelope]
  failures : s.failures = []

/-- Nothing is listened to any more. -/
structure Closed (s : ParentChannel) (settled : List Settlement) (failures : List String) : Prop where
  terminated : s.channelTerminated = true
  data : s.dataAttached = false
  ended : s.endAttached = false
  failed : s.errorAttached = false
  closed : s.closeAttached = false
  settled : s.settled = settled
  failures : s.failures = failures

theorem Closed.step {settled : List Settlement} {failures : List String}
    (h : Closed s settled failures) (e : ChannelEvent) : s.step e = s := by
  cases e with
  | data chunk => simp [ParentChannel.step, h.data]
  | ended => simp [ParentChannel.step, h.ended]
  | failed => simp [ParentChannel.step, h.failed]
  | closed => simp [ParentChannel.step, h.closed]
  | release => simp [ParentChannel.step, ParentChannel.releaseAfterCleanup, h.terminated]

theorem rejected_closed {message : String} (hterminated : s.channelTerminated = false)
    (hsettled : s.settled = []) (hfailures : s.failures = []) :
    Closed (s.rejectBeforeDelivery message) [.rejected message] [] := by
  simp only [ParentChannel.rejectBeforeDelivery, hterminated, Bool.false_eq_true, if_false]
  refine ⟨rfl, rfl, rfl, rfl, rfl, ?_, hfailures⟩
  show s.settled ++ [.rejected message] = _
  rw [hsettled]
  rfl

theorem failed_closed {message : String}
    (hterminated : s.channelTerminated = false) (hsettled : s.settled = [.resolved envelope])
    (hfailures : s.failures = []) :
    Closed (s.failAfterDelivery message) [.resolved envelope] [message] := by
  simp only [ParentChannel.failAfterDelivery, hterminated, Bool.false_eq_true, if_false]
  refine ⟨rfl, rfl, rfl, rfl, rfl, hsettled, ?_⟩
  show s.failures ++ [message] = _
  rw [hfailures]
  rfl

/-- **An open channel.**  A release closes it; anything else is a failure. -/
theorem Opened.step (h : Opened s envelope) (e : ChannelEvent) :
    (e = .release ∧ Closed (s.step e) [.resolved envelope] []) ∨
      e ≠ .release ∧ ∃ message, Closed (s.step e) [.resolved envelope] [message] := by
  cases e with
  | data chunk =>
    refine .inr ⟨by simp, ?_⟩
    simp only [ParentChannel.step, h.data, if_true, ParentChannel.onData, h.terminated, h.delivered,
      Bool.false_eq_true, if_false]
    exact ⟨_, failed_closed h.terminated h.settled h.failures⟩
  | ended =>
    refine .inr ⟨by simp, ?_⟩
    simp only [ParentChannel.step, h.ended, if_true, ParentChannel.onEnd, h.delivered]
    exact ⟨_, failed_closed h.terminated h.settled h.failures⟩
  | failed =>
    refine .inr ⟨by simp, ?_⟩
    simp only [ParentChannel.step, h.failed, if_true, ParentChannel.onError, h.delivered]
    exact ⟨_, failed_closed h.terminated h.settled h.failures⟩
  | closed =>
    refine .inr ⟨by simp, ?_⟩
    simp only [ParentChannel.step, h.closed, if_true, ParentChannel.onClose, h.delivered]
    exact ⟨_, failed_closed h.terminated h.settled h.failures⟩
  | release =>
    refine .inl ⟨rfl, ?_⟩
    simp only [ParentChannel.step, h.delivered, if_true, ParentChannel.releaseAfterCleanup, h.terminated,
      Bool.false_eq_true, if_false]
    exact ⟨rfl, rfl, rfl, rfl, rfl, h.settled, h.failures⟩

theorem Waiting.expected_eq (h : Waiting s received) (chunk : List UInt8) :
    ParentChannel.expectFrameLength { s with
        chunks := s.chunks ++ [chunk]
        bufferedLength := s.bufferedLength + chunk.length }
      = resolveSecretEnvelopeFrameLength (received ++ chunk) := by
  have hexpected := h.expected
  unfold ParentChannel.expectFrameLength
  cases hframe : s.expectedFrameLength with
  | some n =>
    rw [hframe] at hexpected
    have hheader : secretEnvelopeHeaderLength ≤ received.length := by
      by_contra hshort
      have hnone := resolve_eq_none.mpr (Nat.lt_of_not_le hshort)
      rw [hexpected.1] at hnone
      cases hnone
    have hlonger : secretEnvelopeHeaderLength ≤ (received ++ chunk).length := by
      rw [List.length_append]
      omega
    show (.ok (some n) : Result (Option Nat)) = _
    rw [← resolve_take hlonger, List.take_append_of_le_length hheader, resolve_take hheader, hexpected.1]
  | none =>
    have hflatten : (s.chunks ++ [chunk]).flatten = received ++ chunk := by
      rw [List.flatten_append, h.chunks, List.flatten_singleton]
    have hlength : s.bufferedLength + chunk.length = (received ++ chunk).length := by
      rw [h.buffered, List.length_append]
    simp only [ParentChannel.resolveExpectedFrameLength, hlength]
    by_cases hshort : (received ++ chunk).length < secretEnvelopeHeaderLength
    · rw [if_pos hshort, resolve_eq_none.mpr hshort]
    · rw [if_neg hshort, copyHeader_eq (Nat.zero_le _), List.nil_append, hflatten,
        resolve_take (Nat.le_of_not_lt hshort)]

/-- Where a chunk leads, by all bytes received. -/
def AfterChunk (s : ParentChannel) (all : List UInt8) : Prop :=
  match resolveSecretEnvelopeFrameLength all with
  | .error e => Closed s [.rejected e.message] []
  | .ok none => Waiting s all
  | .ok (some n) =>
    if n < all.length then ∃ message, Closed s [.rejected message] []
    else if all.length < n then Waiting s all
    else Opened s all

theorem Waiting.data_step {chunk : List UInt8} (h : Waiting s received)
    (hchunk : chunk ≠ []) : AfterChunk (s.step (.data chunk)) (received ++ chunk) := by
  have hexpected := h.expected_eq chunk
  have hnonempty : chunk.length ≠ 0 := fun hzero => hchunk (List.length_eq_zero_iff.mp hzero)
  have hflatten : (s.chunks ++ [chunk]).flatten = received ++ chunk := by
    rw [List.flatten_append, h.chunks, List.flatten_singleton]
  have hlength : s.bufferedLength + chunk.length = (received ++ chunk).length := by
    rw [h.buffered, List.length_append]
  have hterminated : ¬ s.channelTerminated = true := by simp [h.terminated]
  have hdelivered : ¬ s.envelopeDelivered = true := by simp [h.delivered]
  rw [ParentChannel.step, if_pos h.data, ParentChannel.onData, if_neg hterminated, if_neg hdelivered,
    if_neg hnonempty]
  unfold AfterChunk
  simp only [hexpected]
  cases hresolve : resolveSecretEnvelopeFrameLength (received ++ chunk) with
  | error e => exact rejected_closed h.terminated h.settled h.failures
  | ok expected =>
    cases expected with
    | none =>
      exact ⟨hflatten, hlength, h.delivered, h.terminated, h.data, h.ended, h.failed, h.closed, h.settled,
        h.failures, resolve_eq_none.mp hresolve⟩
    | some n =>
      simp only [hlength]
      by_cases hlong : n < (received ++ chunk).length
      · rw [if_pos hlong, if_pos hlong]
        exact ⟨_, rejected_closed h.terminated h.settled h.failures⟩
      rw [if_neg hlong, if_neg hlong]
      by_cases hshort : (received ++ chunk).length < n
      · rw [if_pos hshort, if_pos hshort]
        exact ⟨hflatten, hlength.symm ▸ rfl, h.delivered, h.terminated, h.data, h.ended, h.failed, h.closed,
          h.settled, h.failures, hresolve, hshort⟩
      rw [if_neg hshort, if_neg hshort]
      refine ⟨rfl, h.terminated, h.data, h.ended, h.failed, h.closed, ?_, h.failures⟩
      show s.settled ++ [Settlement.resolved (s.chunks ++ [chunk]).flatten] = _
      rw [h.settled, hflatten]
      rfl

/-- **Any event while the channel waits.**  It waits on with the bytes it has, or is closed by a
rejection, or is opened by a complete frame. -/
theorem Waiting.step (h : Waiting s received) (e : ChannelEvent) :
    (Waiting (s.step e) (received ++ receivedBytes [e]) ∧ e ∉ [.ended, .failed, .closed]) ∨
      (∃ message, Closed (s.step e) [.rejected message] []) ∨
      (∃ chunk, e = .data chunk) ∧ Opened (s.step e) (received ++ receivedBytes [e]) ∧
        resolveSecretEnvelopeFrameLength (received ++ receivedBytes [e])
          = .ok (some (received ++ receivedBytes [e]).length) := by
  cases e with
  | data chunk =>
    have hbytes : receivedBytes [.data chunk] = chunk := List.append_nil chunk
    rw [hbytes]
    by_cases hchunk : chunk = []
    · left
      subst hchunk
      rw [List.append_nil]
      refine ⟨?_, by simp⟩
      simpa [ParentChannel.step, h.data, ParentChannel.onData, h.terminated, h.delivered] using h
    · have hafter := h.data_step hchunk
      unfold AfterChunk at hafter
      split at hafter
      · exact .inr (.inl ⟨_, hafter⟩)
      · exact .inl ⟨hafter, by simp⟩
      next n hresolve =>
      split at hafter
      · exact .inr (.inl hafter)
      split at hafter
      · exact .inl ⟨hafter, by simp⟩
      · next hlong hshort =>
        have hn : n = (received ++ chunk).length := by omega
        exact .inr (.inr ⟨⟨chunk, rfl⟩, hafter, hn ▸ hresolve⟩)
  | ended =>
    refine .inr (.inl ?_)
    simp only [ParentChannel.step, h.ended, if_true, ParentChannel.onEnd, h.delivered, Bool.false_eq_true,
      if_false]
    exact ⟨_, rejected_closed h.terminated h.settled h.failures⟩
  | failed =>
    refine .inr (.inl ?_)
    simp only [ParentChannel.step, h.failed, if_true, ParentChannel.onError, h.delivered,
      Bool.false_eq_true, if_false]
    exact ⟨_, rejected_closed h.terminated h.settled h.failures⟩
  | closed =>
    refine .inr (.inl ?_)
    simp only [ParentChannel.step, h.closed, if_true, ParentChannel.onClose, h.delivered,
      Bool.false_eq_true, if_false]
    exact ⟨_, rejected_closed h.terminated h.settled h.failures⟩
  | release =>
    left
    have hbytes : receivedBytes [.release] = [] := rfl
    rw [hbytes, List.append_nil]
    refine ⟨?_, by simp⟩
    simpa [ParentChannel.step, h.delivered] using h

/-- The phase that a run has reached. -/
inductive Reached (es : List ChannelEvent) (s : ParentChannel) : Prop
  | waiting (h : Waiting s (receivedBytes es)) (quiet : ∀ e ∈ es, e ∉ [.ended, .failed, .closed])
  | rejected (message : String) (h : Closed s [.rejected message] [])
  | opened (envelope : List UInt8) (h : Opened s envelope)
  | failed (envelope : List UInt8) (message : String) (h : Closed s [.resolved envelope] [message])
  | released (envelope : List UInt8) (h : Closed s [.resolved envelope] []) (mem : .release ∈ es)

theorem Reached.step (h : Reached es s) (e : ChannelEvent) : Reached (es ++ [e]) (s.step e) := by
  cases h with
  | waiting h quiet =>
    rcases h.step e with ⟨hwaiting, he⟩ | ⟨message, hclosed⟩ | ⟨-, hopened, -⟩
    · refine .waiting (receivedBytes_concat ▸ hwaiting) fun x hx => ?_
      rcases List.mem_append.mp hx with hx | hx
      · exact quiet x hx
      · rw [List.mem_singleton.mp hx]
        exact he
    · exact .rejected message hclosed
    · exact .opened _ hopened
  | rejected message h => exact .rejected message ((h.step e).symm ▸ h)
  | opened envelope h =>
    rcases h.step e with ⟨rfl, hclosed⟩ | ⟨-, message, hclosed⟩
    · exact .released envelope hclosed (List.mem_append_right _ (List.mem_singleton_self _))
    · exact .failed envelope message hclosed
  | failed envelope message h => exact .failed envelope message ((h.step e).symm ▸ h)
  | released envelope h mem =>
    exact .released envelope ((h.step e).symm ▸ h) (List.mem_append_left _ mem)

theorem reached (es : List ChannelEvent) : Reached es (ParentChannel.after es) := by
  induction es using List.reverseRecOn with
  | nil =>
    refine .waiting ⟨rfl, rfl, rfl, rfl, rfl, rfl, rfl, rfl, rfl, rfl, ?_⟩ fun e he => by cases he
    show 0 < secretEnvelopeHeaderLength
    decide
  | append_singleton es e ih =>
    rw [ParentChannel.after, Machine.run_concat]
    exact ih.step e

/-! ## 3. The law -/

/-- **The law of the channel**, in the state after the events. -/
structure ChannelLaw (es : List ChannelEvent) : Prop where
  /-- The promise is settled once at most, and the failure handler called once at most. -/
  settled_le : (ParentChannel.after es).settled.length ≤ 1
  failures_le : (ParentChannel.after es).failures.length ≤ 1
  /-- After an end, an error or a close it is settled. -/
  settled_once : (∃ e ∈ es, e ∈ [.ended, .failed, .closed]) → (ParentChannel.after es).settled.length = 1
  /-- An envelope is delivered at a moment when the bytes received are one complete frame. -/
  delivered : ∀ envelope, .resolved envelope ∈ (ParentChannel.after es).settled →
    ∃ before chunk rest, es = before ++ .data chunk :: rest ∧ (ParentChannel.after before).settled = [] ∧
      (ParentChannel.after (before ++ [.data chunk])).settled = [.resolved envelope] ∧
      envelope = receivedBytes (before ++ [.data chunk]) ∧
      resolveSecretEnvelopeFrameLength envelope = .ok (some envelope.length)
  /-- After the delivery, whatever else happens before a release calls the failure handler, once. -/
  failure : ∀ before e rest envelope, es = before ++ e :: rest → .release ∉ before → e ≠ .release →
    .resolved envelope ∈ (ParentChannel.after before).settled →
    (ParentChannel.after es).failures.length = 1

theorem Closed.run {s : ParentChannel} {settled : List Settlement} {failures : List String}
    (h : Closed s settled failures) (es : List ChannelEvent) :
    Machine.run ParentChannel.step s es = s := by
  induction es with
  | nil => rfl
  | cons e rest ih => rw [Machine.run_cons, h.step e, ih]

theorem delivered_at (hmem : .resolved envelope ∈ (ParentChannel.after es).settled) :
    ∃ before chunk rest, es = before ++ .data chunk :: rest ∧ (ParentChannel.after before).settled = [] ∧
      (ParentChannel.after (before ++ [.data chunk])).settled = [.resolved envelope] ∧
      envelope = receivedBytes (before ++ [.data chunk]) ∧
      resolveSecretEnvelopeFrameLength envelope = .ok (some envelope.length) := by
  induction es using List.reverseRecOn with
  | nil => cases hmem
  | append_singleton es e ih =>
    have hstep : ParentChannel.after (es ++ [e]) = (ParentChannel.after es).step e := Machine.run_concat
    have hearlier : .resolved envelope ∈ (ParentChannel.after es).settled →
        ∃ before chunk rest, es ++ [e] = before ++ .data chunk :: rest ∧
          (ParentChannel.after before).settled = [] ∧
          (ParentChannel.after (before ++ [.data chunk])).settled = [.resolved envelope] ∧
          envelope = receivedBytes (before ++ [.data chunk]) ∧
          resolveSecretEnvelopeFrameLength envelope = .ok (some envelope.length) := by
      intro h
      obtain ⟨before, chunk, rest, hes, hrest⟩ := ih h
      refine ⟨before, chunk, rest ++ [e], ?_, hrest⟩
      rw [hes, List.append_assoc, List.cons_append]
    rw [hstep] at hmem
    cases reached es with
    | waiting h quiet =>
      rcases h.step e with ⟨hwaiting, -⟩ | ⟨message, hclosed⟩ | ⟨⟨chunk, rfl⟩, hopened, hframe⟩
      · rw [hwaiting.settled] at hmem
        cases hmem
      · rw [hclosed.settled, List.mem_singleton] at hmem
        cases hmem
      rw [hopened.settled, List.mem_singleton, Settlement.resolved.injEq] at hmem
      subst hmem
      refine ⟨es, chunk, [], rfl, h.settled, ?_, receivedBytes_concat.symm, hframe⟩
      rw [hstep]
      exact hopened.settled
    | rejected message h =>
      rw [h.step e, h.settled, List.mem_singleton] at hmem
      cases hmem
    | opened envelope' h =>
      refine hearlier ?_
      rcases h.step e with ⟨-, hclosed⟩ | ⟨-, message, hclosed⟩
      · rw [h.settled, ← hclosed.settled]
        exact hmem
      · rw [h.settled, ← hclosed.settled]
        exact hmem
    | failed envelope' message h => exact hearlier ((h.step e) ▸ hmem)
    | released envelope' h mem => exact hearlier ((h.step e) ▸ hmem)

theorem failure_once {before rest : List ChannelEvent} {e : ChannelEvent}
    (hrelease : .release ∉ before) (he : e ≠ .release)
    (hmem : .resolved envelope ∈ (ParentChannel.after before).settled) :
    (ParentChannel.after (before ++ e :: rest)).failures.length = 1 := by
  rw [ParentChannel.after, Machine.run_append, Machine.run_cons]
  have hreached := reached before
  rw [ParentChannel.after] at hreached hmem
  cases hreached with
  | waiting h quiet =>
    rw [h.settled] at hmem
    cases hmem
  | rejected message h =>
    rw [h.settled, List.mem_singleton] at hmem
    cases hmem
  | opened envelope' h =>
    rcases h.step e with ⟨hrel, -⟩ | ⟨-, message, hclosed⟩
    · exact absurd hrel he
    · rw [hclosed.run, hclosed.failures]
      rfl
  | failed envelope' message h =>
    rw [h.step e, h.run, h.failures]
    rfl
  | released envelope' h mem => exact absurd mem hrelease

theorem channelLaw (es : List ChannelEvent) : ChannelLaw es where
  settled_le := by
    cases reached es with
    | waiting h quiet => simp [h.settled]
    | rejected message h => simp [h.settled]
    | opened envelope h => simp [h.settled]
    | failed envelope message h => simp [h.settled]
    | released envelope h mem => simp [h.settled]
  failures_le := by
    cases reached es with
    | waiting h quiet => simp [h.failures]
    | rejected message h => simp [h.failures]
    | opened envelope h => simp [h.failures]
    | failed envelope message h => simp [h.failures]
    | released envelope h mem => simp [h.failures]
  settled_once := by
    rintro ⟨e, he, hends⟩
    cases reached es with
    | waiting h quiet => exact absurd hends (quiet e he)
    | rejected message h => simp [h.settled]
    | opened envelope h => simp [h.settled]
    | failed envelope message h => simp [h.settled]
    | released envelope h mem => simp [h.settled]
  delivered := fun _ hmem => delivered_at hmem
  failure := by
    rintro before e rest envelope rfl hrelease he hmem
    exact failure_once hrelease he hmem

theorem Opened.run {s : ParentChannel} {envelope : List UInt8} (h : Opened s envelope)
    (es : List ChannelEvent) :
    (Machine.run ParentChannel.step s es).settled = [.resolved envelope] := by
  cases es with
  | nil => exact h.settled
  | cons e rest =>
    rw [Machine.run_cons]
    rcases h.step e with ⟨-, hclosed⟩ | ⟨-, message, hclosed⟩
    · rw [hclosed.run, hclosed.settled]
    · rw [hclosed.run, hclosed.settled]

theorem resolve_begin {all more frame : List UInt8} (hfront : all ++ more = frame)
    (hframe : resolveSecretEnvelopeFrameLength frame = .ok (some frame.length)) :
    resolveSecretEnvelopeFrameLength all
      = .ok (if all.length < secretEnvelopeHeaderLength then none else some frame.length) := by
  by_cases hshort : all.length < secretEnvelopeHeaderLength
  · rw [if_pos hshort, resolve_eq_none.mpr hshort]
  have hall := Nat.le_of_not_lt hshort
  have hlonger : secretEnvelopeHeaderLength ≤ frame.length := by
    rw [← hfront, List.length_append]
    omega
  rw [if_neg hshort, ← hframe, ← resolve_take hlonger, ← hfront, List.take_append_of_le_length hall,
    resolve_take hall]

/-- **A frame is delivered, however it is split.**  Chunks that stop short of the frame are waited out,
and the one that completes it delivers it. -/
theorem Waiting.run {s : ParentChannel} {received frame : List UInt8} {chunks : List (List UInt8)}
    (h : Waiting s received) (hchunks : received ++ chunks.flatten = frame)
    (hframe : resolveSecretEnvelopeFrameLength frame = .ok (some frame.length)) :
    (Machine.run ParentChannel.step s (chunks.map .data)).settled = [.resolved frame] := by
  have hheader : secretEnvelopeHeaderLength ≤ frame.length := by
    by_contra hshort
    rw [resolve_eq_none.mpr (Nat.lt_of_not_le hshort)] at hframe
    cases hframe
  induction chunks generalizing s received with
  | nil =>
    -- a channel that waits has not received a frame
    rw [List.flatten_nil, List.append_nil] at hchunks
    subst hchunks
    have hexpected := h.expected
    split at hexpected
    · omega
    · rw [hframe] at hexpected
      cases hexpected.1
      omega
  | cons chunk rest ih =>
    rw [List.flatten_cons, ← List.append_assoc] at hchunks
    rw [List.map_cons, Machine.run_cons]
    by_cases hchunk : chunk = []
    · subst hchunk
      have hsame : s.step (.data []) = s := by
        simp [ParentChannel.step, ParentChannel.onData, h.terminated, h.delivered]
      rw [hsame]
      rw [List.append_nil] at hchunks
      exact ih h hchunks
    have hafter := h.data_step hchunk
    have hlength : (received ++ chunk).length + rest.flatten.length = frame.length := by
      rw [← hchunks, @List.length_append _ _ rest.flatten]
    rw [AfterChunk, resolve_begin hchunks hframe] at hafter
    by_cases hshort : (received ++ chunk).length < secretEnvelopeHeaderLength
    · rw [if_pos hshort] at hafter
      exact ih hafter hchunks
    rw [if_neg hshort] at hafter
    simp only [if_neg (show ¬ frame.length < (received ++ chunk).length by omega)] at hafter
    by_cases hpart : (received ++ chunk).length < frame.length
    · rw [if_pos hpart] at hafter
      exact ih hafter hchunks
    rw [if_neg hpart] at hafter
    have hrest : rest.flatten = [] := List.length_eq_zero_iff.mp (by omega)
    rw [hrest, List.append_nil] at hchunks
    rw [hafter.run, hchunks]

/-! ## 4. Across the process boundary -/

/-- **The secret envelope across the process boundary.**  The frame that the native side builds is
delivered once, with exactly its bytes, however it is split.  It is read back as the same metadata and
the same key, with the authority of the mandate, exactly when the mandate is well formed and of the chain
of the envelope.  Every sequence of events keeps the law of the channel. -/
theorem secret_envelope_boundary (json : JsonCodec) (p : Platform) (walletId address : String)
    (botKind : BotKind) (chainId : UInt64) (mandate : Option NativeMandate) (key : WalletPrivateKey)
    (bytes : List UInt8)
    (hbuild : buildTradingSecretEnvelope json walletId address botKind chainId mandate key = .ok bytes)
    (hjson : json.decode (json.encode (nativeMetadata walletId address botKind chainId mandate))
      = .ok (nativeMetadata walletId address botKind chainId mandate))
    (hsize : (json.encode (nativeMetadata walletId address botKind chainId mandate)).length
      ≤ secretEnvelopeMaxMetadataLengthBytes)
    (hpos : 0 < chainId.toNat) (hsafe : (chainId.toNat : Int) ≤ maxSafeInteger) :
    (∀ chunks : List (List UInt8), chunks.flatten = bytes →
      (ParentChannel.after (chunks.map .data)).settled = [.resolved bytes]) ∧
    (∀ envelope, parseSecretEnvelope json p bytes = .ok envelope ↔
      ∃ authority, MandateRead p botKind mandate chainId.toNat authority ∧
        envelope = ⟨walletId, address, botKind, chainId.toNat, authority, key.bytes⟩) ∧
    ∀ es : List ChannelEvent, ChannelLaw es := by
  have hbytes : bytes = envelopeFrame
      (json.encode (nativeMetadata walletId address botKind chainId mandate)) key.bytes := by
    unfold buildTradingSecretEnvelope at hbuild
    split at hbuild
    · cases hbuild
    · cases hbuild
    · exact (Except.ok.inj hbuild).symm
  refine ⟨fun chunks hchunks => ?_, fun envelope => ?_, channelLaw⟩
  · have hstart : Waiting ParentChannel.initial [] := by
      refine ⟨rfl, rfl, rfl, rfl, rfl, rfl, rfl, rfl, rfl, rfl, ?_⟩
      show 0 < secretEnvelopeHeaderLength
      decide
    refine hstart.run (by rw [List.nil_append, hchunks]) ?_
    rw [hbytes]
    exact resolve_frame hsize
  · rw [hbytes, parseSecretEnvelope_frame hjson hsize hpos hsafe]
    simp only [parseEnvelopeBiddingMandate_ok]

/-- The bytes of a text that is given in pieces. -/
def utf8Bytes (text : List String) : List UInt8 := text.flatMap fun piece => piece.toByteArray.data.toList

/-- JSON at one value, whose text is given. -/
def codecAt (value : Value) (text : List String) : JsonCodec where
  encode := fun _ => utf8Bytes text
  decode := fun bytes => if bytes = utf8Bytes text then .ok value else .error "Unexpected token"

theorem codecAt_decode {value other : Value} {text : List String} :
    (codecAt value text).decode ((codecAt value text).encode other) = .ok value := by
  simp [codecAt]

theorem build_codecAt {value : Value} {text : List String} {walletId address : String} {chainId : UInt64}
    {m : NativeMandate} {key : WalletPrivateKey} :
    buildTradingSecretEnvelope (codecAt value text) walletId address .bidding chainId (some m) key
      = .ok (envelopeFrame (utf8Bytes text) key.bytes) := rfl

def sampleCollection : NativeCollection where
  collectionId := 7
  artgodSlug := "example"
  contractAddress := "0x1111111111111111111111111111111111111111"
  openseaSlug := "Example-OpenSea"
  tokenScope := ⟨"all", []⟩
  maxUnitBidWei := "125"
  maxQuantity := 1

/-- A mandate for these collections, on the first chain. -/
def sampleMandate (collections : List NativeCollection) : NativeMandate :=
  ⟨1, ⟨"0", false, "1", "2", "3"⟩, collections⟩

def sampleKey : WalletPrivateKey := ⟨List.replicate 32 7, rfl⟩

/-- Lower case only for ASCII. -/
def asciiPlatform : Platform := ⟨fun c => [c], fun s => s⟩

/-- The metadata of a bidding bot with these collections. -/
def sampleMetadata (collections : List NativeCollection) : Value :=
  nativeMetadata "w" "0xa" .bidding 1 (some (sampleMandate collections))

/-- Its JSON, with the collections given as text. -/
def sampleText (collections : List String) : List String :=
  ["\x7b\"walletId\":\"w\",\"address\":\"0xa\",", "\"botKind\":\"bidding\",\"chainId\":1,",
    "\"biddingMandate\":\x7b\"chainId\":1,\"startPolicy\":", "\x7b\"wethAllowanceCapWei\":\"0\",",
    "\"trustOpenSeaSignedZoneTraitOffers\":false,", "\"wethApproval\":\x7b\"minPriorityFeePerGasWei\":\"1\",",
    "\"maxFeePerGasWei\":\"2\",\"maxTotalGasFeeWei\":\"3\",", "\"pendingNoncePolicy\":\"fail\"\x7d\x7d,",
    "\"collections\":"] ++ collections ++ ["\x7d\x7d"]

def sampleCollectionText : List String :=
  ["[\x7b\"collectionId\":7,\"artgodSlug\":\"example\",",
    "\"contractAddress\":\"0x1111111111111111111111111111111111111111\",",
    "\"openseaSlug\":\"Example-OpenSea\",", "\"tokenScope\":\x7b\"label\":\"all\",\"items\":[]\x7d,",
    "\"maxUnitBidWei\":\"125\",\"maxQuantity\":1\x7d]"]

/-- The frame of a sample. -/
def sampleFrame (collections : List String) : List UInt8 :=
  envelopeFrame (utf8Bytes (sampleText collections)) sampleKey.bytes

theorem secret_envelope_boundary_sample : (ParentChannel.after ([(sampleFrame sampleCollectionText).take 5,
        (sampleFrame sampleCollectionText).drop 5].map .data)).settled
      = [.resolved (sampleFrame sampleCollectionText)] :=
  (secret_envelope_boundary
    (codecAt (sampleMetadata [sampleCollection]) (sampleText sampleCollectionText)) asciiPlatform "w" "0xa"
    .bidding 1 (some (sampleMandate [sampleCollection])) sampleKey (sampleFrame sampleCollectionText)
    build_codecAt codecAt_decode (by decide +kernel) (by decide) (by decide)).1 _ (by simp)

/-- **A mandate without collections is sent and refused.**  It is built into a frame, and the reader
returns nothing. -/
theorem empty_mandate_refused :
    buildTradingSecretEnvelope (codecAt (sampleMetadata []) (sampleText ["[]"])) "w" "0xa" .bidding 1
        (some (sampleMandate [])) sampleKey = .ok (sampleFrame ["[]"]) ∧
      (codecAt (sampleMetadata []) (sampleText ["[]"])).decode
        ((codecAt (sampleMetadata []) (sampleText ["[]"])).encode (sampleMetadata []))
        = .ok (sampleMetadata []) ∧
      (utf8Bytes (sampleText ["[]"])).length ≤ secretEnvelopeMaxMetadataLengthBytes ∧
      ∀ envelope, parseSecretEnvelope (codecAt (sampleMetadata []) (sampleText ["[]"])) asciiPlatform
        (sampleFrame ["[]"]) ≠ .ok envelope := by
  have hsize : (utf8Bytes (sampleText ["[]"])).length ≤ secretEnvelopeMaxMetadataLengthBytes := by
    decide +kernel
  refine ⟨build_codecAt, codecAt_decode, hsize, fun envelope h => ?_⟩
  have hframe : parseSecretEnvelope (codecAt (sampleMetadata []) (sampleText ["[]"])) asciiPlatform
      (sampleFrame ["[]"]) = .ok envelope ↔
      ∃ authority, parseEnvelopeBiddingMandate asciiPlatform .bidding
        (((some (sampleMandate [])).map NativeMandate.toValue).getD .null) (1 : UInt64).toNat = .ok authority ∧
      envelope = ⟨"w", "0xa", .bidding, (1 : UInt64).toNat, authority, sampleKey.bytes⟩ :=
    parseSecretEnvelope_frame codecAt_decode hsize (by decide) (by decide)
  obtain ⟨authority, hread, -⟩ := hframe.mp h
  obtain ⟨-, hwell, -⟩ := parseEnvelopeBiddingMandate_ok.mp hread
  exact hwell.nonempty rfl

end Artgod.Trading
