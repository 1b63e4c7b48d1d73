/-
# Overlapping calls of one signing session

`OpenSeaPolicyWallet.signTypedData` while the SDK calls it several times in one session: while the signer
works, other calls come and the session may end.  The session's `signatureState` is the lock; a signer that
fails, or that answers after the end, gives it back.
-/
import Artgod.Js.OrderedMap
import Artgod.Machine.Runs
import Artgod.Trading.PolicyWallet

namespace Artgod.Trading

open Js

/-! ## 1. Calls and sessions -/

/-- Where a call of `signTypedData` is: it waits for the signer, it returned the signature, or it threw. -/
inductive SigningCall where
  | signing (typedData : OpenSeaTypedData)
  | returned (signature : String)
  | threw (error : TradingError)

def SigningCall.isSigning : SigningCall → Bool
  | .signing _ => true
  | _ => false

def SigningCall.isReturned : SigningCall → Bool
  | .returned _ => true
  | _ => false

/-- A placement session with the calls that were made in it.  `outcome` is what `runSigningSession` ended
with, once its work has. -/
structure SigningCalls where
  session : OfferSigningSession
  calls : OrderedMap Nat SigningCall
  nextCall : Nat
  outcome : Option (Result Unit)

namespace SigningCalls

/-- The session that `authorizeOffer` opens for an expectation. -/
def opened (expectation : OfferSigningExpectation) : SigningCalls where
  session := ⟨true, expectation, .available, [], 0⟩
  calls := .empty
  nextCall := 0
  outcome := none

/-- A call, up to the point where it waits for the signer. -/
def signTypedData (w : OpenSeaPolicyWallet) (p : Platform) (s : SigningCalls) (input : Value) :
    SigningCalls :=
  match w.acceptTypedData p s.session input with
  | .error error =>
    { s with calls := s.calls.set s.nextCall (.threw error), nextCall := s.nextCall + 1 }
  | .ok typedData =>
    { s with
      session := { s.session with
        signatureState := .pending, forwarded := typedData :: s.session.forwarded }
      calls := s.calls.set s.nextCall (.signing typedData)
      nextCall := s.nextCall + 1 }

/-- The `catch` of a call. -/
def failCall (s : SigningCalls) (call : Nat) (error : TradingError) : SigningCalls :=
  { s with
    session := { s.session with signatureState := .available }
    calls := s.calls.set call (.threw error) }

/-- The signer's signature reaches the call. -/
def signerReturned (s : SigningCalls) (call : Nat) (signature : String) : SigningCalls :=
  match s.calls.get call with
  | some (.signing _) =>
    if s.session.active then
      { s with
        session := { s.session with
          signatureState := .complete, signatures := s.session.signatures + 1 }
        calls := s.calls.set call (.returned signature) }
    else s.failCall call (.openSeaPolicyViolation "authorized offer is no longer active")
  | _ => s

/-- The signer's failure reaches the call. -/
def signerThrew (s : SigningCalls) (call : Nat) (error : TradingError) : SigningCalls :=
  match s.calls.get call with
  | some (.signing _) => s.failCall call error
  | _ => s

/-- The work of `runSigningSession` settles, and the session ends. -/
def workSettled (s : SigningCalls) (work : Result Unit) : SigningCalls :=
  match s.outcome with
  | some _ => s
  | none =>
    { s with
      session := { s.session with active := false }
      outcome := some (work >>= fun _ =>
        if s.session.signatureState ≠ .complete then
          .error (.openSeaPolicyViolation "authorized offer completed with 0 signatures")
        else .ok ()) }

end SigningCalls

/-- What can happen: the SDK calls, the signer answers one of the calls, the work of the session ends. -/
inductive SigningCallEvent where
  | request (input : Value)
  | signerReturned (call : Nat) (signature : String)
  | signerThrew (call : Nat) (error : TradingError)
  | workSettled (work : Result Unit)

namespace SigningCalls

def step (w : OpenSeaPolicyWallet) (p : Platform) (s : SigningCalls) : SigningCallEvent → SigningCalls
  | .request input => s.signTypedData w p input
  | .signerReturned call signature => s.signerReturned call signature
  | .signerThrew call error => s.signerThrew call error
  | .workSettled work => s.workSettled work

/-- The session after the events. -/
def after (w : OpenSeaPolicyWallet) (p : Platform) (expectation : OfferSigningExpectation)
    (events : List SigningCallEvent) : SigningCalls :=
  Machine.run (step w p) (opened expectation) events

/-- The calls for which the signer works. -/
def inFlight (s : SigningCalls) : Nat := s.calls.count SigningCall.isSigning

/-- The calls that returned a signature. -/
def signed (s : SigningCalls) : Nat := s.calls.count SigningCall.isReturned

/-! ## 2. The lock -/

/-- The numbers of calls in flight and of signatures, by the state of the lock. -/
structure LockInv (e : OfferSigningExpectation) (s : SigningCalls) : Prop where
  expectation : s.session.expectation = e
  inFlight : s.inFlight = if s.session.signatureState = .pending then 1 else 0
  signed : s.signed = if s.session.signatureState = .complete then 1 else 0
  signatures : s.session.signatures = s.signed
  bound : ∀ call, s.nextCall ≤ call → s.calls.get call = none

theorem lockInv_opened (e : OfferSigningExpectation) : LockInv e (opened e) :=
  ⟨rfl, rfl, rfl, rfl, fun _ _ => rfl⟩

theorem acceptTypedData_eq_ok {w : OpenSeaPolicyWallet} {p : Platform} {s : OfferSigningSession}
    {input : Value} {typedData : OpenSeaTypedData} :
    w.acceptTypedData p s input = .ok typedData ↔
      s.active = true ∧ s.signatureState = .available ∧ normalizeTypedDataInput input = .ok typedData ∧
        w.assertOfferTypedData p typedData s.expectation = .ok () := by
  simp only [OpenSeaPolicyWallet.acceptTypedData, violation, ite_error_eq_ok, bind_eq_ok,
    Bool.not_eq_false, not_not]
  constructor
  · rintro ⟨hactive, havailable, normalized, hnormalized, u, hassert, hpure⟩
    cases hpure
    exact ⟨hactive, havailable, hnormalized, hassert⟩
  · rintro ⟨hactive, havailable, hnormalized, hassert⟩
    exact ⟨hactive, havailable, typedData, hnormalized, (), hassert, rfl⟩

section Step

variable {e : OfferSigningExpectation} {s : SigningCalls}

theorem counts_set (call : Nat) (new : SigningCall) : (s.calls.set call new).count SigningCall.isSigning +
        OrderedMap.tally SigningCall.isSigning (s.calls.get call) =
      s.inFlight + OrderedMap.tally SigningCall.isSigning (some new) ∧
    (s.calls.set call new).count SigningCall.isReturned +
        OrderedMap.tally SigningCall.isReturned (s.calls.get call) =
      s.signed + OrderedMap.tally SigningCall.isReturned (some new) :=
  ⟨OrderedMap.count_set, OrderedMap.count_set⟩

theorem LockInv.pending (h : LockInv e s) {call : Nat} {typedData : OpenSeaTypedData}
    (hget : s.calls.get call = some (.signing typedData)) : s.session.signatureState = .pending := by
  have hcount := OrderedMap.count_delete (m := s.calls) (p := SigningCall.isSigning) (k := call)
  rw [hget, OrderedMap.tally_some, if_pos (by rfl)] at hcount
  have hin := h.inFlight
  unfold SigningCalls.inFlight at hin
  by_contra hne
  rw [if_neg hne] at hin
  omega

variable {w : OpenSeaPolicyWallet} {p : Platform} {call : Nat} {typedData : OpenSeaTypedData}

theorem LockInv.signTypedData (h : LockInv e s) (input : Value) :
    LockInv e (s.signTypedData w p input) := by
  have hnone := h.bound s.nextCall (Nat.le_refl _)
  have hbound : ∀ new call, s.nextCall + 1 ≤ call → (s.calls.set s.nextCall new).get call = none := by
    intro new call hle
    rw [OrderedMap.get_set, if_neg (by omega)]
    exact h.bound call (by omega)
  unfold SigningCalls.signTypedData
  split
  · next error herror =>
    obtain ⟨hin, hsigned⟩ := counts_set (s := s) s.nextCall (.threw error)
    rw [hnone] at hin hsigned
    exact ⟨h.expectation, hin.trans h.inFlight, hsigned.trans h.signed, h.signatures.trans hsigned.symm,
      hbound _⟩
  · next typedData hok =>
    obtain ⟨-, havailable, -, -⟩ := acceptTypedData_eq_ok.mp hok
    obtain ⟨hin, hsigned⟩ := counts_set (s := s) s.nextCall (.signing typedData)
    rw [hnone] at hin hsigned
    have hzero := h.inFlight
    have hnosig := h.signed
    rw [havailable, if_neg (by decide)] at hzero hnosig
    refine ⟨h.expectation, ?_, ?_, h.signatures.trans hsigned.symm, hbound _⟩
    · refine hin.trans ?_
      rw [hzero]
      rfl
    · refine hsigned.trans ?_
      rw [hnosig]
      rfl

theorem LockInv.failCall (h : LockInv e s)
    (hget : s.calls.get call = some (.signing typedData)) (error : TradingError) :
    LockInv e (s.failCall call error) := by
  have hpending := h.pending hget
  obtain ⟨hin, hsigned⟩ := counts_set (s := s) call (.threw error)
  rw [hget] at hin hsigned
  have hone := h.inFlight
  have hnosig := h.signed
  rw [hpending, if_pos rfl] at hone
  rw [hpending, if_neg (by decide)] at hnosig
  refine ⟨h.expectation, ?_, ?_, h.signatures.trans hsigned.symm, fun call' hle => ?_⟩
  · have hzero : (s.calls.set call (.threw error)).count SigningCall.isSigning + 1 = s.inFlight := hin
    show (s.calls.set call (.threw error)).count SigningCall.isSigning = 0
    omega
  · exact hsigned.trans hnosig
  show (s.calls.set call _).get call' = none
  rw [OrderedMap.get_set, if_neg]
  · exact h.bound call' hle
  · rintro rfl
    rw [h.bound call' hle] at hget
    cases hget

theorem LockInv.signerReturned (h : LockInv e s) (call : Nat) (signature : String) :
    LockInv e (s.signerReturned call signature) := by
  unfold SigningCalls.signerReturned
  split
  · next typedData hget =>
    split
    · have hpending := h.pending hget
      obtain ⟨hin, hsigned⟩ := counts_set (s := s) call (.returned signature)
      rw [hget] at hin hsigned
      have hone := h.inFlight
      have hnosig := h.signed
      rw [hpending, if_pos rfl] at hone
      rw [hpending, if_neg (by decide)] at hnosig
      have hsignatures := h.signatures
      have hafter : (s.calls.set call (.returned signature)).count SigningCall.isReturned = s.signed + 1 :=
        hsigned
      refine ⟨h.expectation, ?_, ?_, ?_, fun call' hle => ?_⟩
      · have hzero : (s.calls.set call (.returned signature)).count SigningCall.isSigning + 1 =
          s.inFlight := hin
        show (s.calls.set call (.returned signature)).count SigningCall.isSigning = 0
        omega
      · show (s.calls.set call (.returned signature)).count SigningCall.isReturned = 1
        omega
      · show s.session.signatures + 1 = (s.calls.set call (.returned signature)).count SigningCall.isReturned
        omega
      · show (s.calls.set call _).get call' = none
        rw [OrderedMap.get_set, if_neg]
        · exact h.bound call' hle
        · rintro rfl
          rw [h.bound call' hle] at hget
          cases hget
    · exact h.failCall hget _
  · exact h

theorem LockInv.step (h : LockInv e s) (event : SigningCallEvent) : LockInv e (s.step w p event) := by
  cases event with
  | request input => exact h.signTypedData input
  | signerReturned call signature => exact h.signerReturned call signature
  | signerThrew call error =>
    show LockInv e (s.signerThrew call error)
    unfold SigningCalls.signerThrew
    split
    · next typedData hget => exact h.failCall hget error
    · exact h
  | workSettled work =>
    show LockInv e (s.workSettled work)
    unfold SigningCalls.workSettled
    split
    · exact h
    · exact ⟨h.expectation, h.inFlight, h.signed, h.signatures, h.bound⟩

theorem lockInv_after (w : OpenSeaPolicyWallet) (p : Platform) (e : OfferSigningExpectation)
    (events : List SigningCallEvent) : LockInv e (after w p e events) :=
  Machine.run_invariant (fun _ event h => h.step event) (lockInv_opened e) events

/-! ## 3. When the signer is called -/

/-- A call that waits for the signer after a step waited before it, or the lock was free and the session
active. -/
theorem started (h : LockInv e s) {event : SigningCallEvent}
    (hget : (s.step w p event).calls.get call = some (.signing typedData)) :
    s.calls.get call = some (.signing typedData) ∨
      (s.session.active = true ∧ s.inFlight = 0 ∧ s.signed = 0) := by
  have hset : ∀ call' new, SigningCall.isSigning new = false →
      (s.calls.set call' new).get call = some (.signing typedData) →
        s.calls.get call = some (.signing typedData) := by
    intro call' new hnew hget'
    rw [OrderedMap.get_set] at hget'
    split at hget'
    · cases hget'
      cases hnew
    · exact hget'
  cases event with
  | request input =>
    replace hget : (s.signTypedData w p input).calls.get call = some (.signing typedData) := hget
    unfold SigningCalls.signTypedData at hget
    split at hget
    · exact .inl (hset _ _ rfl hget)
    next accepted hok =>
    obtain ⟨hactive, havailable, -, -⟩ := acceptTypedData_eq_ok.mp hok
    right
    rw [h.inFlight, h.signed, havailable]
    exact ⟨hactive, rfl, rfl⟩
  | signerReturned call' signature =>
    replace hget : (s.signerReturned call' signature).calls.get call = some (.signing typedData) := hget
    unfold SigningCalls.signerReturned at hget
    split at hget
    · split at hget
      · exact .inl (hset _ _ rfl hget)
      · exact .inl (hset _ _ rfl hget)
    · exact .inl hget
  | signerThrew call' error =>
    replace hget : (s.signerThrew call' error).calls.get call = some (.signing typedData) := hget
    unfold SigningCalls.signerThrew at hget
    split at hget
    · exact .inl (hset _ _ rfl hget)
    · exact .inl hget
  | workSettled work =>
    replace hget : (s.workSettled work).calls.get call = some (.signing typedData) := hget
    unfold SigningCalls.workSettled at hget
    split at hget
    · exact .inl hget
    · exact .inl hget

/-- The session takes a request: one whose typed data passes the checks is sent to the signer. -/
def Usable (w : OpenSeaPolicyWallet) (p : Platform) (s : SigningCalls) : Prop :=
  ∀ input typedData, normalizeTypedDataInput input = .ok typedData →
    w.assertOfferTypedData p typedData s.session.expectation = .ok () →
    (s.signTypedData w p input).calls.get s.nextCall = some (.signing typedData)

theorem LockInv.usable (h : LockInv e s)
    (hactive : s.session.active = true) (hin : s.inFlight = 0) (hsigned : s.signed = 0) : s.Usable w p := by
  intro input typedData hnormalized hassert
  have havailable : s.session.signatureState = .available := by
    have hi := h.inFlight
    have hr := h.signed
    cases hstate : s.session.signatureState with
    | available => rfl
    | pending =>
      rw [hstate, if_pos rfl] at hi
      omega
    | complete =>
      rw [hstate, if_pos rfl] at hr
      omega
  have hok := (acceptTypedData_eq_ok (w := w) (p := p)).mpr ⟨hactive, havailable, hnormalized, hassert⟩
  unfold SigningCalls.signTypedData
  rw [hok]
  exact (OrderedMap.get_set).trans (if_pos rfl)

theorem LockInv.failed (h : LockInv e s)
    (hget : s.calls.get call = some (.signing typedData)) (error : TradingError) :
    (s.signerThrew call error).inFlight = 0 ∧ (s.signerThrew call error).signed = 0 ∧
      (s.signerThrew call error).session.active = s.session.active := by
  have hfail := h.failCall hget error
  have heq : s.signerThrew call error = s.failCall call error := by
    unfold SigningCalls.signerThrew
    rw [hget]
  rw [heq, hfail.inFlight, hfail.signed]
  exact ⟨rfl, rfl, rfl⟩

end Step

/-- **One signature for an authorization.**  Whatever the order of calls, answers of the signer and the end
of the work: at most one call has returned a signature and for at most one the signer works; the signer is
called only while the session is active, no other call is in flight and no signature has been returned; and
while the session is active, a session without a call in flight and without a signature takes the next
request, which is so after every failure of the signer. -/
theorem one_signature_per_authorization (w : OpenSeaPolicyWallet) (p : Platform)
    (expectation : OfferSigningExpectation) (events : List SigningCallEvent) :
    (after w p expectation events).signed ≤ 1 ∧ (after w p expectation events).inFlight ≤ 1 ∧
      (∀ event call typedData,
        (after w p expectation (events ++ [event])).calls.get call = some (.signing typedData) →
        (after w p expectation events).calls.get call = some (.signing typedData) ∨
          ((after w p expectation events).session.active = true ∧
            (after w p expectation events).inFlight = 0 ∧ (after w p expectation events).signed = 0)) ∧
      ((after w p expectation events).session.active = true →
        (after w p expectation events).inFlight = 0 → (after w p expectation events).signed = 0 →
          (after w p expectation events).Usable w p) ∧
      (∀ call typedData error, (after w p expectation events).calls.get call = some (.signing typedData) →
        (after w p expectation events).session.active = true →
          (after w p expectation (events ++ [.signerThrew call error])).Usable w p) := by
  have h := lockInv_after w p expectation events
  refine ⟨?_, ?_, fun event call typedData hget => ?_, h.usable, fun call typedData error hget hactive => ?_⟩
  · rw [h.signed]
    split
    · exact Nat.le_refl _
    · exact Nat.zero_le _
  · rw [h.inFlight]
    split
    · exact Nat.le_refl _
    · exact Nat.zero_le _
  · rw [after, Machine.run_concat] at hget
    exact started h hget
  · obtain ⟨hin, hsigned, hactive'⟩ := h.failed hget error
    rw [after, Machine.run_concat]
    have hstep := h.step (w := w) (p := p) (.signerThrew call error)
    exact hstep.usable (hactive'.trans hactive) hin hsigned

end SigningCalls

end Artgod.Trading
