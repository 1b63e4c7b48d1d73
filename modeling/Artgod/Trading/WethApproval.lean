/-
# The WETH approval

`ensureAllowance` brings the allowance of the OpenSea conduit to the authorized cap
(`viem-weth-allowance-approval-service.ts`) with one `approve`.  What the node and the wallet answer to a call may
be anything; a run is the list of its calls with their answers.
-/
import Artgod.Machine.Attempts
import Artgod.Trading.PolicyWallet
import Artgod.Trading.TransactionPolicy

namespace Artgod.Trading

open Js Machine

/-! ## 1. The service and its authority -/

structure WethApprovalAuthorization where
  allowanceWei : Int
  transactionPolicy : EvmTransactionPolicyConfig
  maxTotalGasFeeWei : Int

/-- `OPENSEA_MAINNET_SECURITY_POLICY.conduitAddress`. -/
def openSeaConduitAddress : String := "0x1e0049783f008a0085193e00003d00cd54003c71"

def approvalGasLimitHeadroomBps : Int := 12000
def basisPointsDenominator : Int := 10000

/-- What the service throws. -/
inductive WethApprovalError where
  /-- The node or the wallet failed. -/
  | rpc (message : String)
  | policy (error : EvmPolicyError)
  | invalidAddress (address : String)
  | error (message : String)

/-- viem's `getAddress`. -/
def getAddress (p : Platform) (address : String) : Except WethApprovalError String :=
  match getAddress? p address with
  | some checksummed => .ok checksummed
  | none => .error (.invalidAddress address)

def assertPinnedApprovalTarget (p : Platform) (wethAddress spenderAddress : String) :
    Except WethApprovalError Unit := do
  let pinnedWeth ← getAddress p openSeaMainnetSecurityPolicy.wethAddress
  if wethAddress ≠ pinnedWeth then .error (.error "WETH approval token does not match the pinned policy")
  else
    let pinnedConduit ← getAddress p openSeaConduitAddress
    if spenderAddress ≠ pinnedConduit then
      .error (.error "WETH approval spender does not match the pinned OpenSea conduit")
    else .ok ()

/-- `ViemWethAllowanceApprovalService`, with what its constructor has checked. -/
structure WethAllowanceApprovalService (p : Platform) where
  wethAddress : String
  spenderAddress : String
  authorization : WethApprovalAuthorization
  pinnedWeth : getAddress p openSeaMainnetSecurityPolicy.wethAddress = .ok wethAddress
  pinnedConduit : getAddress p openSeaConduitAddress = .ok spenderAddress
  validPolicy : authorization.transactionPolicy.Valid
  allowance_nonneg : 0 ≤ authorization.allowanceWei
  maxTotalGasFee_pos : 0 < authorization.maxTotalGasFeeWei

variable {p : Platform}

theorem assertPinnedApprovalTarget_eq_ok {wethAddress spenderAddress : String} :
    assertPinnedApprovalTarget p wethAddress spenderAddress = .ok () ↔
      getAddress p openSeaMainnetSecurityPolicy.wethAddress = .ok wethAddress ∧
        getAddress p openSeaConduitAddress = .ok spenderAddress := by
  unfold assertPinnedApprovalTarget
  constructor
  · intro h
    obtain ⟨pinnedWeth, hweth, h⟩ := bind_eq_ok.mp h
    obtain ⟨hsame, h⟩ := ite_error_eq_ok.mp h
    obtain ⟨pinnedConduit, hconduit, h⟩ := bind_eq_ok.mp h
    obtain ⟨hsame', -⟩ := ite_error_eq_ok.mp h
    rw [not_not.mp hsame, not_not.mp hsame']
    exact ⟨hweth, hconduit⟩
  · rintro ⟨hweth, hconduit⟩
    refine bind_eq_ok.mpr ⟨_, hweth, ite_error_eq_ok.mpr ⟨not_not.mpr rfl, ?_⟩⟩
    exact bind_eq_ok.mpr ⟨_, hconduit, ite_error_eq_ok.mpr ⟨not_not.mpr rfl, rfl⟩⟩

/-- The service that owns fees and nonces. -/
def WethAllowanceApprovalService.transactionPolicyService (service : WethAllowanceApprovalService p) :
    EvmTransactionPolicyService :=
  ⟨service.authorization.transactionPolicy, service.validPolicy⟩

/-! ## 2. The calls of a run -/

structure WethApprovalSubmission where
  address : String
  functionName : String
  spender : String
  amount : Int
  gas : Int
  maxFeePerGas : Int
  maxPriorityFeePerGas : Int

/-- A call and its answer. -/
inductive ApprovalCall where
  /-- `readContract` of `allowance`. -/
  | allowance (address owner spender : String) (answer : Except String Int)
  /-- `estimateContractGas` of `approve`. -/
  | estimateGas (account address spender : String) (amount : Int) (answer : Except String Int)
  /-- The reads of the transaction policy. -/
  | policyReads (fromAddress : String) (reads : PolicyReads)
  | writeContract (submission : WethApprovalSubmission) (answer : Except String String)
  | waitForTransactionReceipt (hash : String) (answer : Except String Unit)

/-- **The node and the wallet:** an answer to each call, given the calls before it. -/
structure ApprovalClients where
  allowance : List ApprovalCall → Except String Int
  estimateGas : List ApprovalCall → Except String Int
  policyReads : List ApprovalCall → PolicyReads
  writeContract : List ApprovalCall → Except String String
  waitForTransactionReceipt : List ApprovalCall → Except String Unit

abbrev ApprovalM := EStateM WethApprovalError (List ApprovalCall)

/-- A call is made, and answered. -/
def call {α : Type} (clients : List ApprovalCall → α) (record : α → ApprovalCall) : ApprovalM α := do
  let before ← get
  let answer := clients before
  modify (· ++ [record answer])
  pure answer

/-- An answer, or the error that the call throws. -/
def orThrow {α : Type} (answer : Except String α) : ApprovalM α := answered (answer.mapError .rpc)

/-! ## 3. `ensureAllowance` -/

/-- `multiplyByBpsCeil` of this file.  The numerator is rounded up before the division. -/
def multiplyGasByBpsCeil (value basisPoints : Int) : Int :=
  (value * basisPoints + basisPointsDenominator - 1).tdiv basisPointsDenominator

structure PreparedWethApprovalTransaction where
  transactionPolicy : EvmPreparedTransactionPolicy
  gasEstimate : Int
  gasLimit : Int
  worstCaseGasFeeWei : Int

structure EnsureWethAllowanceInput where
  ownerAddress : String
  dryRun : Option Bool

/-- `WETH_ALLOWANCE_RECONCILIATION_STATUS`. -/
inductive WethAllowanceStatus where
  | exactAllowance
  | dryRun
  | updated

structure EnsureWethAllowanceResult where
  status : WethAllowanceStatus
  ownerAddress : String
  spenderAddress : String
  desiredAllowanceWei : Int
  previousAllowanceWei : Int
  currentAllowanceWei : Int
  transactionHash : Option String

namespace WethAllowanceApprovalService

variable (service : WethAllowanceApprovalService p) (clients : ApprovalClients)

variable (ownerAddress : String)

/-- The allowance of the conduit. -/
def readAllowance : ApprovalM Int := do
  let answer ← call clients.allowance (.allowance service.wethAddress ownerAddress service.spenderAddress)
  orThrow answer

def readRequiredGasEstimate (desiredAllowanceWei : Int) : ApprovalM Int := do
  let answer ← call clients.estimateGas
    (.estimateGas ownerAddress service.wethAddress service.spenderAddress desiredAllowanceWei)
  match answer with
  | .ok gasEstimate =>
    if gasEstimate ≤ 0 then
      throw (.error "Cannot enforce WETH approval gas fee cap without a gas estimate")
    else pure gasEstimate
  | .error _ => throw (.error "Cannot enforce WETH approval gas fee cap without a gas estimate")

def prepareApprovalTransactionPolicy (desiredAllowanceWei : Int) :
    ApprovalM PreparedWethApprovalTransaction := do
  let gasEstimate ← service.readRequiredGasEstimate clients ownerAddress desiredAllowanceWei
  let reads ← call clients.policyReads (.policyReads ownerAddress)
  let transactionPolicy ←
    answered ((service.transactionPolicyService.prepare ⟨"weth_approval", ownerAddress⟩ reads).mapError .policy)
  let gasLimit := multiplyGasByBpsCeil gasEstimate approvalGasLimitHeadroomBps
  let worstCaseGasFeeWei := gasLimit * transactionPolicy.maxFeePerGasWei
  if worstCaseGasFeeWei > service.authorization.maxTotalGasFeeWei then
    throw (.error ("WETH approval worst-case gas fee exceeds authorized cap: worstCase=" ++
      toString worstCaseGasFeeWei ++ " wei, cap=" ++ toString service.authorization.maxTotalGasFeeWei ++ " wei"))
  else pure { transactionPolicy, gasEstimate, gasLimit, worstCaseGasFeeWei }

def assertAuthorizedApprovalSubmission (submission : WethApprovalSubmission)
    (prepared : PreparedWethApprovalTransaction) : Except WethApprovalError Unit := do
  assertPinnedApprovalTarget p service.wethAddress service.spenderAddress
  let authorizedFees := service.authorization.transactionPolicy.fees
  if submission.maxFeePerGas > authorizedFees.maxFeePerGasWei then
    .error (.error "WETH approval maximum fee per gas exceeds the authorized cap")
  else if submission.maxPriorityFeePerGas < authorizedFees.minPriorityFeePerGasWei ∨
      submission.maxPriorityFeePerGas > submission.maxFeePerGas then
    .error (.error "WETH approval priority fee is outside the authorized relationship")
  else
    let worstCaseGasFeeWei := submission.gas * submission.maxFeePerGas
    if worstCaseGasFeeWei ≠ prepared.worstCaseGasFeeWei ∨
        worstCaseGasFeeWei > service.authorization.maxTotalGasFeeWei then
      .error (.error "WETH approval worst-case gas fee is outside the authorized cap")
    else if submission.address ≠ service.wethAddress ∨ submission.functionName ≠ "approve" ∨
        submission.spender ≠ service.spenderAddress ∨ submission.amount ≠ service.authorization.allowanceWei then
      .error (.error
        "WETH approval calldata does not match the authorized token, conduit, and allowance")
    else .ok ()

def readConfirmedAllowance (desiredAllowanceWei : Int) (transactionHash : String) : ApprovalM Int := do
  let confirmedAllowanceWei ← service.readAllowance clients ownerAddress
  if confirmedAllowanceWei ≠ desiredAllowanceWei then
    throw (.error ("Confirmed WETH approval did not establish the authorized allowance cap: expected=" ++
      toString desiredAllowanceWei ++ " wei, received=" ++ toString confirmedAllowanceWei ++ " wei, tx=" ++
      transactionHash))
  else pure confirmedAllowanceWei

/-- The call that `ensureAllowance` sends. -/
def approvalSubmission (prepared : PreparedWethApprovalTransaction) : WethApprovalSubmission where
  address := service.wethAddress
  functionName := "approve"
  spender := service.spenderAddress
  amount := service.authorization.allowanceWei
  gas := prepared.gasLimit
  maxFeePerGas := prepared.transactionPolicy.maxFeePerGasWei
  maxPriorityFeePerGas := prepared.transactionPolicy.maxPriorityFeePerGasWei

/-- `ensureAllowance` from where an approval is required. -/
def approveAllowance (currentAllowanceWei : Int) : ApprovalM EnsureWethAllowanceResult := do
  let desiredAllowanceWei := service.authorization.allowanceWei
  let prepared ← service.prepareApprovalTransactionPolicy clients ownerAddress desiredAllowanceWei
  let submission := service.approvalSubmission prepared
  answered (service.assertAuthorizedApprovalSubmission submission prepared)
  let submitted ← call clients.writeContract (.writeContract submission)
  let transactionHash ← orThrow submitted
  let received ← call clients.waitForTransactionReceipt (.waitForTransactionReceipt transactionHash)
  orThrow received
  let confirmedAllowanceWei ← service.readConfirmedAllowance clients ownerAddress desiredAllowanceWei transactionHash
  pure {
    status := .updated
    ownerAddress
    spenderAddress := service.spenderAddress
    desiredAllowanceWei
    previousAllowanceWei := currentAllowanceWei
    currentAllowanceWei := confirmedAllowanceWei
    transactionHash := some transactionHash }

def ensureAllowance (input : EnsureWethAllowanceInput) : ApprovalM EnsureWethAllowanceResult := do
  let ownerAddress ← answered (getAddress p input.ownerAddress)
  let desiredAllowanceWei := service.authorization.allowanceWei
  let currentAllowanceWei ← service.readAllowance clients ownerAddress
  if currentAllowanceWei = desiredAllowanceWei then
    pure {
      status := .exactAllowance
      ownerAddress
      spenderAddress := service.spenderAddress
      desiredAllowanceWei
      previousAllowanceWei := currentAllowanceWei
      currentAllowanceWei
      transactionHash := none }
  else if input.dryRun = some true then
    pure {
      status := .dryRun
      ownerAddress
      spenderAddress := service.spenderAddress
      desiredAllowanceWei
      previousAllowanceWei := currentAllowanceWei
      currentAllowanceWei
      transactionHash := none }
  else service.approveAllowance clients ownerAddress currentAllowanceWei

end WethAllowanceApprovalService

/-! ## 4. What a run may do -/

def ApprovalCall.isSubmission : ApprovalCall → Bool
  | .writeContract _ _ => true
  | _ => false

def ApprovalCall.allowanceRead? : ApprovalCall → Option (Except String Int)
  | .allowance _ _ _ answer => some answer
  | _ => none

/-- The answers to the reads of the allowance. -/
def allowanceReads (calls : List ApprovalCall) : List (Except String Int) := calls.filterMap (·.allowanceRead?)

/-- No transaction is among these calls. -/
def NoSubmission (calls : List ApprovalCall) : Prop := ∀ call ∈ calls, call.isSubmission = false

/-- **What a transaction must be, given the calls before it.** -/
structure WithinAuthority (service : WethAllowanceApprovalService p) (input : EnsureWethAllowanceInput)
    (before : List ApprovalCall) (submission : WethApprovalSubmission) : Prop where
  notDryRun : input.dryRun ≠ some true
  allowance_differed : ∃ first, (allowanceReads before).head? = some (.ok first) ∧
    first ≠ service.authorization.allowanceWei
  /-- The pending nonce was read to be no more than the latest, and the fee covers the base fee that was read. -/
  policy_read : ∃ owner reads latest pending block baseFee, getAddress p input.ownerAddress = .ok owner ∧
    .policyReads owner reads ∈ before ∧ reads.latestNonce = .ok latest ∧ reads.pendingNonce = .ok pending ∧
    pending ≤ latest ∧ reads.latestBlock = .ok block ∧ block.baseFeePerGas = some baseFee ∧
    baseFee + submission.maxPriorityFeePerGas ≤ submission.maxFeePerGas
  token : getAddress p openSeaMainnetSecurityPolicy.wethAddress = .ok submission.address
  function : submission.functionName = "approve"
  spender : getAddress p openSeaConduitAddress = .ok submission.spender
  amount : submission.amount = service.authorization.allowanceWei
  priorityFee_ge : service.authorization.transactionPolicy.fees.minPriorityFeePerGasWei ≤
    submission.maxPriorityFeePerGas
  priorityFee_le : submission.maxPriorityFeePerGas ≤ submission.maxFeePerGas
  maxFee_le : submission.maxFeePerGas ≤ service.authorization.transactionPolicy.fees.maxFeePerGasWei
  gasFee_le : submission.gas * submission.maxFeePerGas ≤ service.authorization.maxTotalGasFeeWei

/-- **Every transaction of the run is within the authority, and there is no other.** -/
def OneApproval (service : WethAllowanceApprovalService p) (input : EnsureWethAllowanceInput)
    (calls : List ApprovalCall) : Prop :=
  ∀ before submission answer after, calls = before ++ .writeContract submission answer :: after →
    WithinAuthority service input before submission ∧ NoSubmission (before ++ after)

variable {service : WethAllowanceApprovalService p} {clients : ApprovalClients} {input : EnsureWethAllowanceInput}
  {calls before after : List ApprovalCall}

theorem NoSubmission.append (hbefore : NoSubmission before) (hafter : NoSubmission after) :
    NoSubmission (before ++ after) := fun call hcall =>
  (List.mem_append.mp hcall).elim (hbefore call) (hafter call)

theorem NoSubmission.singleton {call : ApprovalCall} (h : call.isSubmission = false) : NoSubmission [call] :=
  fun _ hmem => List.mem_singleton.mp hmem ▸ h

theorem NoSubmission.oneApproval (h : NoSubmission calls) : OneApproval service input calls := by
  rintro before submission answer after rfl
  cases h _ (List.mem_append_right before List.mem_cons_self)

variable {submission : WethApprovalSubmission} {α : Type}
  {R : WethApprovalError → List ApprovalCall → Prop}

theorem WithinAuthority.oneApproval {answer : Except String String}
    (h : WithinAuthority service input before submission) (hbefore : NoSubmission before)
    (hafter : NoSubmission after) :
    OneApproval service input (before ++ .writeContract submission answer :: after) := by
  intro before' submission' answer' after' heq
  have hnotBefore : ApprovalCall.writeContract submission' answer' ∉ before := fun hmem => (nomatch hbefore _ hmem)
  have hnotAfter : ApprovalCall.writeContract submission' answer' ∉ after := fun hmem => (nomatch hafter _ hmem)
  obtain ⟨rfl, hsame, rfl⟩ := (List.append_cons_inj_of_notMem hnotBefore hnotAfter).mp heq
  cases hsame
  exact ⟨h, hbefore.append hafter⟩

/-! ## 5. One function at a time -/

@[simp] theorem ends_call {outside : List ApprovalCall → α} {record : α → ApprovalCall}
    {Q : α → List ApprovalCall → Prop} :
    Ends (call outside record) calls Q R ↔ Q (outside calls) (calls ++ [record (outside calls)]) := Iff.rfl

theorem ends_orThrow {answer : Except String α} {Q : α → List ApprovalCall → Prop}
    :
    Ends (orThrow answer) calls Q R ↔
      (∀ a, answer = .ok a → Q a calls) ∧ ∀ message, answer = .error message → R (.rpc message) calls := by
  cases answer with
  | ok a => exact ⟨fun h => ⟨fun a' heq => Except.ok.inj heq ▸ h, fun _ heq => (nomatch heq)⟩, fun h => h.1 a rfl⟩
  | error m =>
    exact ⟨fun h => ⟨fun _ heq => (nomatch heq), fun m' heq => Except.error.inj heq ▸ h⟩, fun h => h.2 m rfl⟩

theorem readAllowance_ends (ownerAddress : String) : Ends (service.readAllowance clients ownerAddress) calls
      (fun allowanceWei calls' => calls' =
        calls ++ [.allowance service.wethAddress ownerAddress service.spenderAddress (.ok allowanceWei)])
      (fun _ calls' => ∃ added, calls' = calls ++ added ∧ NoSubmission added) := by
  unfold WethAllowanceApprovalService.readAllowance
  rw [ends_bind, ends_call, ends_orThrow]
  refine ⟨fun allowanceWei hanswer => ?_, fun message _ => ⟨_, rfl, .singleton rfl⟩⟩
  rw [hanswer]

theorem readRequiredGasEstimate_ends (ownerAddress : String) (desiredAllowanceWei : Int) :
    Ends (service.readRequiredGasEstimate clients ownerAddress desiredAllowanceWei) calls
      (fun _ calls' => ∃ added, calls' = calls ++ added ∧ NoSubmission added ∧ allowanceReads added = [])
      (fun _ calls' => ∃ added, calls' = calls ++ added ∧ NoSubmission added) := by
  unfold WethAllowanceApprovalService.readRequiredGasEstimate
  rw [ends_bind, ends_call]
  split
  · split
    · exact ⟨_, rfl, .singleton rfl⟩
    · exact ⟨_, rfl, .singleton rfl, rfl⟩
  · exact ⟨_, rfl, .singleton rfl⟩

theorem prepareApprovalTransactionPolicy_ends (ownerAddress : String) (desiredAllowanceWei : Int) :
    Ends (service.prepareApprovalTransactionPolicy clients ownerAddress desiredAllowanceWei) calls
      (fun prepared calls' => ∃ added reads, calls' = calls ++ added ∧ NoSubmission added ∧
        allowanceReads added = [] ∧ .policyReads ownerAddress reads ∈ added ∧
        prepared.transactionPolicy.Within service.authorization.transactionPolicy.fees reads)
      (fun _ calls' => ∃ added, calls' = calls ++ added ∧ NoSubmission added) := by
  unfold WethAllowanceApprovalService.prepareApprovalTransactionPolicy
  refine (readRequiredGasEstimate_ends ownerAddress desiredAllowanceWei).bind ?_ fun _ _ h => h
  rintro gasEstimate calls' ⟨added, rfl, hquiet, hreads⟩
  rw [ends_bind, ends_call, ends_bind, ends_answered]
  generalize hanswer : clients.policyReads (calls ++ added) = reads
  have hquiet' : NoSubmission (added ++ [.policyReads ownerAddress reads]) := hquiet.append (.singleton rfl)
  refine ⟨fun policy hpolicy => ?_, fun _ _ => ⟨_, List.append_assoc _ _ _, hquiet'⟩⟩
  dsimp only
  split
  · exact ⟨_, List.append_assoc _ _ _, hquiet'⟩
  refine ⟨_, reads, List.append_assoc _ _ _, hquiet', ?_, List.mem_append_right _ (List.mem_singleton.mpr rfl), ?_⟩
  · rw [allowanceReads, List.filterMap_append]
    exact List.append_eq_nil_iff.mpr ⟨hreads, rfl⟩
  cases hprepare : service.transactionPolicyService.prepare ⟨"weth_approval", ownerAddress⟩ reads with
  | error e =>
    rw [hprepare] at hpolicy
    cases hpolicy
  | ok policy' =>
    rw [hprepare] at hpolicy
    cases hpolicy
    exact prepare_within hprepare

theorem assertAuthorizedApprovalSubmission_eq_ok {prepared : PreparedWethApprovalTransaction} :
    service.assertAuthorizedApprovalSubmission submission prepared = .ok () ↔
      submission.maxFeePerGas ≤ service.authorization.transactionPolicy.fees.maxFeePerGasWei ∧
      service.authorization.transactionPolicy.fees.minPriorityFeePerGasWei ≤ submission.maxPriorityFeePerGas ∧
      submission.maxPriorityFeePerGas ≤ submission.maxFeePerGas ∧
      submission.gas * submission.maxFeePerGas = prepared.worstCaseGasFeeWei ∧
      submission.gas * submission.maxFeePerGas ≤ service.authorization.maxTotalGasFeeWei ∧
      submission.address = service.wethAddress ∧ submission.functionName = "approve" ∧
      submission.spender = service.spenderAddress ∧ submission.amount = service.authorization.allowanceWei := by
  unfold WethAllowanceApprovalService.assertAuthorizedApprovalSubmission
  rw [assertPinnedApprovalTarget_eq_ok.mpr ⟨service.pinnedWeth, service.pinnedConduit⟩]
  simp only [bind, Except.bind, ite_error_eq_ok, not_or, not_lt, not_not, ne_eq, and_true, and_assoc, gt_iff_lt]

/-- **From where an approval is required:** one transaction at most, sent within its authority. -/
theorem approveAllowance_ends {ownerAddress : String} {currentAllowanceWei : Int}
    (howner : getAddress p input.ownerAddress = .ok ownerAddress) (hdryRun : input.dryRun ≠ some true)
    (hquiet : NoSubmission calls)
    (hfirst : ∃ first, (allowanceReads calls).head? = some (.ok first) ∧ first ≠ service.authorization.allowanceWei) :
    Ends (service.approveAllowance clients ownerAddress currentAllowanceWei) calls
      (fun _ calls' => OneApproval service input calls' ∧
        (allowanceReads calls').getLast? = some (.ok service.authorization.allowanceWei))
      (fun _ calls' => OneApproval service input calls') := by
  unfold WethAllowanceApprovalService.approveAllowance
  refine (prepareApprovalTransactionPolicy_ends ownerAddress service.authorization.allowanceWei).bind ?_ ?_
  · rintro prepared calls' ⟨added, reads, rfl, hadded, hnoReads, hpolicyReads, hpolicy⟩
    dsimp only
    have hbefore : NoSubmission (calls ++ added) := hquiet.append hadded
    rw [ends_bind, ends_answered]
    refine ⟨fun _ hassert => ?_, fun _ _ => hbefore.oneApproval⟩
    obtain ⟨hmaxFee, hminPriority, hpriority, -, hgas, haddress, hfunction, hspender, hamount⟩ :=
      assertAuthorizedApprovalSubmission_eq_ok.mp hassert
    obtain ⟨block, hblock, hbase⟩ := hpolicy.baseFee_read
    have hwithin : WithinAuthority service input (calls ++ added) (service.approvalSubmission prepared) := {
      notDryRun := hdryRun
      allowance_differed := by
        obtain ⟨first, hhead, hne⟩ := hfirst
        rw [allowanceReads, List.filterMap_append]
        exact ⟨first, List.head?_append_of_ne_nil _ (fun hnil => by rw [allowanceReads, hnil] at hhead; cases hhead)
          |>.trans hhead, hne⟩
      policy_read := ⟨ownerAddress, reads, _, _, block, _, howner, List.mem_append_right _ hpolicyReads,
        hpolicy.latestNonce_read, hpolicy.pendingNonce_read, hpolicy.nonce_free, hblock, hbase, hpolicy.maxFee_ge⟩
      token := haddress ▸ service.pinnedWeth
      function := hfunction
      spender := hspender ▸ service.pinnedConduit
      amount := hamount
      priorityFee_ge := hminPriority
      priorityFee_le := hpriority
      maxFee_le := hmaxFee
      gasFee_le := hgas }
    -- Whatever follows the transaction, the calls are those before it, the transaction, and some that are none.
    have hsent : ∀ answer after, NoSubmission after → OneApproval service input (calls ++ added ++
        [.writeContract (service.approvalSubmission prepared) answer] ++ after) := by
      intro answer after hafter
      rw [List.append_assoc _ [_]]
      exact hwithin.oneApproval hbefore hafter
    rw [ends_bind, ends_call]
    generalize clients.writeContract (calls ++ added) = submitted
    rw [ends_bind, ends_orThrow]
    refine ⟨fun transactionHash _ => ?_, fun _ _ => ?_⟩
    · rw [ends_bind, ends_call]
      generalize clients.waitForTransactionReceipt _ = received
      have hreceipt : NoSubmission [.waitForTransactionReceipt transactionHash received] := .singleton rfl
      rw [ends_bind, ends_orThrow]
      refine ⟨fun _ _ => ?_, fun _ _ => hsent submitted _ hreceipt⟩
      unfold WethAllowanceApprovalService.readConfirmedAllowance
      rw [ends_bind]
      refine (readAllowance_ends ownerAddress).bind ?_ ?_
      · rintro confirmedAllowanceWei calls' rfl
        have hread : NoSubmission [.waitForTransactionReceipt transactionHash received,
            .allowance service.wethAddress ownerAddress service.spenderAddress (.ok confirmedAllowanceWei)] :=
          hreceipt.append (.singleton rfl)
        split
        · exact List.append_assoc _ _ _ ▸ hsent submitted _ hread
        next hconfirmed =>
        refine ⟨List.append_assoc _ _ _ ▸ hsent submitted _ hread, ?_⟩
        rw [allowanceReads, List.filterMap_append]
        exact List.getLast?_append.trans (by rw [not_not.mp hconfirmed]; rfl)
      · rintro _ calls' ⟨after, rfl, hafter⟩
        exact List.append_assoc _ _ _ ▸ hsent submitted _ (hreceipt.append hafter)
    · exact List.append_nil (calls ++ added ++ _) ▸ hsent submitted [] fun _ hmem => absurd hmem List.not_mem_nil
  · rintro _ calls' ⟨added, rfl, hadded⟩
    exact (hquiet.append hadded).oneApproval

/-- **The approval stays inside its authority.**  Whatever the node and the wallet answer, a run sends at most one
transaction, and that one only when it must; and a run that reports the authorized allowance has read it last. -/
theorem approval_within_authority (service : WethAllowanceApprovalService p) (clients : ApprovalClients)
    (input : EnsureWethAllowanceInput) :
    Ends (service.ensureAllowance clients input) [] (fun result calls => OneApproval service input calls ∧
        (result.status = .exactAllowance ∨ result.status = .updated →
          (allowanceReads calls).getLast? = some (.ok service.authorization.allowanceWei)))
      (fun _ calls => OneApproval service input calls) := by
  unfold WethAllowanceApprovalService.ensureAllowance
  have hnothing : NoSubmission [] := fun _ hmem => absurd hmem List.not_mem_nil
  rw [ends_bind, ends_answered]
  refine ⟨fun ownerAddress howner => ?_, fun _ _ => hnothing.oneApproval⟩
  refine (readAllowance_ends ownerAddress).bind ?_ ?_
  · rintro currentAllowanceWei calls rfl
    have hread : NoSubmission ([] ++ [.allowance service.wethAddress ownerAddress service.spenderAddress
        (.ok currentAllowanceWei)]) := hnothing.append (.singleton rfl)
    split
    · next hsame => exact ⟨hread.oneApproval, fun _ => congrArg (fun amount => some (Except.ok amount)) hsame⟩
    next hdiffers =>
    split
    · exact ⟨hread.oneApproval, fun h => h.elim (fun h => (nomatch h)) fun h => (nomatch h)⟩
    · next hdryRun =>
      refine (approveAllowance_ends howner hdryRun hread ⟨currentAllowanceWei, rfl, hdiffers⟩).mono ?_ fun _ _ h => h
      exact fun _ _ h => ⟨h.1, fun _ => h.2⟩
  · rintro _ calls ⟨added, rfl, hadded⟩
    exact hadded.oneApproval

/-! ## 6. The service of a mandate -/

end Artgod.Trading
