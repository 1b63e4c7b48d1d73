/-
# Fees and nonces of a transaction

`EvmTransactionPolicyService` (`shared/evm/transactions.ts`) asks a node for the latest block, a fee suggestion,
the fee history and two nonces, and trusts none of the answers: `prepare_within` is what a returned policy
satisfies whatever the node says.
-/
import Artgod.Text.Decimal
import Artgod.Trading.BiddingMandate
import Mathlib.Data.Rat.Defs

namespace Artgod.Trading

open Text

/-! ## 1. Configuration -/

structure EvmTransactionFeePolicyConfig where
  minPriorityFeePerGasWei : Int
  priorityFeeHistoryBlockCount : Rat
  priorityFeeHistoryRewardPercentile : Rat
  baseFeeMultiplierBps : Int
  maxFeePerGasWei : Int

structure EvmTransactionPolicyConfig where
  fees : EvmTransactionFeePolicyConfig
  pendingNoncePolicy : String

def feeMultiplierBpsDenominator : Int := 10000
/-- `EVM_PENDING_NONCE_POLICY.Fail`. -/
def evmPendingNoncePolicyFail : String := "fail"

/-- A configuration that passes. -/
structure EvmTransactionPolicyConfig.Valid (config : EvmTransactionPolicyConfig) : Prop where
  minPriorityFee_pos : 0 < config.fees.minPriorityFeePerGasWei
  blockCount_integer : config.fees.priorityFeeHistoryBlockCount.den = 1
  blockCount_pos : 0 < config.fees.priorityFeeHistoryBlockCount
  blockCount_le : config.fees.priorityFeeHistoryBlockCount ≤ 1024
  percentile_pos : 0 < config.fees.priorityFeeHistoryRewardPercentile
  percentile_le : config.fees.priorityFeeHistoryRewardPercentile ≤ 100
  multiplier_ge : feeMultiplierBpsDenominator ≤ config.fees.baseFeeMultiplierBps
  maxFee_pos : 0 < config.fees.maxFeePerGasWei
  minPriorityFee_le : config.fees.minPriorityFeePerGasWei ≤ config.fees.maxFeePerGasWei
  pendingNonce_fails : config.pendingNoncePolicy = evmPendingNoncePolicyFail

/-- The service has checked its configuration. -/
structure EvmTransactionPolicyService where
  config : EvmTransactionPolicyConfig
  valid : config.Valid

/-! ## 2. Arithmetic and texts -/

/-- `multiplyByBpsCeil`.  The division of `bigint`s drops the fraction. -/
def multiplyByBpsCeil (value multiplierBps : Int) : Int :=
  let scaled := value * multiplierBps
  scaled.tdiv feeMultiplierBpsDenominator + if scaled.tmod feeMultiplierBpsDenominator = 0 then 0 else 1

def minBigint (left right : Int) : Int := if left < right then left else right
def maxBigint (left right : Int) : Int := if left > right then left else right

theorem minBigint_eq (left right : Int) : minBigint left right = min left right := by
  unfold minBigint
  split <;> omega

theorem maxBigint_eq (left right : Int) : maxBigint left right = max left right := by
  unfold maxBigint
  split <;> omega

/-! ## 3. Preparing a policy -/

structure EvmLatestBlock where
  number : Option Int
  baseFeePerGas : Option Int

structure EvmFeeEstimate where
  gasPrice : Option Int
  maxFeePerGas : Option Int
  maxPriorityFeePerGas : Option Int

structure EvmFeeHistory where
  reward : Option (List (List Int))

/-- What a node answers to the five reads, any of which may fail.  A node without a fee history is not asked for it. -/
structure PolicyReads where
  latestBlock : Except String EvmLatestBlock
  feeEstimate : Except String EvmFeeEstimate
  feeHistory : Option (Except String EvmFeeHistory)
  latestNonce : Except String Int
  pendingNonce : Except String Int

structure PrepareEvmTransactionPolicyInput where
  context : String
  fromAddress : String

structure EvmPreparedTransactionPolicy where
  context : String
  fromAddress : String
  blockNumber : Option Int
  baseFeePerGasWei : Int
  nodeGasPriceWei : Option Int
  nodeMaxFeePerGasWei : Option Int
  nodeMaxPriorityFeePerGasWei : Option Int
  feeHistoryPriorityFeePerGasWei : Option Int
  configuredMinPriorityFeePerGasWei : Int
  configuredPriorityFeeHistoryBlockCount : Rat
  configuredPriorityFeeHistoryRewardPercentile : Rat
  configuredBaseFeeMultiplierBps : Int
  configuredMaxFeePerGasWei : Int
  maxPriorityFeePerGasWei : Int
  uncappedMaxFeePerGasWei : Int
  maxFeePerGasWei : Int
  latestNonce : Int
  pendingNonce : Int

/-- What `prepare` throws. -/
inductive EvmPolicyError where
  | readFailed (message : String)
  | pendingNonceQueue (context fromAddress : String) (latestNonce pendingNonce : Int) (pendingNoncePolicy : String)
  | noBaseFee (context : String)
  | feeCapTooLow (context : String)
      (baseFeePerGasWei maxPriorityFeePerGasWei maxFeePerGasWei configuredMaxFeePerGasWei : Int)

def collectFeeHistoryRewardSamples (reward : Option (List (List Int))) : List Int :=
  match reward with
  | none => []
  | some reward => (reward.filterMap (·.head?)).filter (0 < ·)

def selectFeeHistoryPriorityFee : List Int → Option Int
  | [] => none
  | first :: rest => some (rest.foldl (fun max value => if value > max then value else max) first)

/-- `readFeeHistory`.  A history that cannot be read is none. -/
def readFeeHistory (reads : PolicyReads) : Option Int :=
  match reads.feeHistory with
  | some (.ok feeHistory) => selectFeeHistoryPriorityFee (collectFeeHistoryRewardSamples feeHistory.reward)
  | some (.error _) => none
  | none => none

/-- The tip that is selected. -/
def selectPriorityFee (fees : EvmTransactionFeePolicyConfig) (feeEstimate : EvmFeeEstimate)
    (feeHistoryPriorityFeePerGasWei : Option Int) : Int :=
  maxBigint (maxBigint (feeEstimate.maxPriorityFeePerGas.getD 0) (feeHistoryPriorityFeePerGasWei.getD 0))
    fees.minPriorityFeePerGasWei

/-- A read that the five are awaited for.  When several fail, the first of them to fail is thrown; here it is the
first in the order of the list. -/
def awaited {α : Type} (answer : Except String α) : Except EvmPolicyError α := answer.mapError .readFailed

def EvmTransactionPolicyService.prepare (service : EvmTransactionPolicyService)
    (input : PrepareEvmTransactionPolicyInput) (reads : PolicyReads) :
    Except EvmPolicyError EvmPreparedTransactionPolicy := do
  let latestBlock ← awaited reads.latestBlock
  let feeEstimate ← awaited reads.feeEstimate
  let latestNonce ← awaited reads.latestNonce
  let pendingNonce ← awaited reads.pendingNonce
  let fees := service.config.fees
  if pendingNonce > latestNonce then
    .error (.pendingNonceQueue input.context input.fromAddress latestNonce pendingNonce
      service.config.pendingNoncePolicy)
  else
    match latestBlock.baseFeePerGas with
    | none => .error (.noBaseFee input.context)
    | some baseFeePerGasWei =>
      let feeHistoryPriorityFeePerGasWei := readFeeHistory reads
      let maxPriorityFeePerGasWei := selectPriorityFee fees feeEstimate feeHistoryPriorityFeePerGasWei
      let baseFeeWithHeadroomWei := multiplyByBpsCeil baseFeePerGasWei fees.baseFeeMultiplierBps
      let uncappedMaxFeePerGasWei := baseFeeWithHeadroomWei + maxPriorityFeePerGasWei
      let maxFeePerGasWei := minBigint uncappedMaxFeePerGasWei fees.maxFeePerGasWei
      if maxFeePerGasWei < baseFeePerGasWei + maxPriorityFeePerGasWei then
        .error (.feeCapTooLow input.context baseFeePerGasWei maxPriorityFeePerGasWei maxFeePerGasWei
          fees.maxFeePerGasWei)
      else
        .ok {
          context := input.context
          fromAddress := input.fromAddress
          blockNumber := latestBlock.number
          baseFeePerGasWei
          nodeGasPriceWei := feeEstimate.gasPrice
          nodeMaxFeePerGasWei := feeEstimate.maxFeePerGas
          nodeMaxPriorityFeePerGasWei := feeEstimate.maxPriorityFeePerGas
          feeHistoryPriorityFeePerGasWei
          configuredMinPriorityFeePerGasWei := fees.minPriorityFeePerGasWei
          configuredPriorityFeeHistoryBlockCount := fees.priorityFeeHistoryBlockCount
          configuredPriorityFeeHistoryRewardPercentile := fees.priorityFeeHistoryRewardPercentile
          configuredBaseFeeMultiplierBps := fees.baseFeeMultiplierBps
          configuredMaxFeePerGasWei := fees.maxFeePerGasWei
          maxPriorityFeePerGasWei
          uncappedMaxFeePerGasWei
          maxFeePerGasWei
          latestNonce
          pendingNonce }

/-- **What the configuration and the node promise of a prepared policy.** -/
structure EvmPreparedTransactionPolicy.Within (prepared : EvmPreparedTransactionPolicy)
    (fees : EvmTransactionFeePolicyConfig) (reads : PolicyReads) : Prop where
  /-- The base fee is the one of the latest block. -/
  baseFee_read : ∃ block, reads.latestBlock = .ok block ∧ block.baseFeePerGas = some prepared.baseFeePerGasWei
  latestNonce_read : reads.latestNonce = .ok prepared.latestNonce
  pendingNonce_read : reads.pendingNonce = .ok prepared.pendingNonce
  nonce_free : prepared.pendingNonce ≤ prepared.latestNonce
  priorityFee_ge : fees.minPriorityFeePerGasWei ≤ prepared.maxPriorityFeePerGasWei
  maxFee_le : prepared.maxFeePerGasWei ≤ fees.maxFeePerGasWei
  maxFee_ge : prepared.baseFeePerGasWei + prepared.maxPriorityFeePerGasWei ≤ prepared.maxFeePerGasWei

variable {service : EvmTransactionPolicyService} {input : PrepareEvmTransactionPolicyInput} {reads : PolicyReads}
  {prepared : EvmPreparedTransactionPolicy}

theorem awaited_eq_ok {α : Type} {answer : Except String α} {a : α} : awaited answer = .ok a ↔ answer = .ok a := by
  cases answer with
  | ok _ => exact ⟨fun h => congrArg Except.ok (Except.ok.inj h), fun h => congrArg Except.ok (Except.ok.inj h)⟩
  | error _ => exact ⟨fun h => (nomatch h), fun h => (nomatch h)⟩

theorem minPriorityFee_le_selectPriorityFee (fees : EvmTransactionFeePolicyConfig) (feeEstimate : EvmFeeEstimate)
    (history : Option Int) : fees.minPriorityFeePerGasWei ≤ selectPriorityFee fees feeEstimate history := by
  unfold selectPriorityFee
  rw [maxBigint_eq]
  exact le_max_right _ _

theorem prepare_ok (h : service.prepare input reads = .ok prepared) :
    ∃ block estimate, reads.latestBlock = .ok block ∧ reads.feeEstimate = .ok estimate ∧
      reads.latestNonce = .ok prepared.latestNonce ∧ reads.pendingNonce = .ok prepared.pendingNonce ∧
      prepared.pendingNonce ≤ prepared.latestNonce ∧ block.baseFeePerGas = some prepared.baseFeePerGasWei ∧
      prepared.maxPriorityFeePerGasWei = selectPriorityFee service.config.fees estimate (readFeeHistory reads) ∧
      prepared.maxFeePerGasWei = min (multiplyByBpsCeil prepared.baseFeePerGasWei
        service.config.fees.baseFeeMultiplierBps + prepared.maxPriorityFeePerGasWei)
        service.config.fees.maxFeePerGasWei ∧
      prepared.baseFeePerGasWei + prepared.maxPriorityFeePerGasWei ≤ prepared.maxFeePerGasWei := by
  unfold EvmTransactionPolicyService.prepare at h
  obtain ⟨block, hblock, h⟩ := bind_eq_ok.mp h
  obtain ⟨estimate, hestimate, h⟩ := bind_eq_ok.mp h
  obtain ⟨latest, hlatest, h⟩ := bind_eq_ok.mp h
  obtain ⟨pending, hpending, h⟩ := bind_eq_ok.mp h
  dsimp only at h
  obtain ⟨hnonce, h⟩ := ite_error_eq_ok.mp h
  split at h
  · cases h
  next baseFee hbase =>
  obtain ⟨hcap, h⟩ := ite_error_eq_ok.mp h
  cases h
  exact ⟨block, estimate, awaited_eq_ok.mp hblock, awaited_eq_ok.mp hestimate, awaited_eq_ok.mp hlatest,
    awaited_eq_ok.mp hpending, not_lt.mp hnonce, hbase, rfl, minBigint_eq _ _, not_lt.mp hcap⟩

theorem prepare_within (h : service.prepare input reads = .ok prepared) :
    prepared.Within service.config.fees reads := by
  obtain ⟨block, estimate, hblock, -, hlatest, hpending, hnonce, hbase, hpriority, hmax, hcap⟩ := prepare_ok h
  refine ⟨⟨block, hblock, hbase⟩, hlatest, hpending, hnonce, ?_, ?_, hcap⟩
  · rw [hpriority]
    exact minPriorityFee_le_selectPriorityFee _ _ _
  · rw [hmax]
    exact min_le_right _ _

end Artgod.Trading
