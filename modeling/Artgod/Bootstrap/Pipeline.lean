/-
# The bootstrap pipeline

The vocabulary of the durable steps of a bootstrap run (`shared/bootstrap/pipeline.ts`), the dependency rule,
the reconciler (`application/bootstrap-step-reconciler.ts`) and the planner of the graph of a new run
(`bootstrap-pipeline-planner.ts`).  `depends_on_json` is the list of step keys it is read as.
-/
import Mathlib.Data.List.Basic

namespace Artgod.Bootstrap

/-! ## 1. Keys and statuses -/

inductive BootstrapStepKey where
  | anchor
  | enumeration
  | metadata
  | ownership
  | backfill
  | collectionLive
  | imageCache
  | deploymentBlock
  | openSeaIdentity
  | openSeaSnapshot
  | openSeaReady
  | collectionExtensionArtifacts
deriving DecidableEq

inductive BootstrapStepStatus where
  | pending
  | ready
  | running
  | paused
  | succeeded
  | failedRetry
  | failedTerminal
  | skipped
deriving DecidableEq

inductive BootstrapRunStatus where
  | requested
  | queued
  | metadata
  | imageCache
  | ownership
  | backfill
  | completed
  | failed
deriving DecidableEq

variable (stepKey : BootstrapStepKey)

/-- `isBootstrapStepPausable`: the steps of `BOOTSTRAP_PAUSABLE_STEP_KEYS`. -/
def isBootstrapStepPausable : Bool :=
  stepKey ∈ [.metadata, .ownership, .imageCache, .deploymentBlock]

variable (status : BootstrapStepStatus)

def canPauseBootstrapStepStatus : Bool :=
  status = .ready || status = .running || status = .failedRetry

def isBootstrapStepTerminalStatus : Bool :=
  status = .succeeded || status = .failedTerminal || status = .skipped

def isBootstrapStepDependencySatisfied : Bool :=
  status = .succeeded || status = .skipped

/-- `OPENSEA_BOOTSTRAP_STEP_SEQUENCE`: the phases that one OpenSea worker executes. -/
def openSeaBootstrapStepSequence : List BootstrapStepKey :=
  [.openSeaIdentity, .openSeaSnapshot, .openSeaReady]

def isOpenSeaBootstrapStepKey : Bool :=
  stepKey ∈ openSeaBootstrapStepSequence

/-! ## 2. Dependencies -/

/-- The fields of a step that the reconciler reads. -/
structure BootstrapReconcilerStep where
  stepKey : BootstrapStepKey
  status : BootstrapStepStatus
  dependsOn : List BootstrapStepKey

/-- `statusByStep.get(stepKey)` of the map built from the records: the last record of a key wins. -/
def statusByStep (records : List BootstrapReconcilerStep) (stepKey : BootstrapStepKey) :
    Option BootstrapStepStatus :=
  (records.reverse.find? (fun record => record.stepKey = stepKey)).map (·.status)

def areBootstrapStepDependenciesSatisfied (dependsOn : List BootstrapStepKey)
    (records : List BootstrapReconcilerStep) : Bool :=
  if dependsOn.length = 0 then true
  else
    dependsOn.all (fun stepKey =>
      match statusByStep records stepKey with
      | some status => isBootstrapStepDependencySatisfied status
      | none => false)

/-- `resolveReadyBootstrapSteps`: the pending steps whose dependencies the snapshot satisfies. -/
def resolveReadyBootstrapSteps (steps : List BootstrapReconcilerStep) : List BootstrapStepKey :=
  (steps.filter (fun step =>
    step.status = .pending && areBootstrapStepDependenciesSatisfied step.dependsOn steps)).map (·.stepKey)

theorem areBootstrapStepDependenciesSatisfied_iff {dependsOn : List BootstrapStepKey}
    {records : List BootstrapReconcilerStep} :
    areBootstrapStepDependenciesSatisfied dependsOn records = true ↔
      ∀ key ∈ dependsOn, ∃ status, statusByStep records key = some status ∧
        isBootstrapStepDependencySatisfied status = true := by
  unfold areBootstrapStepDependenciesSatisfied
  split
  · next h =>
    rw [List.length_eq_zero_iff] at h
    simp [h]
  rw [List.all_eq_true]
  refine forall₂_congr (fun key _ => ?_)
  cases statusByStep records key with
  | none => simp
  | some status => simp

/-! ## 3. The planned graph -/

structure BootstrapRunStepPlan where
  stepKey : BootstrapStepKey
  status : BootstrapStepStatus
  blocking : Bool
  dependsOn : List BootstrapStepKey

/-- `BootstrapPipelinePlanInput`, by the decisions it stands for: the image cache policy is active,
an extension was requested, the OpenSea integration is enabled and has a slug. -/
structure BootstrapPipelinePlanInput where
  imageCacheActive : Bool
  requestExtension : Bool
  openSea : Bool

def blockingStep (status : BootstrapStepStatus)
    (dependsOn : List BootstrapStepKey) : BootstrapRunStepPlan :=
  ⟨stepKey, status, true, dependsOn⟩

def sideLaneStep (status : BootstrapStepStatus)
    (dependsOn : List BootstrapStepKey) : BootstrapRunStepPlan :=
  ⟨stepKey, status, false, dependsOn⟩

def planBootstrapRunSteps (input : BootstrapPipelinePlanInput) : List BootstrapRunStepPlan :=
  [ blockingStep .anchor .ready [], blockingStep .enumeration .pending [.anchor],
    blockingStep .metadata .pending [.enumeration],
    blockingStep .ownership .pending [.metadata],
    blockingStep .backfill .pending [.ownership],
    blockingStep .collectionLive .pending [.backfill],
    sideLaneStep .deploymentBlock .ready [] ] ++
  (if input.imageCacheActive then [sideLaneStep .imageCache .pending [.metadata]] else []) ++
  (if input.requestExtension then
    [sideLaneStep .collectionExtensionArtifacts .pending [.metadata]] else []) ++
  (if input.openSea then
    [ sideLaneStep .openSeaIdentity .pending [.metadata, .ownership],
      sideLaneStep .openSeaSnapshot .pending [.openSeaIdentity],
      sideLaneStep .openSeaReady .pending [.openSeaSnapshot] ] else [])

/-- A step graph as a run is created with: one step for a key, each of them pending, or ready and
then without dependencies.  The dependencies are arbitrary. -/
structure BootstrapStepGraph where
  steps : List BootstrapRunStepPlan
  keyed : (steps.map (·.stepKey)).Nodup
  fresh : ∀ step ∈ steps, step.status = .pending ∨ (step.status = .ready ∧ step.dependsOn = [])

/-- **Every plan is such a graph.** -/
def plannedGraph (input : BootstrapPipelinePlanInput) : BootstrapStepGraph where
  steps := planBootstrapRunSteps input
  keyed := by
    obtain ⟨image, extension, openSea⟩ := input
    cases image <;> cases extension <;> cases openSea <;> decide
  fresh := by
    obtain ⟨image, extension, openSea⟩ := input
    cases image <;> cases extension <;> cases openSea <;> decide

end Artgod.Bootstrap
