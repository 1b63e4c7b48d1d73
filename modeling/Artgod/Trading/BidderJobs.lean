/-
# Jobs of the bidder

A job that the bidder schedules is a declaration with the state of its order.  The state is an object whose
properties may be missing: where the state of a job that comes again is laid over the one held
(`{...existingJob.state, ...job.state}`), a property that is missing keeps the old value, and one that is
there takes its place, also when it is undefined.
-/
import Artgod.Trading.BiddingMandate
import Artgod.Trading.TraitCriteria

namespace Artgod.Trading

open Js

/-! ## 1. Declarations -/

structure BidderConfig where
  ceiling : Int
  floor : Int
  delta : Int
  extraCompetitionTraits : List TraitSelector
  deriving DecidableEq

inductive BidderTargetType
  | token
  | collection
  | competitiveTrait
  deriving DecidableEq

def BidderTarget.type : BidderTarget → BidderTargetType
  | .token _ => .token
  | .collection _ _ => .collection
  | .competitiveTrait _ _ _ => .competitiveTrait

def TraitTarget.criterion (trait : TraitTarget) : BiddingTraitCriterion := .exactValue ⟨trait.type, trait.value⟩

/-! ## 2. State -/

/-- A property of an object: missing, or there with a value that may be undefined. -/
inductive Property (α : Type)
  | missing
  | own (value : Option α)
  deriving DecidableEq

namespace Property

variable {α : Type}

/-- What reading the property gives. -/
def get : Property α → Option α
  | missing => none
  | own value => value

/-- The property of `{...held, ...incoming}`. -/
def spread (held : Property α) : Property α → Property α
  | missing => held
  | own value => own value

end Property

/-- `TradingBiddingJobRuntimeBidPosition`. -/
inductive BidPosition
  | winning
  | draw
  | losing
  deriving DecidableEq

/-- `TradingBiddingJobRuntimeConstraint`. -/
inductive BidConstraint
  | ceiling
  | floor
  deriving DecidableEq

structure BidderState where
  lastRun : Property Int
  activeOrderId : Property String
  activeProtocolAddress : Property String
  activeOrderPlacedAt : Property String
  activeOrderVerifiedAt : Property String
  currentPrice : Property Int
  activeExpirationTimeMs : Property Rat
  bidPosition : Property BidPosition
  bidConstraints : Property (List BidConstraint)
  competitorPrice : Property Int
  deriving DecidableEq

namespace BidderState

/-- `{}`. -/
def empty : BidderState :=
  ⟨.missing, .missing, .missing, .missing, .missing, .missing, .missing, .missing, .missing, .missing⟩

/-- `{...held, ...incoming}`. -/
def spread (held incoming : BidderState) : BidderState where
  lastRun := held.lastRun.spread incoming.lastRun
  activeOrderId := held.activeOrderId.spread incoming.activeOrderId
  activeProtocolAddress := held.activeProtocolAddress.spread incoming.activeProtocolAddress
  activeOrderPlacedAt := held.activeOrderPlacedAt.spread incoming.activeOrderPlacedAt
  activeOrderVerifiedAt := held.activeOrderVerifiedAt.spread incoming.activeOrderVerifiedAt
  currentPrice := held.currentPrice.spread incoming.currentPrice
  activeExpirationTimeMs := held.activeExpirationTimeMs.spread incoming.activeExpirationTimeMs
  bidPosition := held.bidPosition.spread incoming.bidPosition
  bidConstraints := held.bidConstraints.spread incoming.bidConstraints
  competitorPrice := held.competitorPrice.spread incoming.competitorPrice

end BidderState

/-- `BidderJob`, with all its fields; the network is always `eth`. -/
structure ScheduledJob extends BidderJob where
  id : String
  revision : Int
  config : BidderConfig
  state : BidderState
  deriving DecidableEq

def hasSameTargetIdentity (engine : TraitEngine) (existingJob nextJob : ScheduledJob) : Bool :=
  if existingJob.collectionAddress ≠ nextJob.collectionAddress ∨
      existingJob.collectionSlug ≠ nextJob.collectionSlug then false
  else
    match existingJob.target, nextJob.target with
    | .token tokenId, .token tokenId' => tokenId = tokenId'
    | .collection _ traits, .collection _ traits' =>
      matchesExactTraitTargets engine (traits.map TraitTarget.criterion) (traits'.map TraitTarget.criterion)
    | .competitiveTrait _ targetTrait _, .competitiveTrait _ targetTrait' _ =>
      matchesExactTraitTargets engine [targetTrait.criterion] [targetTrait'.criterion]
    | _, _ => false

end Artgod.Trading
