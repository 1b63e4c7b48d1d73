/-
# Offers that compete for a collection job

The bidder scans the shared snapshot of the collection in one pass or, without one, the offers it fetches in
two.  The two passes ask about the item later, so that they read the criteria of offers for an item, and they
meet the collection-wide offers first, so that they keep another offer where one hash comes with two prices.
Short of that they find the same (`scans_agree_iff`).
-/
import Artgod.Store.FirstByKey
import Artgod.Trading.OpenSeaOffers

namespace Artgod.Trading

open Js Store

/-! ## 1. Matching -/

section Scans

variable (engine : OfferEngine)

/-- `dedupeBiddingTraitCriteria` of the targets of a job. -/
def dedupeTraitTargets (traits : List TraitTarget) : List TraitTarget :=
  (dedupeBiddingTraitCriteria engine.toTraitEngine (traits.map TraitTarget.criterion)).filterMap fun criterion =>
    criterion.value.map fun value => ⟨criterion.type, value⟩

/-- Broader trait offers compete for every NFT in the job's target. -/
def matchesTraitCompetition (criteria : List BiddingTraitCriterion) (target : List TraitTarget)
    (extras : List TraitSelector) : Bool :=
  match criteria with
  | [] => false
  | first :: _ =>
    if target = [] then false
    else if biddingTraitsMatchToken engine criteria target then true
    else
      -- repeated copies of one criterion do not turn a single-trait offer into a multi-trait offer
      criteria.all (fun trait => biddingTraitCriteriaKey engine.toTraitEngine [trait] =
        biddingTraitCriteriaKey engine.toTraitEngine [first]) &&
      extras.any fun selector =>
        selector.type = first.type &&
          match selector.value with
          | none => true
          | some value => biddingTraitValueMatches engine first value

/-! ## 2. The scans -/

section Job

variable (job : ScheduledJob) (targetTraits : List TraitTarget)

variable (rawOffer : Value)

/-- The offer is for an item of the job's collection. -/
def isExplicitItemOffer : Bool :=
  inferOpenSeaNftSelectionKind engine rawOffer (some job.collectionAddress) = .item

/-- The part of the pass over a snapshot for an offer that is not for the whole collection. -/
def readCompetingOffer : Except String (Option Order) :=
  if targetTraits = [] then .ok none
  else do
    let criteriaTraits ← readOfferCriteria engine rawOffer
    if matchesTraitCompetition engine criteriaTraits targetTraits job.config.extraCompetitionTraits then
      parseRawOffer engine rawOffer job.collectionAddress .traitOffers
    else return none

/-- What the one pass over a snapshot takes of an offer. -/
def readSnapshotOffer : Except String (Option Order) :=
  if isExplicitItemOffer engine job rawOffer then .ok none
  else do
    if ← isOpenSeaCollectionWideOffer engine rawOffer then
      parseRawOffer engine rawOffer job.collectionAddress .collectionOffers
    else readCompetingOffer engine job targetTraits rawOffer

/-- What the first pass over fetched offers takes. -/
def readCollectionWideOffer : Except String (Option Order) := do
  if ← isOpenSeaCollectionWideOffer engine rawOffer then
    parseRawOffer engine rawOffer job.collectionAddress .collectionOffers
  else return none

/-- What the second pass over fetched offers takes. -/
def readTraitOffer : Except String (Option Order) := do
  let criteriaTraits ← readOfferCriteria engine rawOffer
  if isExplicitItemOffer engine job rawOffer ||
      !matchesTraitCompetition engine criteriaTraits targetTraits job.config.extraCompetitionTraits then
    return none
  else parseRawOffer engine rawOffer job.collectionAddress .traitOffers

def collectCachedCollectionSnapshotOffers (snapshotOffers : List Value) : Except String (List Order) :=
  snapshotOffers.foldlM (keepRead Order.id (readSnapshotOffer engine job targetTraits)) []

/-- The two passes of `getLiveCollectionTargetOffers`. -/
def collectLiveCollectionOffers (rawOffers : List Value) : Except String (List Order) := do
  let offers ← rawOffers.foldlM (keepRead Order.id (readCollectionWideOffer engine job)) []
  if targetTraits = [] then return offers
  else rawOffers.foldlM (keepRead Order.id (readTraitOffer engine job targetTraits)) offers

end Job

/-- `getCachedCollectionSnapshotOffers`, of a snapshot that is there; null for a job that is for no collection. -/
def getCachedCollectionSnapshotOffers (job : ScheduledJob) (snapshotOffers : List Value) :
    Except String (Option (List Order)) :=
  match job.target with
  | .collection _ traits => do
    let offers ← collectCachedCollectionSnapshotOffers engine job (dedupeTraitTargets engine traits) snapshotOffers
    return some offers
  | _ => .ok none

def getLiveCollectionTargetOffers (job : ScheduledJob) (rawOffers : List Value) : Except String (List Order) :=
  match job.target with
  | .collection _ traits => collectLiveCollectionOffers engine job (dedupeTraitTargets engine traits) rawOffers
  | _ => .ok []

/-! ## 3. Offers that can be read -/

/-- The trait criteria of the offer can be read. -/
def Readable (rawOffer : Value) : Prop := ∃ traits, readOfferCriteria engine rawOffer = .ok traits

variable {engine}

theorem parseRawOffer_source (rawOffer : Value) (collectionAddress : String) (source source' : OfferDiscoverySource) :
    parseRawOffer engine rawOffer collectionAddress source =
      (parseRawOffer engine rawOffer collectionAddress source').map
        (Option.map fun order => { order with discoverySource := source }) := by
  unfold parseRawOffer
  split
  · rfl
  split
  · cases inferOpenSeaOfferScope engine rawOffer with
    | error error => rfl
    | ok scope =>
      cases getOpenSeaOfferCriteria engine rawOffer with
      | error error => rfl
      | ok criteria =>
        show (offerTraitCriteria engine criteria >>= _) = Except.map _ (offerTraitCriteria engine criteria >>= _)
        cases offerTraitCriteria engine criteria with
        | error error => rfl
        | ok traits => rfl
  · rfl

theorem inferOpenSeaOfferScope_ok {rawOffer : Value} (h : Readable engine rawOffer) :
    ∃ scope, inferOpenSeaOfferScope engine rawOffer = .ok scope := by
  obtain ⟨traits, htraits⟩ := h
  unfold readOfferCriteria at htraits
  unfold inferOpenSeaOfferScope
  cases hcriteria : getOpenSeaOfferCriteria engine rawOffer with
  | error error =>
    rw [hcriteria] at htraits
    cases htraits
  | ok criteria =>
    rw [hcriteria] at htraits
    split
    · exact ⟨_, rfl⟩
    cases criteria with
    | none => exact ⟨_, rfl⟩
    | some criteria =>
      have hread : normalizeOpenSeaOfferTraitCriteria engine criteria = .ok traits := htraits
      show ∃ scope, (normalizeOpenSeaOfferTraitCriteria engine criteria >>= _) = .ok scope
      rw [hread]
      exact ⟨_, rfl⟩

theorem parseRawOffer_ok {rawOffer : Value} (h : Readable engine rawOffer) (collectionAddress : String)
    (source : OfferDiscoverySource) : ∃ order, parseRawOffer engine rawOffer collectionAddress source = .ok order := by
  obtain ⟨scope, hscope⟩ := inferOpenSeaOfferScope_ok h
  obtain ⟨traits, htraits⟩ := h
  unfold readOfferCriteria at htraits
  unfold parseRawOffer
  split
  · exact ⟨_, rfl⟩
  split
  · rw [hscope]
    cases hcriteria : getOpenSeaOfferCriteria engine rawOffer with
    | error error =>
      rw [hcriteria] at htraits
      cases htraits
    | ok criteria =>
      rw [hcriteria] at htraits
      have hread : offerTraitCriteria engine criteria = .ok traits := htraits
      show ∃ order, (offerTraitCriteria engine criteria >>= _) = .ok order
      rw [hread]
      exact ⟨_, rfl⟩
  · exact ⟨_, rfl⟩

theorem isOpenSeaCollectionWideOffer_cases (rawOffer : Value) :
    (inferOpenSeaNftSelectionKind engine rawOffer none = .item ∧
      isOpenSeaCollectionWideOffer engine rawOffer = .ok false) ∨
    (inferOpenSeaNftSelectionKind engine rawOffer none ≠ .item ∧
      ((∃ error, readOfferCriteria engine rawOffer = .error error ∧
        isOpenSeaCollectionWideOffer engine rawOffer = .error error) ∨
      ∃ traits wide, readOfferCriteria engine rawOffer = .ok traits ∧
        isOpenSeaCollectionWideOffer engine rawOffer = .ok wide ∧ (wide = true → traits = []))) := by
  unfold isOpenSeaCollectionWideOffer readOfferCriteria
  split
  · next hitem => exact .inl ⟨hitem, rfl⟩
  next hitem =>
  refine .inr ⟨hitem, ?_⟩
  cases getOpenSeaOfferCriteria engine rawOffer with
  | error error => exact .inl ⟨error, rfl, rfl⟩
  | ok criteria =>
    show (∃ error, offerTraitCriteria engine criteria = .error error ∧
        (offerTraitCriteria engine criteria >>= _) = .error error) ∨
      ∃ traits wide, offerTraitCriteria engine criteria = .ok traits ∧
        (offerTraitCriteria engine criteria >>= _) = .ok wide ∧ (wide = true → traits = [])
    cases offerTraitCriteria engine criteria with
    | error error => exact .inl ⟨error, rfl, rfl⟩
    | ok traits =>
      refine .inr ⟨traits, _, rfl, rfl, fun hwide => ?_⟩
      rw [Bool.and_eq_true, decide_eq_true_iff] at hwide
      exact hwide.1

/-! ## 4. One pass and two passes -/

variable (engine)

/-- The offer counts as one for the whole collection. -/
def isCollectionWide (rawOffer : Value) : Bool :=
  match isOpenSeaCollectionWideOffer engine rawOffer with
  | .ok wide => wide
  | .error _ => false

/-- The live passes read the trait criteria of the offer. -/
def needsCriteria (targetTraits : List TraitTarget) (rawOffer : Value) : Bool :=
  inferOpenSeaNftSelectionKind engine rawOffer none ≠ .item || targetTraits ≠ []

/-- What an offer is compared by. -/
def Order.identity (order : Order) : String × String × Int := (order.id, order.maker, order.price)

section Job

variable (job : ScheduledJob) (targetTraits : List TraitTarget)

/-- The criteria of the offer compete for the target. -/
def competesForTarget (rawOffer : Value) : Bool :=
  match readOfferCriteria engine rawOffer with
  | .ok traits => matchesTraitCompetition engine traits targetTraits job.config.extraCompetitionTraits
  | .error _ => false

/-- The offer as an order, if it names what an order needs. -/
def parsedOffer (rawOffer : Value) : Option Order :=
  readValue (parseRawOffer engine rawOffer job.collectionAddress .collectionOffers)

/-- The offers for the whole collection, in order. -/
def collectionWideOffers (rawOffers : List Value) : List Order :=
  rawOffers.filterMap fun raw => if isCollectionWide engine raw then parsedOffer engine job raw else none

/-- The offers, in order, that are for no item of the job's collection, and for the whole collection or with
criteria that compete. -/
def eligibleOffers (rawOffers : List Value) : List Order :=
  rawOffers.filterMap fun raw =>
    if !isExplicitItemOffer engine job raw &&
        (isCollectionWide engine raw || competesForTarget engine job targetTraits raw) then parsedOffer engine job raw
    else none

/-- **When one pass and two passes find the same.**  Either both throw, at an offer that is for no item of the
collection and has criteria that cannot be read; or all the criteria that the two passes read can be read, and
the first eligible offer with the hash of a collection-wide one has the maker and the price of the first
collection-wide one. -/
def ScannedAlike (rawOffers : List Value) : Prop :=
  (∃ raw ∈ rawOffers, isExplicitItemOffer engine job raw = false ∧ needsCriteria engine targetTraits raw ∧
    ¬ Readable engine raw) ∨
  ((∀ raw ∈ rawOffers, needsCriteria engine targetTraits raw → Readable engine raw) ∧
    ∀ hash order, (collectionWideOffers engine job rawOffers).find? (·.id = hash) = some order →
      ((eligibleOffers engine job targetTraits rawOffers).find? (·.id = hash)).map Order.identity =
        some order.identity)

end Job

variable {engine} {job : ScheduledJob} {targetTraits : List TraitTarget}

theorem parsed_traitOffer (raw : Value) :
    (readValue (parseRawOffer engine raw job.collectionAddress .traitOffers)).map Order.identity =
      (parsedOffer engine job raw).map Order.identity := by
  unfold parsedOffer
  rw [parseRawOffer_source raw job.collectionAddress .traitOffers .collectionOffers]
  cases parseRawOffer engine raw job.collectionAddress .collectionOffers with
  | error error => rfl
  | ok order =>
    cases order with
    | none => rfl
    | some order => rfl

theorem competes_of_wide {raw : Value} (h : isCollectionWide engine raw = true) :
    competesForTarget engine job targetTraits raw = false := by
  unfold isCollectionWide at h
  unfold competesForTarget
  rcases @isOpenSeaCollectionWideOffer_cases engine raw with
    ⟨-, hwide⟩ | ⟨-, ⟨error, -, hwide⟩ | ⟨traits, wide, hread, hwide, hnone⟩⟩
  · rw [hwide] at h
    cases h
  · rw [hwide] at h
    cases h
  · rw [hwide] at h
    rw [hread, hnone h]
    rfl

theorem isOpenSeaCollectionWideOffer_ok_iff {raw : Value} :
    (∃ wide, isOpenSeaCollectionWideOffer engine raw = .ok wide) ↔
      inferOpenSeaNftSelectionKind engine raw none = .item ∨ Readable engine raw := by
  rcases @isOpenSeaCollectionWideOffer_cases engine raw with
    ⟨hitem, hwide⟩ | ⟨hitem, ⟨error, hread, hwide⟩ | ⟨traits, wide, hread, hwide, -⟩⟩
  · exact ⟨fun _ => .inl hitem, fun _ => ⟨false, hwide⟩⟩
  · constructor
    · rintro ⟨wide, h⟩
      rw [hwide] at h
      cases h
    rintro (h | ⟨traits, h⟩)
    · exact absurd h hitem
    · rw [hread] at h
      cases h
  · exact ⟨fun _ => .inr ⟨traits, hread⟩, fun _ => ⟨wide, hwide⟩⟩

theorem readable_of_wide {raw : Value} (h : isOpenSeaCollectionWideOffer engine raw = .ok true) :
    Readable engine raw := by
  rcases @isOpenSeaCollectionWideOffer_cases engine raw with
    ⟨-, hwide⟩ | ⟨-, ⟨error, -, hwide⟩ | ⟨traits, wide, hread, -, -⟩⟩
  · rw [hwide] at h
    cases h
  · rw [hwide] at h
    cases h
  · exact ⟨traits, hread⟩

theorem readCollectionWideOffer_spec (raw : Value) :
    ((∃ value, readCollectionWideOffer engine job raw = .ok value) ↔
      inferOpenSeaNftSelectionKind engine raw none = .item ∨ Readable engine raw) ∧
    (readValue (readCollectionWideOffer engine job raw)).map Order.identity =
      (if isCollectionWide engine raw then parsedOffer engine job raw else none).map Order.identity := by
  rw [← isOpenSeaCollectionWideOffer_ok_iff]
  unfold readCollectionWideOffer isCollectionWide parsedOffer
  cases hwide : isOpenSeaCollectionWideOffer engine raw with
  | error error => exact ⟨⟨(fun ⟨_, h⟩ => nomatch h), (fun ⟨_, h⟩ => nomatch h)⟩, rfl⟩
  | ok wide =>
    cases wide with
    | false => exact ⟨⟨fun _ => ⟨false, rfl⟩, fun _ => ⟨none, rfl⟩⟩, rfl⟩
    | true => exact ⟨⟨fun _ => ⟨true, rfl⟩, fun _ => parseRawOffer_ok (readable_of_wide hwide) _ _⟩, rfl⟩

theorem readTraitOffer_spec (raw : Value) :
    ((∃ value, readTraitOffer engine job targetTraits raw = .ok value) ↔ Readable engine raw) ∧
    (readValue (readTraitOffer engine job targetTraits raw)).map Order.identity =
      (if !isExplicitItemOffer engine job raw && competesForTarget engine job targetTraits raw then
        parsedOffer engine job raw else none).map Order.identity := by
  unfold readTraitOffer competesForTarget
  cases hread : readOfferCriteria engine raw with
  | error error =>
    refine ⟨⟨(fun ⟨_, h⟩ => nomatch h), fun ⟨traits, h⟩ => ?_⟩, ?_⟩
    · rw [hread] at h
      cases h
    · rw [Bool.and_false]
      rfl
  | ok traits =>
    have hreadable : Readable engine raw := ⟨traits, hread⟩
    obtain ⟨matched, hmatch⟩ : ∃ matched,
        matchesTraitCompetition engine traits targetTraits job.config.extraCompetitionTraits = matched := ⟨_, rfl⟩
    simp only [bind_ok, hmatch]
    cases isExplicitItemOffer engine job raw with
    | true => exact ⟨⟨fun _ => hreadable, fun _ => ⟨none, rfl⟩⟩, rfl⟩
    | false =>
      cases matched with
      | false => exact ⟨⟨fun _ => hreadable, fun _ => ⟨none, rfl⟩⟩, rfl⟩
      | true => exact ⟨⟨fun _ => hreadable, fun _ => parseRawOffer_ok hreadable _ _⟩, parsed_traitOffer raw⟩

theorem matchesTraitCompetition_nil (criteria : List BiddingTraitCriterion) (extras : List TraitSelector) :
    matchesTraitCompetition engine criteria [] extras = false := by
  unfold matchesTraitCompetition
  cases criteria with
  | nil => rfl
  | cons first rest => rfl

theorem readCompetingOffer_spec (raw : Value) :
    ((∃ value, readCompetingOffer engine job targetTraits raw = .ok value) ↔
      (targetTraits ≠ [] → Readable engine raw)) ∧
    (readValue (readCompetingOffer engine job targetTraits raw)).map Order.identity =
      (if competesForTarget engine job targetTraits raw then parsedOffer engine job raw else none).map
        Order.identity := by
  unfold readCompetingOffer competesForTarget
  by_cases htarget : targetTraits = []
  · subst htarget
    refine ⟨⟨fun _ h => absurd rfl h, fun _ => ⟨none, rfl⟩⟩, ?_⟩
    cases readOfferCriteria engine raw with
    | error error => rfl
    | ok traits =>
      simp only [matchesTraitCompetition_nil]
      rfl
  · rw [if_neg htarget]
    cases hread : readOfferCriteria engine raw with
    | error error =>
      refine ⟨⟨(fun ⟨_, h⟩ => nomatch h), fun h => ?_⟩, rfl⟩
      obtain ⟨traits, h⟩ := h htarget
      rw [hread] at h
      cases h
    | ok traits =>
      have hreadable : Readable engine raw := ⟨traits, hread⟩
      obtain ⟨matched, hmatch⟩ : ∃ matched,
          matchesTraitCompetition engine traits targetTraits job.config.extraCompetitionTraits = matched := ⟨_, rfl⟩
      simp only [bind_ok, hmatch]
      cases matched with
      | false => exact ⟨⟨fun _ _ => hreadable, fun _ => ⟨none, rfl⟩⟩, rfl⟩
      | true => exact ⟨⟨fun _ _ => hreadable, fun _ => parseRawOffer_ok hreadable _ _⟩, parsed_traitOffer raw⟩

theorem readSnapshotOffer_spec (raw : Value) :
    ((∃ value, readSnapshotOffer engine job targetTraits raw = .ok value) ↔
      isExplicitItemOffer engine job raw = true ∨
        (needsCriteria engine targetTraits raw = true → Readable engine raw)) ∧
    (readValue (readSnapshotOffer engine job targetTraits raw)).map Order.identity =
      (if !isExplicitItemOffer engine job raw &&
          (isCollectionWide engine raw || competesForTarget engine job targetTraits raw) then
        parsedOffer engine job raw else none).map Order.identity := by
  obtain ⟨hrest, hvalue⟩ := @readCompetingOffer_spec engine job targetTraits raw
  unfold readSnapshotOffer
  cases isExplicitItemOffer engine job raw with
  | true => exact ⟨⟨fun _ => .inl rfl, fun _ => ⟨none, rfl⟩⟩, rfl⟩
  | false =>
    unfold isCollectionWide needsCriteria
    rcases @isOpenSeaCollectionWideOffer_cases engine raw with
      ⟨hkind, hwide⟩ | ⟨hkind, ⟨error, hread, hwide⟩ | ⟨traits, wide, hread, hwide, -⟩⟩
    · rw [hwide]
      refine ⟨hrest.trans ?_, hvalue⟩
      simp [hkind]
    · rw [hwide]
      refine ⟨⟨(fun ⟨_, h⟩ => nomatch h), fun h => ?_⟩, ?_⟩
      · obtain ⟨traits, htraits⟩ := h.resolve_left Bool.false_ne_true (by simp [hkind])
        rw [hread] at htraits
        cases htraits
      · unfold competesForTarget
        rw [hread]
        rfl
    · have hreadable : Readable engine raw := ⟨traits, hread⟩
      rw [hwide]
      cases wide with
      | false =>
        refine ⟨⟨fun _ => .inr fun _ => hreadable, fun _ => hrest.mpr fun _ => hreadable⟩, hvalue⟩
      | true =>
        exact ⟨⟨fun _ => .inr fun _ => hreadable, fun _ => parseRawOffer_ok hreadable _ _⟩, rfl⟩

/-! ## 5. The scans agree -/

/-- The scans have the same result: offers with the same hashes, makers and unit prices, or none. -/
def SameOffers : Except String (List Order) → Except String (List Order) → Prop
  | .ok offers, .ok offers' => (offers.map Order.identity).Perm (offers'.map Order.identity)
  | .error _, .error _ => True
  | _, _ => False

theorem error_of_not_ok {ε α : Type} {x : Except ε α} (h : ¬ ∃ value, x = .ok value) : ∃ error, x = .error error := by
  cases x with
  | error error => exact ⟨error, rfl⟩
  | ok value => exact absurd ⟨value, rfl⟩ h

variable {rawOffers : List Value}

theorem collectLiveCollectionOffers_ok
    (h : ∀ raw ∈ rawOffers, needsCriteria engine targetTraits raw = true → Readable engine raw) :
    ∃ offers, collectLiveCollectionOffers engine job targetTraits rawOffers = .ok offers ∧
      (offers.map Order.id).Nodup ∧ ∀ hash, offers.find? (·.id = hash) =
        ((rawOffers.filterMap fun raw => readValue (readCollectionWideOffer engine job raw)).find?
          (·.id = hash)).or
        (if targetTraits = [] then none
          else (rawOffers.filterMap fun raw => readValue (readTraitOffer engine job targetTraits raw)).find?
            (·.id = hash)) := by
  have hwide : ∀ raw ∈ rawOffers, ∃ value, readCollectionWideOffer engine job raw = .ok value := by
    intro raw hraw
    refine (readCollectionWideOffer_spec raw).1.mpr ?_
    by_cases hkind : inferOpenSeaNftSelectionKind engine raw none = .item
    · exact .inl hkind
    · exact .inr (h raw hraw (by simp [needsCriteria, hkind]))
  unfold collectLiveCollectionOffers
  rw [collect_ok hwide, bind_ok]
  by_cases htarget : targetTraits = []
  · rw [if_pos htarget]
    refine ⟨_, rfl, nodup_firsts _, fun hash => ?_⟩
    rw [find?_foldl_keepFirst, List.find?_nil, Option.none_or, if_pos htarget, Option.or_none]
  have htrait : ∀ raw ∈ rawOffers, ∃ value, readTraitOffer engine job targetTraits raw = .ok value := by
    intro raw hraw
    exact (readTraitOffer_spec raw).1.mpr (h raw hraw (by simp [needsCriteria, htarget]))
  rw [if_neg htarget, collect_ok htrait]
  refine ⟨_, rfl, nodup_foldl_keepFirst (nodup_firsts _) _, fun hash => ?_⟩
  rw [find?_foldl_keepFirst, find?_foldl_keepFirst, List.find?_nil, Option.none_or, if_neg htarget]

theorem collectLiveCollectionOffers_error
    (h : ∃ raw ∈ rawOffers, needsCriteria engine targetTraits raw = true ∧ ¬ Readable engine raw) :
    ∃ error, collectLiveCollectionOffers engine job targetTraits rawOffers = .error error := by
  obtain ⟨raw, hraw, hneeds, hread⟩ := h
  unfold collectLiveCollectionOffers
  by_cases hkind : inferOpenSeaNftSelectionKind engine raw none = .item
  · have htarget : targetTraits ≠ [] := by
      unfold needsCriteria at hneeds
      simpa [hkind] using hneeds
    cases hpass : rawOffers.foldlM (keepRead Order.id (readCollectionWideOffer engine job)) [] with
    | error error => exact ⟨error, rfl⟩
    | ok offers =>
      rw [bind_ok, if_neg htarget]
      exact collect_error ⟨raw, hraw, error_of_not_ok fun hok => hread ((readTraitOffer_spec raw).1.mp hok)⟩ _
  · have hfail : ∃ error, readCollectionWideOffer engine job raw = .error error := by
      refine error_of_not_ok fun hok => ?_
      rcases (readCollectionWideOffer_spec raw).1.mp hok with hitem | hok
      · exact hkind hitem
      · exact hread hok
    obtain ⟨error, herror⟩ : ∃ error,
        rawOffers.foldlM (keepRead Order.id (readCollectionWideOffer engine job)) [] = .error error :=
      collect_error ⟨raw, hraw, hfail⟩ []
    rw [herror]
    exact ⟨error, rfl⟩

theorem find?_map_identity (offers : List Order) (hash : String) :
    (offers.find? (·.id = hash)).map Order.identity = (offers.map Order.identity).find? (·.1 = hash) := by
  rw [List.find?_map]
  rfl

theorem map_filterMap_congr {f g : Value → Option Order}
    (h : ∀ raw, (f raw).map Order.identity = (g raw).map Order.identity) (raws : List Value) :
    (raws.filterMap f).map Order.identity = (raws.filterMap g).map Order.identity := by
  rw [List.map_filterMap, List.map_filterMap]
  exact List.filterMap_congr fun raw _ => h raw

/-- **Where no collection-wide offer has the hash, the competing ones are the eligible ones.** -/
theorem find?_eligible_of_no_wide {hash : String}
    (h : (collectionWideOffers engine job rawOffers).find? (·.id = hash) = none) :
    (rawOffers.filterMap fun raw =>
      if !isExplicitItemOffer engine job raw && competesForTarget engine job targetTraits raw then
        parsedOffer engine job raw else none).find? (·.id = hash) =
      (eligibleOffers engine job targetTraits rawOffers).find? (·.id = hash) := by
  refine find?_filterMap_congr fun raw hraw => ?_
  cases isExplicitItemOffer engine job raw with
  | true => rfl
  | false =>
    cases hwide : isCollectionWide engine raw with
    | false => rfl
    | true =>
      rw [competes_of_wide hwide]
      symm
      show (parsedOffer engine job raw).filter _ = none
      rw [Option.filter_eq_none_iff]
      intro order horder
      refine List.find?_eq_none.mp h order (List.mem_filterMap.mpr ⟨raw, hraw, ?_⟩)
      rw [hwide]
      exact horder

/-- **One pass over a list of offers and two passes over it find the same exactly when `ScannedAlike` holds of
the list.** -/
theorem collected_alike_iff :
    SameOffers (collectCachedCollectionSnapshotOffers engine job targetTraits rawOffers)
      (collectLiveCollectionOffers engine job targetTraits rawOffers) ↔
      ScannedAlike engine job targetTraits rawOffers := by
  by_cases hcached : ∀ raw ∈ rawOffers, isExplicitItemOffer engine job raw = true ∨
      (needsCriteria engine targetTraits raw = true → Readable engine raw)
  · have hok := fun raw hraw => (readSnapshotOffer_spec raw).1.mpr (hcached raw hraw)
    unfold collectCachedCollectionSnapshotOffers
    rw [collect_ok hok]
    have hnone : ¬ ∃ raw ∈ rawOffers, isExplicitItemOffer engine job raw = false ∧
        needsCriteria engine targetTraits raw = true ∧ ¬ Readable engine raw := by
      rintro ⟨raw, hraw, hitem, hneeds, hread⟩
      rcases hcached raw hraw with h | h
      · rw [h] at hitem
        cases hitem
      · exact hread (h hneeds)
    by_cases hlive : ∀ raw ∈ rawOffers, needsCriteria engine targetTraits raw = true → Readable engine raw
    · obtain ⟨offers, hoffers, hnodup, hfind⟩ := @collectLiveCollectionOffers_ok _ job _ _ hlive
      rw [hoffers]
      unfold ScannedAlike
      rw [or_iff_right hnone, and_iff_right hlive]
      have hperm : ∀ {found : List Order}, (found.map Order.id).Nodup →
          ((found.map Order.identity).Perm (offers.map Order.identity) ↔ ∀ hash,
            (found.find? (·.id = hash)).map Order.identity = (offers.find? (·.id = hash)).map Order.identity) :=
        fun hfound => perm_map_iff (g := fun identity : String × String × Int => identity.1) (fun _ => rfl)
          hfound hnodup
      refine (hperm (nodup_firsts _)).trans ?_
      have hsnapshot : ∀ hash, (((rawOffers.filterMap fun raw =>
          readValue (readSnapshotOffer engine job targetTraits raw)).foldl (keepFirst Order.id) []).find?
            (·.id = hash)).map Order.identity =
          ((eligibleOffers engine job targetTraits rawOffers).find? (·.id = hash)).map Order.identity := by
        intro hash
        rw [find?_foldl_keepFirst, List.find?_nil, Option.none_or, find?_map_identity, find?_map_identity,
          map_filterMap_congr fun raw => (readSnapshotOffer_spec raw).2]
        rfl
      have htwo : ∀ hash, (offers.find? (·.id = hash)).map Order.identity =
          (((collectionWideOffers engine job rawOffers).find? (·.id = hash)).map Order.identity).or
            (((rawOffers.filterMap fun raw =>
              if !isExplicitItemOffer engine job raw && competesForTarget engine job targetTraits raw then
                parsedOffer engine job raw else none).find? (·.id = hash)).map Order.identity) := by
        intro hash
        rw [hfind, Option.map_or, find?_map_identity,
          map_filterMap_congr fun raw => (readCollectionWideOffer_spec raw).2, ← find?_map_identity]
        congr 1
        rw [find?_map_identity (rawOffers.filterMap _),
          ← map_filterMap_congr fun raw => (readTraitOffer_spec raw).2, ← find?_map_identity]
        split
        · next htarget =>
          rw [find?_map_identity, map_filterMap_congr fun raw => (readTraitOffer_spec raw).2]
          have hnever : ∀ raw, competesForTarget engine job targetTraits raw = false := by
            intro raw
            unfold competesForTarget
            rw [htarget]
            split
            · exact matchesTraitCompetition_nil _ _
            · rfl
          simp only [hnever, Bool.and_false, Bool.false_eq_true, if_false, List.filterMap_none, List.map_nil,
            List.find?_nil, Option.map_none]
        · rfl
      constructor
      · intro hsame hash order horder
        rw [← hsnapshot, hsame, htwo, horder]
        rfl
      intro hfirst hash
      rw [hsnapshot, htwo]
      cases horder : (collectionWideOffers engine job rawOffers).find? (·.id = hash) with
      | some order => exact hfirst hash order horder
      | none =>
        rw [Option.map_none, Option.none_or, find?_eligible_of_no_wide horder]
    · have hfail : ∃ raw ∈ rawOffers, needsCriteria engine targetTraits raw = true ∧ ¬ Readable engine raw := by
        push Not at hlive
        exact hlive
      obtain ⟨error, herror⟩ := @collectLiveCollectionOffers_error _ job _ _ hfail
      rw [herror]
      refine iff_of_false id fun h => ?_
      rcases h with h | ⟨h, -⟩
      · exact hnone h
      · exact hlive h
  · push Not at hcached
    obtain ⟨raw, hraw, hitem, hneeds, hread⟩ := hcached
    have hfail : ∃ error, readSnapshotOffer engine job targetTraits raw = .error error := by
      refine error_of_not_ok fun hok => ?_
      rcases (readSnapshotOffer_spec raw).1.mp hok with h | h
      · exact hitem h
      · exact hread (h hneeds)
    unfold collectCachedCollectionSnapshotOffers
    obtain ⟨error, herror⟩ : ∃ error,
        rawOffers.foldlM (keepRead Order.id (readSnapshotOffer engine job targetTraits)) [] = .error error :=
      collect_error ⟨raw, hraw, hfail⟩ []
    obtain ⟨error', herror'⟩ := @collectLiveCollectionOffers_error _ job _ _ ⟨raw, hraw, hneeds, hread⟩
    rw [herror, herror']
    exact iff_of_true trivial (.inl ⟨raw, hraw, Bool.eq_false_iff.mpr hitem, hneeds, hread⟩)

/-- The condition of a job: `ScannedAlike` for its traits, if it is for a collection. -/
def JobScannedAlike (engine : OfferEngine) (job : ScheduledJob) (rawOffers : List Value) : Prop :=
  match job.target with
  | .collection _ traits => ScannedAlike engine job (dedupeTraitTargets engine traits) rawOffers
  | _ => True

/-- **The offers that a job finds in a snapshot of a list are those it finds in the list itself exactly when
the list is scanned alike.** -/
theorem scans_agree_iff (engine : OfferEngine) (job : ScheduledJob) (rawOffers : List Value) :
    SameOffers ((getCachedCollectionSnapshotOffers engine job rawOffers).map (·.getD []))
      (getLiveCollectionTargetOffers engine job rawOffers) ↔ JobScannedAlike engine job rawOffers := by
  unfold getCachedCollectionSnapshotOffers getLiveCollectionTargetOffers JobScannedAlike
  cases job.target with
  | token tokenId => exact iff_of_true (List.Perm.refl _) trivial
  | competitiveTrait quantity targetTrait competitorTraits => exact iff_of_true (List.Perm.refl _) trivial
  | collection quantity traits =>
    dsimp only
    rw [← collected_alike_iff]
    cases collectCachedCollectionSnapshotOffers engine job (dedupeTraitTargets engine traits) rawOffers with
    | error error => rfl
    | ok offers => rfl

/-- An engine that reads decimal digits, and texts of ASCII. -/
def asciiEngine : OfferEngine where
  localeCompare := fun a b => if a = b then 0 else if a < b then -1 else 1
  numberText := fun q => toString q.num
  platform := ⟨fun c => [c], fun s => s⟩
  toUpperCase := fun s => String.ofList (s.toList.map Char.toUpper)
  toNumber := fun value =>
    match value with
    | .number n => n
    | .null => .finite 0
    | .string s => if isCanonicalDecimal s then .finite (decimalValue s) else .nan
    | _ => .nan
  toBigInt := fun value =>
    match value with
    | .bigint i => some i
    | .string s => if isCanonicalDecimal s then some (decimalValue s) else none
    | _ => none
  toText := fun value =>
    match value with
    | .string s => s
    | _ => ""
  dateParse := fun _ => none
  toRfc3339Seconds := fun _ => ""

/-- A collection job for the tokens with one trait. -/
def terrainJob : ScheduledJob where
  collectionId := 1
  collectionAddress := "0xc0"
  collectionSlug := "terraforms"
  target := .collection (.finite 1) [⟨"Mode", "Terrain"⟩]
  id := "a"
  revision := 1
  config := ⟨2, 1, 1, []⟩
  state := .empty

/-- An offer for token 7, with a trait that has no value. -/
def itemOfferWithBadCriteria : Value :=
  .object [("order_hash", .string "0xaa"), ("maker", .string "0x01"),
    ("criteria", .object [("trait", .object [("type", .string "Mode"), ("value", .null)])]),
    ("protocol_data", .object [("parameters", .object [("consideration", .array [.object
      [("itemType", .number (.finite 2)), ("token", .string "0xc0"), ("identifierOrCriteria", .string "7")]])])])]

/-- **One offer for an item, with criteria that cannot be read, stops the scan of fetched offers:** the scan of
a snapshot leaves it out. -/
theorem unreadable_item_offer_stops_scan :
    getCachedCollectionSnapshotOffers asciiEngine terrainJob [itemOfferWithBadCriteria] = .ok (some []) ∧
      getLiveCollectionTargetOffers asciiEngine terrainJob [itemOfferWithBadCriteria] =
        .error "Invalid OpenSea trait value" ∧
      ¬ SameOffers
        ((getCachedCollectionSnapshotOffers asciiEngine terrainJob [itemOfferWithBadCriteria]).map (·.getD []))
        (getLiveCollectionTargetOffers asciiEngine terrainJob [itemOfferWithBadCriteria]) := by
  have hcached : getCachedCollectionSnapshotOffers asciiEngine terrainJob [itemOfferWithBadCriteria] =
      .ok (some []) := rfl
  have hlive : getLiveCollectionTargetOffers asciiEngine terrainJob [itemOfferWithBadCriteria] =
      .error "Invalid OpenSea trait value" := rfl
  refine ⟨hcached, hlive, ?_⟩
  rw [hcached, hlive]
  exact id

end Scans

end Artgod.Trading
