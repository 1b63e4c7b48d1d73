/-
# Recognising own offers

The bidder asks of a raw offer by its scope and its trait criteria whether it is one of a job's.  The texts of
criteria are cut at 96 code units when an offer is parsed and not in the job; up to that length an order is
recognised by the job it was placed for (`placed_offer_recognised`).
-/
import Artgod.Trading.CollectionOfferScans
import Artgod.Trading.JobSource

namespace Artgod.Trading

open Js

/-! ## 1. Recognition -/

section Recognition

variable (engine : OfferEngine)

def normalizeOrderTraitTargets (order : Order) : Except String (List BiddingTraitCriterion) :=
  readOfferCriteria engine order.rawOrder

/-- The order is a trait offer for exactly these traits. -/
def isExactTraitOffer (order : Order) (targetTraits : List TraitTarget) : Except String Bool :=
  if order.offerScope ≠ .trait then .ok false
  else do
    let orderTraits ← normalizeOrderTraitTargets engine order
    return matchesExactTraitTargets engine.toTraitEngine orderTraits (targetTraits.map TraitTarget.criterion)

def isOfferManagedByJob (job : ScheduledJob) (order : Order) : Except String Bool :=
  match job.target with
  | .token _ => .ok (order.offerScope = .item)
  | .collection _ targetTraits =>
    if targetTraits = [] then .ok (order.offerScope = .collection) else isExactTraitOffer engine order targetTraits
  | .competitiveTrait _ targetTrait _ => isExactTraitOffer engine order [targetTrait]

def getPlacementTraits (target : BidderTarget) : List TraitTarget :=
  match target with
  | .collection _ traits => dedupeTraitTargets engine traits
  | .competitiveTrait _ targetTrait _ => [targetTrait]
  | .token _ => []

/-! ## 2. Offers as they come back -/

def TraitTarget.toValue (trait : TraitTarget) : Value :=
  .object [("type", .string trait.type), ("value", .string trait.value)]

/-- How criteria list traits: in the plural, a single one in the singular, or both. -/
inductive ListsTraits : List TraitTarget → Value → Value → Prop
  | plural {listed : List TraitTarget} {trait : Value} (hnone : trait = .undefined ∨ trait = .null) :
      ListsTraits listed trait (.array (listed.map TraitTarget.toValue))
  | singular {trait : TraitTarget} {traits : Value} (hnone : traits = .undefined ∨ traits = .null) :
      ListsTraits [trait] trait.toValue traits
  | both {trait : TraitTarget} : ListsTraits [trait] trait.toValue (.array [trait.toValue])
  | absent {trait traits : Value} (htrait : trait = .undefined ∨ trait = .null)
      (htraits : traits = .undefined ∨ traits = .null) : ListsTraits [] trait traits

/-- The criteria of an offer for these traits: an envelope that lists them, and nothing else for no traits. -/
inductive CriteriaFor (listed : List TraitTarget) : List (String × Value) → Prop
  | empty (hlisted : listed = []) : CriteriaFor listed []
  | envelope {criteria : List (String × Value)} (henvelope : isOpenSeaCriteriaEnvelope criteria = true)
      (hlists : ListsTraits listed (field criteria "trait") (field criteria "traits"))
      (hnumeric : ∀ key ∈ ["numeric_traits", "numericTraits"],
        field criteria key = .undefined ∨ field criteria key = .null) : CriteriaFor listed criteria

/-- The properties that a stream message has for its criteria. -/
def streamCriteriaKeys : List String :=
  ["trait_criteria", "traitCriteria", "trait_criteria_list", "traitCriteriaList", "numeric_trait_criteria_list",
    "numericTraitCriteriaList"]

/-- **The raw offer is an order that was placed for the target.**  It names an order, and has the item of a
token, or criteria that list the placed traits: in the order they were placed in, or in any order if the
engine tells them apart. -/
structure PlacedOffer (target : BidderTarget) (collectionAddress : String) (raw : Value) : Prop where
  hash : ∃ hash, getOpenSeaOrderHash raw = some hash
  maker : ∃ maker, offerMaker raw = some maker
  price : ∃ price, extractOpenSeaWethUnitPrice engine raw (some collectionAddress) = some price
  item : ∀ tokenId, target = .token tokenId →
    inferOpenSeaNftSelectionKind engine raw none = .item ∧ Readable engine raw
  criteria : (∀ tokenId, target ≠ .token tokenId) →
    inferOpenSeaNftSelectionKind engine raw none = .criteria ∧
    (∀ key ∈ streamCriteriaKeys, field (asRecord raw) key = .undefined) ∧
    ∃ listed criteria, field (asRecord raw) "criteria" = .object criteria ∧ CriteriaFor listed criteria ∧
      (listed = getPlacementTraits engine target ∨ (listed.Perm (getPlacementTraits engine target) ∧
          engine.toTraitEngine.Orders (listed.map TraitTarget.criterion)))

variable {engine}

/-! ## 3. Reading the criteria back -/

/-- A text that the parser keeps whole. -/
def ShortText (s : String) : Prop := (utf16Units s).length ≤ tradingTraitTextMaxLength

theorem normalizeTradingTraitText_of_short {s : String} (htrimmed : TrimmedText s) (hshort : ShortText s) :
    normalizeTradingTraitText s = s := by
  unfold normalizeTradingTraitText
  dsimp only
  rw [htrimmed.1]
  exact if_pos hshort

/-- A trait that the parser keeps as it is. -/
def KeptTrait (trait : TraitTarget) : Prop :=
  (TrimmedText trait.type ∧ ShortText trait.type) ∧ TrimmedText trait.value ∧ ShortText trait.value

theorem normalizeOpenSeaTraitCriteria_trait {trait : TraitTarget} (h : KeptTrait trait) :
    normalizeOpenSeaTraitCriteria engine trait.toValue = .ok [trait.criterion] := by
  obtain ⟨⟨htype, htypeShort⟩, hvalue, hvalueShort⟩ := h
  have hfirst : firstString [("type", Value.string trait.type), ("value", .string trait.value)]
      ["type", "trait_type", "traitType"] = some trait.type := by
    simp [firstString, field, stringOrUndefined, htype.2]
  have hparse : parseBiddingTraitCriterion (.object [("type", .string trait.type), ("value", .string trait.value)]) =
      .ok trait.criterion := by
    show (if trim trait.type = "" then _ else Except.ok _) = _
    rw [if_neg (by rw [htype.1]; exact htype.2), normalizeTradingTraitText_of_short htype htypeShort,
      normalizeTradingTraitText_of_short hvalue hvalueShort]
    rfl
  unfold TraitTarget.toValue
  rw [normalizeOpenSeaTraitCriteria_object, if_neg (by simp [isOpenSeaCriteriaEnvelope, hasKey])]
  unfold normalizePlainRecord
  dsimp only
  rw [hfirst]
  show [Value.object [("type", .string trait.type), ("value", .string trait.value)]].mapM
    parseBiddingTraitCriterion = _
  rw [List.mapM_cons, hparse]
  rfl

variable {listed : List TraitTarget} {target : BidderTarget}

theorem normalizeOpenSeaTraitCriteria_traits (h : ∀ trait ∈ listed, KeptTrait trait) :
    normalizeOpenSeaTraitCriteria engine (.array (listed.map TraitTarget.toValue)) =
      .ok (listed.map TraitTarget.criterion) := by
  rw [normalizeOpenSeaTraitCriteria]
  induction listed with
  | nil => rfl
  | cons trait rest ih =>
    rw [List.map_cons, normalizeEntries, normalizeOpenSeaTraitCriteria_trait (h trait List.mem_cons_self),
      ih fun trait htrait => h trait (List.mem_cons_of_mem _ htrait)]
    rfl

theorem dedupe_twice (engine : TraitEngine) (c : BiddingTraitCriterion) :
    dedupeBiddingTraitCriteria engine [c, c] = dedupeBiddingTraitCriteria engine [c] := by
  simp [dedupeBiddingTraitCriteria, dedupeCriteria]

theorem criterion_exact (listed : List TraitTarget) : ∀ c ∈ listed.map TraitTarget.criterion, c.IsExact := by
  intro c hc
  obtain ⟨trait, -, rfl⟩ := List.mem_map.mp hc
  exact ⟨_, rfl⟩

/-- **The criteria of an offer are the traits they list,** each once. -/
theorem normalizeOpenSeaOfferTraitCriteria_listed {listed : List TraitTarget} {criteria : List (String × Value)}
    (hcriteria : CriteriaFor listed criteria) (h : ∀ trait ∈ listed, KeptTrait trait) :
    normalizeOpenSeaOfferTraitCriteria engine (.object criteria) =
      .ok (dedupeBiddingTraitCriteria engine.toTraitEngine (listed.map TraitTarget.criterion)) := by
  cases hcriteria with
  | empty hlisted =>
    rw [hlisted]
    rfl
  | envelope henvelope hlists hnumeric =>
    have hne : criteria ≠ [] := by
      rintro rfl
      cases henvelope
    have hread : normalizeOpenSeaOfferTraitCriteria engine (.object criteria) =
        (normalizeOpenSeaTraitCriteria engine (.object criteria)).map
          (dedupeBiddingTraitCriteria engine.toTraitEngine) := by
      unfold normalizeOpenSeaOfferTraitCriteria normalizeOptionalOpenSeaTraitCriteria
      cases criteria with
      | nil => exact absurd rfl hne
      | cons f rest => rfl
    have hnumericRead : ∀ key ∈ ["numeric_traits", "numericTraits"],
        normalizeOpenSeaNumericTraitCriteria engine (field criteria key) = .ok [] := by
      intro key hkey
      rcases hnumeric key hkey with h | h
      · rw [h]
        rfl
      · rw [h]
        rfl
    have hnone : ∀ {value : Value}, value = .undefined ∨ value = .null →
        normalizeOptionalOpenSeaTraitCriterion engine value = .ok [] ∧
          normalizeOptionalOpenSeaTraitCriteria engine value = .ok [] := by
      rintro value (rfl | rfl) <;> exact ⟨rfl, rfl⟩
    have hone : ∀ {trait : TraitTarget}, KeptTrait trait →
        normalizeOptionalOpenSeaTraitCriterion engine trait.toValue = .ok [trait.criterion] := by
      intro trait htrait
      show (normalizeOpenSeaTraitCriteria engine trait.toValue >>= _) = _
      rw [normalizeOpenSeaTraitCriteria_trait htrait]
      rfl
    have hmany : ∀ {listed : List TraitTarget}, (∀ trait ∈ listed, KeptTrait trait) →
        normalizeOptionalOpenSeaTraitCriteria engine (.array (listed.map TraitTarget.toValue)) =
          .ok (listed.map TraitTarget.criterion) := fun h => normalizeOpenSeaTraitCriteria_traits h
    rw [hread, normalizeOpenSeaTraitCriteria_object, if_pos henvelope, hnumericRead _ (by decide),
      hnumericRead _ (by decide)]
    generalize field criteria "trait" = trait at hlists
    generalize field criteria "traits" = traits at hlists
    cases hlists with
    | plural hnull =>
      rw [(hnone hnull).1, hmany h]
      simp [bind_ok, pure, Except.pure, Except.map]
    | singular hnull =>
      rw [(hnone hnull).2, hone (h _ List.mem_cons_self)]
      rfl
    | @both trait =>
      have hlist : normalizeOptionalOpenSeaTraitCriteria engine (.array [trait.toValue]) = .ok [trait.criterion] :=
        hmany h
      rw [hone (h _ List.mem_cons_self), hlist]
      exact congrArg Except.ok (dedupe_twice engine.toTraitEngine _)
    | absent htrait htraits =>
      rw [(hnone htrait).1, (hnone htraits).2]
      rfl

theorem getOpenSeaOfferCriteria_plain {raw : Value} {criteria : List (String × Value)}
    (hcriteria : field (asRecord raw) "criteria" = .object criteria)
    (hplain : ∀ key ∈ streamCriteriaKeys, field (asRecord raw) key = .undefined) :
    getOpenSeaOfferCriteria engine raw = .ok (some (.object criteria)) := by
  have hstream : getOpenSeaStreamTraitCriteria engine (asRecord raw) = .ok none := by
    unfold getOpenSeaStreamTraitCriteria
    rw [hplain "trait_criteria" (by decide), hplain "traitCriteria" (by decide),
      hplain "trait_criteria_list" (by decide), hplain "traitCriteriaList" (by decide),
      hplain "numeric_trait_criteria_list" (by decide), hplain "numericTraitCriteriaList" (by decide)]
    rfl
  unfold getOpenSeaOfferCriteria
  dsimp only
  rw [hstream, hcriteria]
  rfl

theorem parseRawOffer_placed {collectionAddress : String} {raw : Value}
    (h : PlacedOffer engine target collectionAddress raw) (hread : Readable engine raw) {scope : OfferScope}
    (hscope : inferOpenSeaOfferScope engine raw = .ok scope) (source : OfferDiscoverySource) :
    ∃ order, parseRawOffer engine raw collectionAddress source = .ok (some order) ∧
      order.offerScope = scope ∧ order.rawOrder = raw := by
  obtain ⟨hash, hhash⟩ := h.hash
  obtain ⟨maker, hmaker⟩ := h.maker
  obtain ⟨price, hprice⟩ := h.price
  obtain ⟨traits, htraits⟩ := hread
  have hpresent : isAbsentOffer raw = false := by
    cases raw with
    | object record => rfl
    | array items => rfl
    | function => rfl
    | undefined => cases hhash
    | null => cases hhash
    | bool b => cases hhash
    | number n => cases hhash
    | bigint i => cases hhash
    | string s => cases hhash
  obtain ⟨criteria, hcriteria, hoffer⟩ := bind_eq_ok.mp htraits
  unfold parseRawOffer
  rw [hpresent, if_neg Bool.false_ne_true, hhash, hmaker, hprice, hscope, hcriteria]
  simp only [bind_ok, hoffer]
  exact ⟨_, rfl, rfl, rfl⟩

/-! ## 4. Recognition of placed offers -/

theorem criterion_injective : Function.Injective TraitTarget.criterion := by
  intro a b h
  cases a
  cases b
  cases h
  rfl

theorem dedupeTraitTargets_map (traits : List TraitTarget) :
    (dedupeTraitTargets engine traits).map TraitTarget.criterion =
      dedupeBiddingTraitCriteria engine.toTraitEngine (traits.map TraitTarget.criterion) := by
  unfold dedupeTraitTargets
  have hexact := @dedupeBiddingTraitCriteria_exact engine.toTraitEngine _ (criterion_exact traits)
  generalize dedupeBiddingTraitCriteria engine.toTraitEngine (traits.map TraitTarget.criterion) = l at hexact
  induction l with
  | nil => rfl
  | cons c rest ih =>
    obtain ⟨trait, rfl⟩ := hexact c List.mem_cons_self
    exact congrArg _ (ih fun c hc => hexact c (List.mem_cons_of_mem _ hc))

theorem getPlacementTraits_map (target : BidderTarget) :
    (getPlacementTraits engine target).map TraitTarget.criterion =
      dedupeBiddingTraitCriteria engine.toTraitEngine (target.placedTraits.map TraitTarget.criterion) := by
  cases target with
  | token tokenId => rfl
  | collection quantity traits => exact dedupeTraitTargets_map traits
  | competitiveTrait quantity targetTrait competitorTraits =>
    exact (dedupeBiddingTraitCriteria_of_nodup (criterion_exact [targetTrait]) (List.nodup_singleton _)).symm

/-- The criteria come back in the order they were placed in, or the engine tells them apart. -/
def ListedAs (engine : OfferEngine) (listed placed : List TraitTarget) : Prop :=
  listed = placed ∨ (listed.Perm placed ∧ engine.toTraitEngine.Orders (listed.map TraitTarget.criterion))

theorem ListedAs.mem_iff
    (h : ListedAs engine listed (getPlacementTraits engine target)) (trait : TraitTarget) :
    trait ∈ listed ↔ trait ∈ target.placedTraits := by
  have hplaced : trait ∈ listed ↔ trait ∈ getPlacementTraits engine target := by
    rcases h with h | ⟨h, -⟩
    · rw [h]
    · exact h.mem_iff
  rw [hplaced, ← List.mem_map_of_injective criterion_injective, getPlacementTraits_map,
    mem_dedupeBiddingTraitCriteria (criterion_exact _), List.mem_map_of_injective criterion_injective]

/-- **The criteria that come back match the traits of the target.** -/
theorem ListedAs.matches (h : ListedAs engine listed (getPlacementTraits engine target)) :
    matchesExactTraitTargets engine.toTraitEngine
      (dedupeBiddingTraitCriteria engine.toTraitEngine (listed.map TraitTarget.criterion))
      (target.placedTraits.map TraitTarget.criterion) = true := by
  unfold matchesExactTraitTargets
  dsimp only
  rw [dedupe_dedupe (criterion_exact listed), ← getPlacementTraits_map]
  have hnodup : ((getPlacementTraits engine target).map TraitTarget.criterion).Nodup := by
    rw [getPlacementTraits_map]
    exact nodup_dedupeCriteria _ _
  rcases h with h | ⟨h, horders⟩
  · rw [h, dedupeBiddingTraitCriteria_of_nodup (criterion_exact _) hnodup]
    simp
  have hperm := h.map TraitTarget.criterion
  rw [dedupeBiddingTraitCriteria_of_nodup (criterion_exact _) (hperm.nodup_iff.mpr hnodup),
    if_neg (not_not_intro hperm.length_eq)]
  unfold biddingTraitCriteriaKey
  rw [sortCriteria_of_perm hperm horders]
  simp

/-- The two targets are for offers of one kind: for an item, or for tokens with the same traits. -/
def PlacesSameOffer (target target' : BidderTarget) : Prop :=
  match target, target' with
  | .token _, .token _ => True
  | .token _, _ => False
  | _, .token _ => False
  | target, target' => ∀ trait, trait ∈ target.placedTraits ↔ trait ∈ target'.placedTraits

theorem managed_of_traits {order : Order}
    (hlisted : ListedAs engine listed (getPlacementTraits engine target))
    (hcriteria : readOfferCriteria engine order.rawOrder =
      .ok (dedupeBiddingTraitCriteria engine.toTraitEngine (listed.map TraitTarget.criterion)))
    (hscope : order.offerScope = if target.placedTraits = [] then .collection else .trait)
    (htoken : ∀ tokenId, target ≠ .token tokenId) (job : ScheduledJob) :
    (job.target = target → isOfferManagedByJob engine job order = .ok true) ∧
      (¬ PlacesSameOffer target job.target → isOfferManagedByJob engine job order = .ok false) := by
  -- a list of traits that is not empty
  have hexact : ∀ traits : List TraitTarget, traits ≠ [] →
      (traits = target.placedTraits → isExactTraitOffer engine order traits = .ok true) ∧
      (¬ (∀ trait, trait ∈ target.placedTraits ↔ trait ∈ traits) →
        isExactTraitOffer engine order traits = .ok false) := by
    intro traits htraits
    unfold isExactTraitOffer normalizeOrderTraitTargets
    rw [hscope, hcriteria, bind_ok]
    by_cases hnone : target.placedTraits = []
    · rw [if_pos hnone]
      exact ⟨fun heq => absurd (heq.trans hnone) htraits, fun _ => rfl⟩
    rw [if_neg hnone]
    refine ⟨fun heq => ?_, fun hdiff => ?_⟩
    · rw [heq, hlisted.matches]
      rfl
    have hno : matchesExactTraitTargets engine.toTraitEngine
        (dedupeBiddingTraitCriteria engine.toTraitEngine (listed.map TraitTarget.criterion))
        (traits.map TraitTarget.criterion) = false := by
      refine Bool.eq_false_iff.mpr fun hmatch => hdiff fun trait => ?_
      have hmem := mem_iff_of_matches (dedupeBiddingTraitCriteria_exact (criterion_exact listed))
        (criterion_exact traits) hmatch trait.criterion
      rw [mem_dedupeBiddingTraitCriteria (criterion_exact listed),
        List.mem_map_of_injective criterion_injective, List.mem_map_of_injective criterion_injective] at hmem
      exact (hlisted.mem_iff trait).symm.trans hmem
    rw [hno]
    rfl
  unfold isOfferManagedByJob
  cases htarget : job.target with
  | token tokenId =>
    refine ⟨fun heq => absurd heq.symm (htoken tokenId), fun _ => ?_⟩
    dsimp only
    rw [hscope]
    split <;> rfl
  | collection quantity traits =>
    dsimp only
    by_cases hnone : traits = []
    · subst hnone
      rw [if_pos rfl, hscope]
      refine ⟨fun heq => ?_, fun hdiff => ?_⟩
      · rw [← heq]
        rfl
      by_cases hplaced : target.placedTraits = []
      · refine absurd ?_ hdiff
        cases target with
        | token tokenId => exact absurd rfl (htoken tokenId)
        | collection quantity' traits' =>
          intro trait
          rw [hplaced]
          rfl
        | competitiveTrait quantity' targetTrait competitorTraits => cases hplaced
      · rw [if_neg hplaced]
        rfl
    · rw [if_neg hnone]
      refine ⟨fun heq => (hexact traits hnone).1 (by rw [← heq]; rfl), fun hdiff => ?_⟩
      refine (hexact traits hnone).2 fun hsame => hdiff ?_
      cases target with
      | token tokenId => exact absurd rfl (htoken tokenId)
      | collection quantity' traits' => exact hsame
      | competitiveTrait quantity' targetTrait competitorTraits => exact hsame
  | competitiveTrait quantity targetTrait competitorTraits =>
    refine ⟨fun heq => (hexact [targetTrait] (List.cons_ne_nil _ _)).1 (by rw [← heq]; rfl), fun hdiff => ?_⟩
    refine (hexact [targetTrait] (List.cons_ne_nil _ _)).2 fun hsame => hdiff ?_
    cases target with
    | token tokenId => exact absurd rfl (htoken tokenId)
    | collection quantity' traits' => exact hsame
    | competitiveTrait quantity' targetTrait' competitorTraits' => exact hsame

/-- **An order that was placed for a job is recognised when it comes back,** if the texts of its traits have at
most 96 code units: by every job for its target, and by no job that places another kind of offer. -/
theorem placed_offer_recognised {parseJson : String → Except String Value} {row : JobTargetRow}
    {target : BidderTarget} (htarget : row.mapTarget parseJson = .ok target)
    (hshort : ∀ trait ∈ target.placedTraits, ShortText trait.type ∧ ShortText trait.value)
    {collectionAddress : String} {raw : Value} (hplaced : PlacedOffer engine target collectionAddress raw)
    (source : OfferDiscoverySource) :
    ∃ order, parseRawOffer engine raw collectionAddress source = .ok (some order) ∧ ∀ job : ScheduledJob,
        (job.target = target → isOfferManagedByJob engine job order = .ok true) ∧
        (¬ PlacesSameOffer target job.target → isOfferManagedByJob engine job order = .ok false) := by
  by_cases htoken : ∃ tokenId, target = .token tokenId
  · obtain ⟨tokenId, rfl⟩ := htoken
    obtain ⟨hkind, hread⟩ := hplaced.item tokenId rfl
    have hscope : inferOpenSeaOfferScope engine raw = .ok .item := by
      unfold inferOpenSeaOfferScope
      rw [hkind]
    obtain ⟨order, horder, hitem, -⟩ := parseRawOffer_placed hplaced hread hscope source
    refine ⟨order, horder, fun job => ?_⟩
    unfold isOfferManagedByJob isExactTraitOffer
    rw [hitem]
    cases htarget : job.target with
    | token tokenId' => exact ⟨fun _ => rfl, fun hdiff => absurd trivial hdiff⟩
    | collection quantity traits =>
      refine ⟨fun heq => (nomatch heq), fun _ => ?_⟩
      dsimp only
      split <;> rfl
    | competitiveTrait quantity targetTrait competitorTraits => exact ⟨fun heq => (nomatch heq), fun _ => rfl⟩
  · push Not at htoken
    obtain ⟨hkind, hplain, listed, criteria, hfield, hcriteria, hlisted⟩ := hplaced.criteria htoken
    have hlisted : ListedAs engine listed (getPlacementTraits engine target) := hlisted
    have hkept : ∀ trait ∈ listed, KeptTrait trait := by
      intro trait htrait
      have hmem := (hlisted.mem_iff trait).mp htrait
      obtain ⟨htype, hvalue⟩ := mapTarget_traits htarget trait hmem
      exact ⟨⟨htype, (hshort trait hmem).1⟩, hvalue, (hshort trait hmem).2⟩
    have hoffer := @getOpenSeaOfferCriteria_plain engine raw criteria hfield hplain
    have htraits := @normalizeOpenSeaOfferTraitCriteria_listed engine listed criteria hcriteria hkept
    have hread : readOfferCriteria engine raw =
        .ok (dedupeBiddingTraitCriteria engine.toTraitEngine (listed.map TraitTarget.criterion)) := by
      unfold readOfferCriteria
      rw [hoffer]
      exact htraits
    have hempty : dedupeBiddingTraitCriteria engine.toTraitEngine (listed.map TraitTarget.criterion) = [] ↔
        target.placedTraits = [] := by
      rw [List.eq_nil_iff_forall_not_mem, List.eq_nil_iff_forall_not_mem]
      constructor
      · intro h trait htrait
        refine h trait.criterion ((mem_dedupeBiddingTraitCriteria (criterion_exact listed)).mpr ?_)
        exact List.mem_map_of_mem ((hlisted.mem_iff trait).mpr htrait)
      intro h c hc
      obtain ⟨trait, htrait, -⟩ := List.mem_map.mp
        ((mem_dedupeBiddingTraitCriteria (criterion_exact listed)).mp hc)
      exact h trait ((hlisted.mem_iff trait).mp htrait)
    have hscope : inferOpenSeaOfferScope engine raw =
        .ok (if target.placedTraits = [] then .collection else .trait) := by
      unfold inferOpenSeaOfferScope
      rw [hkind]
      dsimp only
      rw [hoffer, bind_ok]
      dsimp only
      rw [htraits, bind_ok]
      simp only [hempty]
      rfl
    obtain ⟨order, horder, hitem, hraw⟩ := parseRawOffer_placed hplaced ⟨_, hread⟩ hscope source
    exact ⟨order, horder, managed_of_traits hlisted (hraw ▸ hread) hitem htoken⟩

end Recognition

/-- The row of a collection job for the tokens with one trait, and its parsed traits. -/
def terrainRow : JobTargetRow where
  jobId := "a"
  targetKind := .collection
  tokenId := none
  quantity := some (.finite 1)
  targetTraitsJson := some "[\x7b\"type\":\"Mode\",\"value\":\"Terrain\"\x7d]"
  competitorTraitsJson := none

def parseTerrainJson (text : String) : Except String Value :=
  if terrainRow.targetTraitsJson = some text then
    .ok (.array [.object [("type", .string "Mode"), ("value", .string "Terrain")]])
  else .error "Unexpected token"

/-- An offer of five WETH wei with these criteria, for an NFT item of this type. -/
def rawOfferWith (itemType : Rat) (criteria : Value) : Value :=
  .object [("order_hash", .string "0xaa"), ("maker", .string "0x01"), ("criteria", criteria),
    ("price", .object [("value", .string "5"), ("currency", .string "WETH")]),
    ("protocol_data", .object [("parameters", .object [("consideration", .array [.object
      [("itemType", .number (.finite itemType)), ("token", .string "0xc0"),
        ("identifierOrCriteria", .string "1")]])])])]

theorem terrain_offer_recognised : ∃ order,
    parseRawOffer asciiEngine (rawOfferWith 4 (.object [("contract", .string "0xc0"),
      ("traits", .array [TraitTarget.toValue ⟨"Mode", "Terrain"⟩])])) "0xc0" .traitOffers = .ok (some order) ∧
      ∀ job : ScheduledJob,
        (job.target = .collection (.finite 1) [⟨"Mode", "Terrain"⟩] →
          isOfferManagedByJob asciiEngine job order = .ok true) ∧
        (¬ PlacesSameOffer (.collection (.finite 1) [⟨"Mode", "Terrain"⟩]) job.target →
          isOfferManagedByJob asciiEngine job order = .ok false) := by
  refine @placed_offer_recognised asciiEngine parseTerrainJson terrainRow _ rfl ?_ "0xc0" _ ?_ .traitOffers
  · intro trait htrait
    rw [List.mem_singleton.mp htrait]
    unfold ShortText
    exact ⟨by decide +kernel, by decide +kernel⟩
  · refine ⟨⟨"0xaa", rfl⟩, ⟨"0x01", rfl⟩, ⟨5, rfl⟩, (fun tokenId heq => nomatch heq), fun _ => ⟨rfl, ?_, ?_⟩⟩
    · intro key hkey
      simp only [streamCriteriaKeys, List.mem_cons, List.not_mem_nil, or_false] at hkey
      rcases hkey with rfl | rfl | rfl | rfl | rfl | rfl <;> rfl
    refine ⟨[⟨"Mode", "Terrain"⟩], _, rfl, .envelope rfl (.plural (.inl rfl)) ?_, .inl rfl⟩
    intro key hkey
    simp only [List.mem_cons, List.not_mem_nil, or_false] at hkey
    rcases hkey with rfl | rfl
    · exact .inl rfl
    · exact .inl rfl

/-- **Every token job takes an item offer for its own,** whatever the token: the job for token 2 recognises the
offer that was placed for token 1. -/
theorem item_offer_taken_by_other_token : ∃ order,
    PlacedOffer asciiEngine (.token "1") "0xc0" (rawOfferWith 2 (.object [])) ∧
      parseRawOffer asciiEngine (rawOfferWith 2 (.object [])) "0xc0" .itemOffers = .ok (some order) ∧
      isOfferManagedByJob asciiEngine { terrainJob with target := .token "1" } order = .ok true ∧
      isOfferManagedByJob asciiEngine { terrainJob with target := .token "2" } order = .ok true := by
  refine ⟨_, ⟨⟨"0xaa", rfl⟩, ⟨"0x01", rfl⟩, ⟨5, rfl⟩, fun tokenId _ => ⟨rfl, [], rfl⟩, fun htoken => ?_⟩, rfl, rfl, rfl⟩
  exact absurd rfl (htoken "1")

end Artgod.Trading
