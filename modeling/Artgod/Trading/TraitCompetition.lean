/-
# Trait competition

`matchesTraitCompetition` looks at the criteria of an offer and the target of a job only, and is met exactly when
the offer is for every token that the job bids on.  `normalizeExtraCompetitionTraits` puts the further traits of
a job into one form.
-/
import Artgod.Trading.CollectionOfferScans

namespace Artgod.Trading

open Js Store

/-! ## 1. What an offer is for -/

section

variable (engine : OfferEngine)

/-- The values that a criterion is for. -/
def BiddingTraitCriterion.Admits (criterion : BiddingTraitCriterion) (value : String) : Prop :=
  match criterion with
  | .exactValue trait => value = trait.value
  | .numericRange _ min max => ∃ number, numericTraitValue engine value = some number ∧ min ≤ number ∧ number ≤ max

/-- The token has every trait of the target. -/
def HasTarget (token : Set TraitTarget) (target : List TraitTarget) : Prop := ∀ trait ∈ target, trait ∈ token

/-- The token can be sold into an offer with these criteria. -/
def MeetsCriteria (token : Set TraitTarget) (criteria : List BiddingTraitCriterion) : Prop :=
  ∀ criterion ∈ criteria, ∃ trait ∈ token, trait.type = criterion.type ∧ criterion.Admits engine trait.value

/-- **The offer is for every token that the job bids on.** -/
def CoversTarget (criteria : List BiddingTraitCriterion) (target : List TraitTarget) : Prop :=
  ∀ token : Set TraitTarget, HasTarget token target → MeetsCriteria engine token criteria

/-- The offer asks for one trait, and the selector is for it. -/
def CoveredBy (criteria : List BiddingTraitCriterion) (selector : TraitSelector) : Prop :=
  ∃ criterion, criteria ≠ [] ∧ (∀ other ∈ criteria, other = criterion) ∧ selector.type = criterion.type ∧
    ∀ value, selector.value = some value → criterion.Admits engine value

end

section Meaning

variable {engine : OfferEngine} {criteria : List BiddingTraitCriterion} {target : List TraitTarget}

theorem biddingTraitValueMatches_iff {criterion : BiddingTraitCriterion} {value : String} :
    biddingTraitValueMatches engine criterion value = true ↔ criterion.Admits engine value := by
  unfold biddingTraitValueMatches BiddingTraitCriterion.Admits
  cases criterion with
  | exactValue trait => exact decide_eq_true_iff.trans eq_comm
  | numericRange type min max =>
    dsimp only
    cases numericTraitValue engine value with
    | none => exact iff_of_false Bool.false_ne_true fun ⟨_, hnone, _⟩ => nomatch hnone
    | some number =>
      simp only [Bool.decide_and, Bool.and_eq_true, decide_eq_true_iff, Option.some.injEq, exists_eq_left']

theorem biddingTraitsMatchToken_iff :
    biddingTraitsMatchToken engine criteria target = true ↔ MeetsCriteria engine { trait | trait ∈ target } criteria := by
  unfold biddingTraitsMatchToken MeetsCriteria
  rw [List.all_eq_true]
  refine forall₂_congr fun criterion _ => ?_
  rw [List.any_eq_true]
  refine exists_congr fun trait => and_congr_right fun _ => ?_
  rw [Bool.and_eq_true, decide_eq_true_iff, biddingTraitValueMatches_iff]

theorem MeetsCriteria.mono {token more : Set TraitTarget} (h : MeetsCriteria engine token criteria)
    (hsub : token ⊆ more) : MeetsCriteria engine more criteria := by
  intro criterion hcriterion
  obtain ⟨trait, htrait, hmeets⟩ := h criterion hcriterion
  exact ⟨trait, hsub htrait, hmeets⟩

/-- **Soundness and completeness of the list check.**  The token with no other traits than the target's is the
one that decides. -/
theorem biddingTraitsMatchToken_iff_covers :
    biddingTraitsMatchToken engine criteria target = true ↔ CoversTarget engine criteria target := by
  rw [biddingTraitsMatchToken_iff]
  constructor
  · intro h token htoken
    exact h.mono htoken
  · intro h
    exact h _ fun trait htrait => htrait

/-! ## 2. The criterion that a key is of -/

/-- The bounds of a range. -/
def BiddingTraitCriterion.bounds : BiddingTraitCriterion → List Rat
  | .exactValue _ => []
  | .numericRange _ min max => [min, max]

/-- The texts of the bounds are those of different numbers, and are texts of numbers: without a comma, and not
in quotes. -/
structure TraitEngine.WritesNumbersApart (engine : TraitEngine) (criteria : List BiddingTraitCriterion) : Prop where
  apart : ∀ a ∈ criteria.flatMap (·.bounds), ∀ b ∈ criteria.flatMap (·.bounds),
    engine.numberText a = engine.numberText b → a = b
  unquoted : ∀ a ∈ criteria.flatMap (·.bounds),
    ',' ∉ (engine.numberText a).toList ∧ '"' ∉ (engine.numberText a).toList

theorem toList_criterionJson_range {engine : TraitEngine} (type : String) (min max : Rat) :
    (criterionJson engine (.numericRange type min max)).toList = '[' :: (quoteChars type ++
        ',' :: ((engine.numberText min).toList ++ ',' :: ((engine.numberText max).toList ++ [']']))) := by
  unfold criterionJson
  simp only [String.toList_append, toList_quote]
  simp

/-- What comes after the type in a criterion's text. -/
def afterType (engine : TraitEngine) : BiddingTraitCriterion → List Char
  | .exactValue trait => ',' :: (quoteChars trait.value ++ [']'])
  | .numericRange _ min max =>
    ',' :: ((engine.numberText min).toList ++ ',' :: ((engine.numberText max).toList ++ [']']))

theorem toList_criterionJson_eq {engine : TraitEngine} (criterion : BiddingTraitCriterion) :
    (criterionJson engine criterion).toList = '[' :: (quoteChars criterion.type ++ afterType engine criterion) := by
  cases criterion with
  | exactValue trait => exact toList_criterionJson trait
  | numericRange type min max => exact toList_criterionJson_range type min max

theorem afterType_range_ne {engine : TraitEngine} {trait : TraitCriterion} {type : String} {min max : Rat}
    (hquote : '"' ∉ (engine.numberText min).toList) :
    afterType engine (.numericRange type min max) ≠ afterType engine (.exactValue trait) := by
  intro h
  have hrest := (List.cons.inj h).2
  unfold quoteChars at hrest
  cases hmin : (engine.numberText min).toList with
  | nil =>
    rw [hmin] at hrest
    exact absurd (List.cons.inj hrest).1 (by decide)
  | cons c rest =>
    rw [hmin] at hrest hquote
    exact hquote ((List.cons.inj hrest).1 ▸ List.mem_cons_self)

variable {c d : BiddingTraitCriterion}

theorem criterionJson_inj {engine : TraitEngine} (hapart : engine.WritesNumbersApart criteria)
    (hc : c ∈ criteria) (hd : d ∈ criteria)
    (h : criterionJson engine c = criterionJson engine d) : c = d := by
  have hchars := congrArg String.toList h
  rw [toList_criterionJson_eq, toList_criterionJson_eq] at hchars
  obtain ⟨htype, hrest⟩ := quoteChars_append_inj (List.cons.inj hchars).2
  have hbound : ∀ {e : BiddingTraitCriterion} {a : Rat}, e ∈ criteria → a ∈ e.bounds →
      a ∈ criteria.flatMap (·.bounds) := fun he ha => List.mem_flatMap.mpr ⟨_, he, ha⟩
  cases c with
  | exactValue trait =>
    cases d with
    | exactValue trait' =>
      have hvalue := (quoteChars_append_inj (List.cons.inj hrest).2).1
      cases trait
      cases trait'
      cases htype
      cases hvalue
      rfl
    | numericRange type min max =>
      exact absurd hrest.symm (afterType_range_ne (hapart.unquoted min (hbound hd List.mem_cons_self)).2)
  | numericRange type min max =>
    have hmin := hbound hc (List.mem_cons_self (l := [max]))
    have hmax := hbound hc (List.mem_cons_of_mem min (List.mem_singleton.mpr rfl))
    cases d with
    | exactValue trait =>
      exact absurd hrest (afterType_range_ne (hapart.unquoted min hmin).2)
    | numericRange type' min' max' =>
      have hmin' := hbound hd (List.mem_cons_self (l := [max']))
      have hmax' := hbound hd (List.mem_cons_of_mem min' (List.mem_singleton.mpr rfl))
      obtain ⟨hmins, hafter⟩ := append_cons_inj (hapart.unquoted min hmin).1 (hapart.unquoted min' hmin').1
        (List.cons.inj hrest).2
      have hmaxs := List.append_cancel_right hafter
      have htypes : type = type' := htype
      rw [htypes, hapart.apart min hmin min' hmin' (String.toList_injective hmins),
        hapart.apart max hmax max' hmax' (String.toList_injective hmaxs)]

theorem criterionKey_inj {engine : TraitEngine} (hapart : engine.WritesNumbersApart criteria)
    (hc : c ∈ criteria) (hd : d ∈ criteria)
    (h : criterionKey engine c = criterionKey engine d) : c = d := by
  refine criterionJson_inj hapart hc hd (String.toList_injective ?_)
  have hchars := congrArg String.toList h
  unfold criterionKey biddingTraitCriteriaKey at hchars
  have hsingle : ∀ e : BiddingTraitCriterion, sortCriteria engine [e] = [e] := fun e => rfl
  rw [hsingle, hsingle] at hchars
  simp only [List.map_singleton, String.toList_append, String.toList_intercalate, List.intercalate_singleton] at hchars
  exact List.append_cancel_left (List.append_cancel_right hchars)

/-! ## 3. Which offers compete -/

theorem matchesTraitCompetition_of_nil (h : criteria = [] ∨ target = []) (extras : List TraitSelector) :
    matchesTraitCompetition engine criteria target extras = false := by
  unfold matchesTraitCompetition
  cases criteria with
  | nil => rfl
  | cons first rest => exact if_pos (h.resolve_left (List.cons_ne_nil _ _))

theorem matchesTraitCompetition_cons {first : BiddingTraitCriterion} {rest : List BiddingTraitCriterion}
    (htarget : target ≠ []) {extras : List TraitSelector} :
    matchesTraitCompetition engine (first :: rest) target extras = true ↔
      biddingTraitsMatchToken engine (first :: rest) target = true ∨
        (∀ trait ∈ first :: rest, criterionKey engine.toTraitEngine trait = criterionKey engine.toTraitEngine first) ∧
          ∃ selector ∈ extras, selector.type = first.type ∧
            ∀ value, selector.value = some value → first.Admits engine value := by
  unfold matchesTraitCompetition
  dsimp only
  rw [if_neg htarget]
  split
  · next hmatch => exact iff_of_true rfl (.inl hmatch)
  next hmatch =>
  rw [or_iff_right hmatch, Bool.and_eq_true, List.all_eq_true, List.any_eq_true]
  refine and_congr ?_ (exists_congr fun selector => and_congr_right fun _ => ?_)
  · exact forall₂_congr fun trait _ => decide_eq_true_iff
  rw [Bool.and_eq_true, decide_eq_true_iff]
  refine and_congr_right fun _ => ?_
  cases selector.value with
  | none => exact iff_of_true rfl fun _ hnone => nomatch hnone
  | some value => simp only [biddingTraitValueMatches_iff, Option.some.injEq, forall_eq']

/-- **Trait competition.**  An offer without criteria and a job without target traits never compete.  Without
extra traits an offer competes exactly when it is for every token that the job bids on; with extra traits,
when it is, or asks for one trait only and an extra trait is for that. -/
theorem matchesTraitCompetition_iff (engine : OfferEngine) (criteria : List BiddingTraitCriterion)
    (target : List TraitTarget) :
    (criteria = [] ∨ target = [] →
      ∀ extras, matchesTraitCompetition engine criteria target extras = false) ∧
    (criteria ≠ [] →
      (matchesTraitCompetition engine criteria target [] = true ↔ CoversTarget engine criteria target)) ∧
    (criteria ≠ [] → target ≠ [] → engine.toTraitEngine.WritesNumbersApart criteria →
      ∀ extras, matchesTraitCompetition engine criteria target extras = true ↔
        CoversTarget engine criteria target ∨ ∃ selector ∈ extras, CoveredBy engine criteria selector) := by
  refine ⟨matchesTraitCompetition_of_nil, fun hcriteria => ?_, fun hcriteria htarget hapart extras => ?_⟩
  · rw [← biddingTraitsMatchToken_iff_covers]
    cases criteria with
    | nil => exact absurd rfl hcriteria
    | cons first rest =>
      by_cases htarget : target = []
      · subst htarget
        exact iff_of_false (Bool.eq_false_iff.mp (matchesTraitCompetition_of_nil (.inr rfl) [])) Bool.false_ne_true
      · rw [matchesTraitCompetition_cons htarget]
        exact or_iff_left fun ⟨_, _, hmem, _⟩ => List.not_mem_nil hmem
  · rw [← biddingTraitsMatchToken_iff_covers]
    cases criteria with
    | nil => exact absurd rfl hcriteria
    | cons first rest =>
      rw [matchesTraitCompetition_cons htarget]
      refine or_congr_right ⟨?_, ?_⟩
      · rintro ⟨hall, selector, hmem, hcover⟩
        refine ⟨selector, hmem, first, hcriteria, fun other hother => ?_, hcover⟩
        exact criterionKey_inj hapart hother List.mem_cons_self (hall other hother)
      rintro ⟨selector, hmem, criterion, -, hall, hcover⟩
      have hfirst := hall first List.mem_cons_self
      subst hfirst
      exact ⟨fun other hother => by rw [hall other hother], selector, hmem, hcover⟩

end Meaning

theorem no_criteria_no_competition :
    ¬ ∀ criteria target, matchesTraitCompetition asciiEngine criteria target [] = true ↔
      CoversTarget asciiEngine criteria target := by
  intro h
  have hcompetes := (h [] [⟨"Mode", "Terrain"⟩]).mpr fun token _ criterion hmem => absurd hmem List.not_mem_nil
  exact absurd hcompetes (by decide)

/-! ## 4. One form for extra traits -/

/-- An entry without the white space around it. -/
def TraitSelector.trim (entry : TraitSelector) : TraitSelector := ⟨Js.trim entry.type, entry.value.map Js.trim⟩

/-- A trait key is missing, or a value that is there is blank. -/
def TraitSelector.IsBlank (entry : TraitSelector) : Prop :=
  Js.trim entry.type = "" ∨ ∃ value, entry.value = some value ∧ Js.trim value = ""

/-- The list has an all-values selector for the key of this value. -/
def SubsumedIn (selectors : List TraitSelector) (selector : TraitSelector) : Prop :=
  selector.value ≠ none ∧ ⟨selector.type, none⟩ ∈ selectors

/-- The list is in the one form: trimmed, each entry once and none included in another, in the order of the
keys. -/
structure IsCanonical (selectors : List TraitSelector) : Prop where
  trimmed : ∀ s ∈ selectors, s.trim = s
  nodup : selectors.Nodup
  unsubsumed : ∀ s ∈ selectors, ¬ SubsumedIn selectors s
  sorted : selectors.Pairwise fun a b => utf16Units (competitionSelectorKey a) ≤ utf16Units (competitionSelectorKey b)

theorem TraitSelector.trim_trim (entry : TraitSelector) : entry.trim.trim = entry.trim := by
  unfold TraitSelector.trim
  dsimp only
  rw [Js.trim_trim, Option.map_map, show Js.trim ∘ Js.trim = Js.trim from funext Js.trim_trim]

theorem TraitSelector.isBlank_trim {entry : TraitSelector} : entry.trim.IsBlank ↔ entry.IsBlank := by
  unfold TraitSelector.IsBlank TraitSelector.trim
  dsimp only
  rw [Js.trim_trim]
  refine or_congr_right ⟨?_, ?_⟩
  · rintro ⟨value, hvalue, hblank⟩
    obtain ⟨original, horiginal, rfl⟩ := Option.map_eq_some_iff.mp hvalue
    exact ⟨original, horiginal, by rw [← Js.trim_trim, hblank]⟩
  · rintro ⟨value, hvalue, hblank⟩
    exact ⟨Js.trim value, by rw [hvalue, Option.map_some], by rw [Js.trim_trim, hblank]⟩

theorem competitionSelectorKey_injective {s t : TraitSelector}
    (h : competitionSelectorKey s = competitionSelectorKey t) : s = t := by
  have hlist : ∀ s : TraitSelector, (competitionSelectorKey s).toList =
      '[' :: (quoteChars s.type ++ ',' :: (((s.value.map quote).getD "null").toList ++ [']'])) := by
    intro s
    unfold competitionSelectorKey
    simp only [String.toList_append, toList_quote]
    simp
  have hchars := congrArg String.toList h
  rw [hlist, hlist] at hchars
  obtain ⟨htype, hrest⟩ := quoteChars_append_inj (List.cons.inj hchars).2
  have hvalue := List.append_cancel_right (List.cons.inj hrest).2
  obtain ⟨type, value⟩ := s
  obtain ⟨type', value'⟩ := t
  cases htype
  congr 1
  -- a quoted text begins with a quote
  have hnull : ∀ text, "null".toList ≠ (quote text).toList := by
    intro text heq
    rw [toList_quote, show "null".toList = ['n', 'u', 'l', 'l'] by simp] at heq
    exact absurd (List.cons.inj heq).1 (by decide)
  cases value with
  | none =>
    cases value' with
    | none => rfl
    | some text' => exact absurd hvalue (hnull text')
  | some text =>
    cases value' with
    | none => exact absurd hvalue.symm (hnull text)
    | some text' =>
      have hquoted : (quote text).toList = (quote text').toList := hvalue
      rw [toList_quote, toList_quote, ← List.append_nil (quoteChars text), ← List.append_nil (quoteChars text')]
        at hquoted
      rw [(quoteChars_append_inj hquoted).1]

theorem dedupeTradingCompetitionSelectors_eq_dropSeen (selectors : List TraitSelector) (seen : List String) :
    dedupeTradingCompetitionSelectors selectors seen = dropSeen competitionSelectorKey seen selectors := by
  induction selectors generalizing seen with
  | nil => rfl
  | cons selector rest ih =>
    unfold dedupeTradingCompetitionSelectors dropSeen
    rw [ih, ih]

/-- What the entries are made into. -/
def widestSelectors (value : List TraitSelector) : List TraitSelector :=
  let selectors := value.map TraitSelector.trim
  let wholeKeys := (selectors.filter (fun entry => entry.value.isNone)).map (·.type)
  let kept := selectors.filter (fun entry =>
    entry.value.isNone || wholeKeys.all (fun key => key ≠ entry.type))
  (dedupeTradingCompetitionSelectors kept []).insertionSort
    (fun a b => utf16Units (competitionSelectorKey a) ≤ utf16Units (competitionSelectorKey b))

variable {selectors value : List TraitSelector}

theorem normalizeExtraCompetitionTraits_eq_ok : normalizeExtraCompetitionTraits value = .ok selectors ↔
      value.length ≤ maxExtraCompetitionTraits ∧ (∀ entry ∈ value, ¬ entry.IsBlank) ∧
        widestSelectors value = selectors := by
  have hblank : (value.any fun entry =>
      decide (Js.trim entry.type = "") || entry.value.any fun v => decide (Js.trim v = "")) = true ↔
      ∃ entry ∈ value, entry.IsBlank := by
    rw [List.any_eq_true]
    refine exists_congr fun entry => and_congr_right fun _ => ?_
    rw [Bool.or_eq_true, decide_eq_true_iff, Option.any_eq_true]
    simp only [decide_eq_true_iff]
    rfl
  unfold normalizeExtraCompetitionTraits
  split
  · next hlong => exact iff_of_false (fun h => nomatch h) fun h => absurd h.1 (by omega)
  next hshort =>
  split
  · next hany =>
    obtain ⟨entry, hmem, hentry⟩ := hblank.mp hany
    exact iff_of_false (fun h => nomatch h) fun h => h.2.1 entry hmem hentry
  next hnone =>
  have hkept : ∀ entry ∈ value, ¬ entry.IsBlank := fun entry hmem hentry => hnone (hblank.mpr ⟨entry, hmem, hentry⟩)
  rw [Except.ok.injEq]
  exact ⟨fun h => ⟨by omega, hkept, h⟩, fun h => h.2.2⟩

/-- **What is left:** every entry that no all-values selector includes. -/
theorem mem_widestSelectors {selector : TraitSelector} :
    selector ∈ widestSelectors value ↔
      selector ∈ value.map TraitSelector.trim ∧ ¬ SubsumedIn (value.map TraitSelector.trim) selector := by
  unfold widestSelectors
  dsimp only
  rw [(List.perm_insertionSort _ _).mem_iff, dedupeTradingCompetitionSelectors_eq_dropSeen,
    mem_dropSeen fun a _ b _ => competitionSelectorKey_injective, List.mem_filter, and_iff_left List.not_mem_nil]
  refine and_congr_right fun _ => ?_
  unfold SubsumedIn
  rw [Bool.or_eq_true, Option.isNone_iff_eq_none, List.all_eq_true, not_and_or, not_not]
  refine or_congr_right ⟨fun hall hmem => ?_, fun hnot key hkey => ?_⟩
  · have hkey := hall selector.type (List.mem_map.mpr ⟨_, List.mem_filter.mpr ⟨hmem, rfl⟩, rfl⟩)
    exact of_decide_eq_true hkey rfl
  obtain ⟨entry, hentry, rfl⟩ := List.mem_map.mp hkey
  obtain ⟨hmem, hnone⟩ := List.mem_filter.mp hentry
  refine decide_eq_true fun htype => hnot ?_
  rw [← htype, ← Option.isNone_iff_eq_none.mp hnone]
  exact hmem

theorem isCanonical_widestSelectors (value : List TraitSelector) : IsCanonical (widestSelectors value) where
  trimmed := by
    intro s hs
    obtain ⟨entry, -, rfl⟩ := List.mem_map.mp (mem_widestSelectors.mp hs).1
    exact entry.trim_trim
  nodup := by
    unfold widestSelectors
    dsimp only
    rw [(List.perm_insertionSort _ _).nodup_iff, dedupeTradingCompetitionSelectors_eq_dropSeen]
    exact List.Nodup.of_map _ (nodup_map_dropSeen _ _)
  unsubsumed := by
    intro s hs ⟨hvalue, hwhole⟩
    exact (mem_widestSelectors.mp hs).2 ⟨hvalue, (mem_widestSelectors.mp hwhole).1⟩
  sorted := by
    have htotal : Std.Total fun a b : TraitSelector =>
        utf16Units (competitionSelectorKey a) ≤ utf16Units (competitionSelectorKey b) := ⟨fun a b => le_total _ _⟩
    have htrans : IsTrans TraitSelector fun a b =>
        utf16Units (competitionSelectorKey a) ≤ utf16Units (competitionSelectorKey b) := ⟨fun a b c => le_trans⟩
    exact List.pairwise_insertionSort _ _

theorem IsCanonical.eq_of_mem_iff {a b : List TraitSelector} (ha : IsCanonical a) (hb : IsCanonical b)
    (h : ∀ s, s ∈ a ↔ s ∈ b) : a = b := by
  refine List.Perm.eq_of_pairwise (fun s t _ _ hle hge => ?_) ha.sorted hb.sorted ?_
  · exact competitionSelectorKey_injective (utf16Units_injective (le_antisymm hle hge))
  · exact (List.perm_ext_iff_of_nodup ha.nodup hb.nodup).mpr h

theorem map_trim_of_trimmed (h : ∀ s ∈ value, s.trim = s) : value.map TraitSelector.trim = value := by
  rw [List.map_congr_left h, List.map_id']

theorem length_widestSelectors_le (value : List TraitSelector) : (widestSelectors value).length ≤ value.length := by
  unfold widestSelectors
  dsimp only
  rw [List.length_insertionSort, dedupeTradingCompetitionSelectors_eq_dropSeen]
  calc _ ≤ _ := (dropSeen_sublist _ _).length_le
    _ ≤ (value.map TraitSelector.trim).length := List.length_filter_le _ _
    _ = value.length := List.length_map _

theorem normalizeExtraCompetitionTraits_eq (value : List TraitSelector) :
    normalizeExtraCompetitionTraits value =
      if maxExtraCompetitionTraits < value.length then
        .error (.traitCompetitionValidation "Extra targets must be a list of at most 64 entries.")
      else if value.any (fun entry => Js.trim entry.type = "" || entry.value.any (fun v => Js.trim v = "")) then
        .error (.traitCompetitionValidation "Choose a trait key and either all values or a nonempty value.")
      else .ok (widestSelectors value) := rfl

/-- **Order does not matter,** neither for the result nor for the error. -/
theorem normalizeExtraCompetitionTraits_perm {value' : List TraitSelector} (h : value.Perm value') :
    normalizeExtraCompetitionTraits value = normalizeExtraCompetitionTraits value' := by
  have hsame : widestSelectors value = widestSelectors value' := by
    refine (isCanonical_widestSelectors value).eq_of_mem_iff (isCanonical_widestSelectors value') fun s => ?_
    have htrim : ∀ t, t ∈ value.map TraitSelector.trim ↔ t ∈ value'.map TraitSelector.trim :=
      fun t => (h.map _).mem_iff
    rw [mem_widestSelectors, mem_widestSelectors]
    unfold SubsumedIn
    rw [htrim, htrim]
  rw [normalizeExtraCompetitionTraits_eq, normalizeExtraCompetitionTraits_eq, h.length_eq, h.any_eq, hsame]

/-- **The form is normal:** what is made of a list is made into itself. -/
theorem normalizeExtraCompetitionTraits_idempotent
    (h : normalizeExtraCompetitionTraits value = .ok selectors) :
    normalizeExtraCompetitionTraits selectors = .ok selectors := by
  obtain ⟨hlength, hfilled, rfl⟩ := normalizeExtraCompetitionTraits_eq_ok.mp h
  have hcanonical := isCanonical_widestSelectors value
  refine normalizeExtraCompetitionTraits_eq_ok.mpr
    ⟨(length_widestSelectors_le value).trans hlength, fun s hs hblank => ?_, ?_⟩
  · obtain ⟨entry, hentry, rfl⟩ := List.mem_map.mp (mem_widestSelectors.mp hs).1
    exact hfilled entry hentry (TraitSelector.isBlank_trim.mp hblank)
  · refine (isCanonical_widestSelectors _).eq_of_mem_iff hcanonical fun s => ?_
    rw [mem_widestSelectors, map_trim_of_trimmed hcanonical.trimmed]
    exact and_iff_left_of_imp (hcanonical.unsubsumed s)

/-- **The same offers compete** with the entries, trimmed, and with what is made of them. -/
theorem matchesTraitCompetition_widestSelectors (engine : OfferEngine) (criteria : List BiddingTraitCriterion)
    (target : List TraitTarget) (value : List TraitSelector) :
    matchesTraitCompetition engine criteria target (widestSelectors value) =
      matchesTraitCompetition engine criteria target (value.map TraitSelector.trim) := by
  by_cases hnil : criteria = [] ∨ target = []
  · rw [matchesTraitCompetition_of_nil hnil, matchesTraitCompetition_of_nil hnil]
  obtain ⟨hcriteria, htarget⟩ := not_or.mp hnil
  cases criteria with
  | nil => exact absurd rfl hcriteria
  | cons first rest =>
    rw [Bool.eq_iff_iff, matchesTraitCompetition_cons htarget, matchesTraitCompetition_cons htarget]
    refine or_congr_right (and_congr_right fun _ => ⟨?_, ?_⟩)
    · rintro ⟨selector, hmem, hcover⟩
      exact ⟨selector, (mem_widestSelectors.mp hmem).1, hcover⟩
    rintro ⟨selector, hmem, htype, hvalue⟩
    by_cases hsub : SubsumedIn (value.map TraitSelector.trim) selector
    · -- the all-values selector takes its place
      refine ⟨⟨selector.type, none⟩, mem_widestSelectors.mpr ⟨hsub.2, fun h => h.1 rfl⟩, htype, ?_⟩
      exact fun _ hnone => nomatch hnone
    · exact ⟨selector, mem_widestSelectors.mpr ⟨hmem, hsub⟩, htype, hvalue⟩

/-- **Extra traits have one form.**  The order of the entries does not matter; what is made of them is made into
itself, has no entry twice and none that an all-values entry includes; and the same offers compete with it as
with the entries, trimmed, which are the entries where no white space stands around them. -/
theorem extraCompetitionTraits_canonical (value : List TraitSelector) : (∀ value', value.Perm value' →
      normalizeExtraCompetitionTraits value' = normalizeExtraCompetitionTraits value) ∧
    ∀ selectors, normalizeExtraCompetitionTraits value = .ok selectors →
      normalizeExtraCompetitionTraits selectors = .ok selectors ∧
      selectors.Nodup ∧
      (∀ selector ∈ selectors, ¬ SubsumedIn selectors selector) ∧
      (∀ engine criteria target, matchesTraitCompetition engine criteria target selectors =
        matchesTraitCompetition engine criteria target (value.map TraitSelector.trim)) ∧
      ((∀ entry ∈ value, entry.trim = entry) → ∀ engine criteria target,
        matchesTraitCompetition engine criteria target selectors =
          matchesTraitCompetition engine criteria target value) := by
  refine ⟨fun value' h => (normalizeExtraCompetitionTraits_perm h).symm, fun selectors h => ?_⟩
  have hidempotent := normalizeExtraCompetitionTraits_idempotent h
  obtain ⟨-, -, rfl⟩ := normalizeExtraCompetitionTraits_eq_ok.mp h
  have hcanonical := isCanonical_widestSelectors value
  refine ⟨hidempotent, hcanonical.nodup, hcanonical.unsubsumed, fun engine criteria target => ?_,
    fun htrimmed engine criteria target => ?_⟩
  · exact matchesTraitCompetition_widestSelectors engine criteria target value
  · rw [matchesTraitCompetition_widestSelectors, map_trim_of_trimmed htrimmed]

theorem untrimmed_extra_competes_once_normalized :
    ∃ value selectors criteria target, normalizeExtraCompetitionTraits value = .ok selectors ∧
      matchesTraitCompetition asciiEngine criteria target selectors ≠
        matchesTraitCompetition asciiEngine criteria target value :=
  ⟨[⟨" Mode", none⟩], [⟨"Mode", none⟩], [.exactValue ⟨"Mode", "Terrain"⟩], [⟨"Biome", "1"⟩],
    by decide +kernel, by decide +kernel⟩

end Artgod.Trading
