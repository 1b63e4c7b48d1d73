/-
# Signatures of hot-refresh events

Events of one lane that have one signature are coalesced.  The signature of a trait event joins `type=value` of
its criteria with `|`, and says nothing of the bounds of a range.  `Unambiguous` events share it with no event of
another scope; two events whose texts avoid the separators are told apart (`separated_of_plain`).
-/
import Artgod.Js.Joined
import Artgod.Trading.HotRefreshLanes

namespace Artgod.Trading

open Js HotRefreshBackpressure

/-! ## 1. Scopes -/

/-- The events denote one collection and one scope: for trait events, the same criteria. -/
def SameScope (e e' : MarketEvent) : Prop :=
  e.collectionSlug = e'.collectionSlug ∧ e.scope = e'.scope ∧
    (e.scope = .trait → ∀ c, c ∈ e.traitCriteria ↔ c ∈ e'.traitCriteria)

/-- Events that can be in a lane are in the same one. -/
def SameLane (e e' : MarketEvent) : Prop :=
  isSupportedHotRefreshEvent e = true ∧ isSupportedHotRefreshEvent e' = true ∧ createLaneKey e = createLaneKey e'

/-- Events of one lane that are coalesced have one scope. -/
def Separated (e e' : MarketEvent) : Prop :=
  SameLane e e' → createEventSignature e = createEventSignature e' → SameScope e e'

/-- The criterion is spelled without the characters that the signature is built with, but for `=` in its
value, and is not a range. -/
def PlainCriterion : BiddingTraitCriterion → Prop
  | .exactValue trait => '=' ∉ trait.type.toList ∧ '|' ∉ trait.type.toList ∧ '|' ∉ trait.value.toList
  | .numericRange _ _ _ => False

/-- Nothing else has the signature: the event has no criteria, or an exact one that has no other reading. -/
def Unambiguous (e : MarketEvent) : Prop :=
  e.scope ≠ .trait ∨ e.traitCriteria = [] ∨
    ∃ trait, e.traitCriteria = [.exactValue trait] ∧ '=' ∉ trait.type.toList ∧ '=' ∉ trait.value.toList ∧
      trait.value ≠ "undefined"

/-! ## 2. Texts -/

/-- The characters of a criterion in the signature. -/
def criterionChars (c : BiddingTraitCriterion) : List Char := (criterionSignature c).toList

theorem criterionChars_eq (c : BiddingTraitCriterion) :
    criterionChars c = c.type.toList ++ '=' :: (c.value.getD "undefined").toList := by
  unfold criterionChars criterionSignature
  simp

theorem count_criterionChars_pos (c : BiddingTraitCriterion) : 0 < (criterionChars c).count '=' := by
  rw [criterionChars_eq, List.count_append, List.count_cons_self]
  omega

theorem toList_formatTraitCriteriaSignature (e : MarketEvent) : (formatTraitCriteriaSignature e).toList =
      ['|'].intercalate ((sortTexts (e.traitCriteria.map criterionSignature)).map String.toList) := by
  rw [formatTraitCriteriaSignature, String.toList_intercalate]
  rfl

theorem sortTexts_perm (texts : List String) : (sortTexts texts).Perm texts :=
  List.perm_insertionSort ..

variable {e e' : MarketEvent} {c : BiddingTraitCriterion}

theorem mem_texts {text : List Char} :
    text ∈ (sortTexts (e.traitCriteria.map criterionSignature)).map String.toList ↔
      ∃ c ∈ e.traitCriteria, criterionChars c = text := by
  rw [List.mem_map]
  constructor
  · rintro ⟨s, hs, rfl⟩
    obtain ⟨c, hc, rfl⟩ := List.mem_map.mp ((sortTexts_perm _).mem_iff.mp hs)
    exact ⟨c, hc, rfl⟩
  · rintro ⟨c, hc, rfl⟩
    exact ⟨criterionSignature c, (sortTexts_perm _).mem_iff.mpr (List.mem_map_of_mem hc), rfl⟩

theorem length_texts (e : MarketEvent) :
    ((sortTexts (e.traitCriteria.map criterionSignature)).map String.toList).length =
      e.traitCriteria.length := by
  rw [List.length_map, (sortTexts_perm _).length_eq, List.length_map]

theorem formatTraitCriteriaSignature_single
    (h : e.traitCriteria = [c]) : formatTraitCriteriaSignature e = criterionSignature c := by
  unfold formatTraitCriteriaSignature
  rw [h]
  simp [sortTexts]

theorem length_le_count (e : MarketEvent) :
    e.traitCriteria.length ≤ (formatTraitCriteriaSignature e).toList.count '=' := by
  rw [toList_formatTraitCriteriaSignature, count_intercalate (by decide), ← length_texts e]
  have hpos : ∀ n ∈ ((sortTexts (e.traitCriteria.map criterionSignature)).map String.toList).map
      (List.count '='), 1 ≤ n := by
    intro n hn
    obtain ⟨text, htext, rfl⟩ := List.mem_map.mp hn
    obtain ⟨c, -, rfl⟩ := mem_texts.mp htext
    exact count_criterionChars_pos c
  have hsum := List.length_le_sum_of_one_le _ hpos
  rw [List.length_map] at hsum
  exact hsum

/-! ## 3. Lanes -/

theorem append_left_cancel {p a b : String} (h : p ++ a = p ++ b) : a = b := by
  have hchars := congrArg String.toList h
  rw [String.toList_append, String.toList_append] at hchars
  exact String.toList_inj.mp (List.append_cancel_left hchars)

theorem append_right_cancel {a b q : String} (h : a ++ q = b ++ q) : a = b := by
  have hchars := congrArg String.toList h
  rw [String.toList_append, String.toList_append] at hchars
  exact String.toList_inj.mp (List.append_cancel_right hchars)

theorem head_createEventSignature {e : MarketEvent} :
    (createEventSignature e).toList.head? =
      some (if e.scope = .item then 'i' else if e.scope = .trait then 't' else 'c') := by
  unfold createEventSignature
  split
  · simp
  · split
    · simp
    · rfl

theorem scope_of_signature (h : isSupportedHotRefreshEvent e = true)
    (h' : isSupportedHotRefreshEvent e' = true)
    (hsignature : createEventSignature e = createEventSignature e') : e.scope = e'.scope := by
  have hhead := @head_createEventSignature e
  rw [hsignature, head_createEventSignature] at hhead
  unfold isSupportedHotRefreshEvent isBroadHotRefreshEvent at h h'
  cases hscope : e.scope <;> cases hscope' : e'.scope <;> simp_all

theorem slug_of_lane (hlane : createLaneKey e = createLaneKey e')
    (hscope : e.scope = e'.scope) (hsignature : createEventSignature e = createEventSignature e') :
    e.collectionSlug = e'.collectionSlug := by
  unfold createLaneKey at hlane
  unfold createEventSignature at hsignature
  rw [← hscope] at hlane hsignature
  by_cases hitem : e.scope = .item
  · rw [if_pos hitem, if_pos hitem] at hlane hsignature
    rw [append_left_cancel hsignature] at hlane
    exact append_left_cancel (append_right_cancel (append_right_cancel hlane))
  · rw [if_neg hitem, if_neg hitem] at hlane
    exact append_left_cancel hlane

/-- **What is left to tell apart** are trait events with one joined text. -/
theorem separated_of_traits (h : e.scope = .trait → e'.scope = .trait →
      formatTraitCriteriaSignature e = formatTraitCriteriaSignature e' →
      ∀ c, c ∈ e.traitCriteria ↔ c ∈ e'.traitCriteria) : Separated e e' := by
  rintro ⟨hs, hs', hlane⟩ hsignature
  have hscope := scope_of_signature hs hs' hsignature
  refine ⟨slug_of_lane hlane hscope hsignature, hscope, fun htrait => ?_⟩
  have htrait' : e'.scope = .trait := hscope.symm.trans htrait
  refine h htrait htrait' ?_
  unfold createEventSignature at hsignature
  rw [if_neg (by rw [htrait]; decide), if_pos htrait, if_neg (by rw [htrait']; decide), if_pos htrait']
    at hsignature
  exact append_left_cancel hsignature

theorem not_separated (htrait : e.scope = .trait) (htrait' : e'.scope = .trait)
    (hslug : e.collectionSlug = e'.collectionSlug)
    (htext : formatTraitCriteriaSignature e = formatTraitCriteriaSignature e')
    (hdiffer : ¬ ∀ c, c ∈ e.traitCriteria ↔ c ∈ e'.traitCriteria) : ¬ Separated e e' := by
  intro h
  have hlane : SameLane e e' := by
    refine ⟨?_, ?_, ?_⟩
    · simp [isSupportedHotRefreshEvent, isBroadHotRefreshEvent, htrait]
    · simp [isSupportedHotRefreshEvent, isBroadHotRefreshEvent, htrait']
    · simp [createLaneKey, htrait, htrait', hslug]
  have hsignature : createEventSignature e = createEventSignature e' := by
    simp [createEventSignature, htrait, htrait', htext]
  exact hdiffer ((h hlane hsignature).2.2 htrait)

/-! ## 4. Which signatures stand for one scope -/

theorem criterion_of_text {trait : TraitCriterion} (htype : '=' ∉ trait.type.toList)
    (hvalue : '=' ∉ trait.value.toList) (hdefined : trait.value ≠ "undefined")
    (h : criterionSignature c = criterionSignature (.exactValue trait)) : c = .exactValue trait := by
  have hchars : criterionChars c = criterionChars (.exactValue trait) := congrArg String.toList h
  have hcount := congrArg (List.count '=') hchars
  rw [criterionChars_eq, criterionChars_eq] at hchars hcount
  simp only [List.count_append, List.count_cons_self] at hcount
  rw [show (BiddingTraitCriterion.exactValue trait).type = trait.type from rfl,
    show (BiddingTraitCriterion.exactValue trait).value.getD "undefined" = trait.value from rfl,
    List.count_eq_zero_of_not_mem htype, List.count_eq_zero_of_not_mem hvalue] at hcount
  have htype' : '=' ∉ c.type.toList := List.count_eq_zero.mp (by omega)
  obtain ⟨htypes, hvalues⟩ := append_cons_inj htype' htype hchars
  have hvalue' := String.toList_inj.mp hvalues
  have htype'' := String.toList_inj.mp htypes
  cases c with
  | exactValue trait' =>
    cases trait
    cases trait'
    simp only [BiddingTraitCriterion.exactValue.injEq, TraitCriterion.mk.injEq]
    exact ⟨htype'', hvalue'⟩
  | numericRange type min max => exact absurd hvalue'.symm hdefined

theorem Unambiguous.separated (h : Unambiguous e) (e' : MarketEvent) : Separated e e' := by
  refine separated_of_traits fun htrait htrait' htext c => ?_
  have hcount := length_le_count e'
  rw [← htext] at hcount
  rcases h with hscope | hnone | ⟨trait, hone, htype, hvalue, hdefined⟩
  · exact absurd htrait hscope
  · have hempty : formatTraitCriteriaSignature e = "" := by
      unfold formatTraitCriteriaSignature
      rw [hnone]
      rfl
    rw [hempty] at hcount
    have hnone' : e'.traitCriteria = [] := List.eq_nil_of_length_eq_zero (Nat.le_zero.mp hcount)
    rw [hnone, hnone']
  · have hcountOne : (formatTraitCriteriaSignature e).toList.count '=' = 1 := by
      rw [formatTraitCriteriaSignature_single hone]
      show (criterionChars _).count '=' = 1
      rw [criterionChars_eq, List.count_append, List.count_cons_self]
      show trait.type.toList.count '=' + (trait.value.toList.count '=' + 1) = 1
      rw [List.count_eq_zero_of_not_mem htype, List.count_eq_zero_of_not_mem hvalue]
    rw [hcountOne] at hcount
    match hcriteria : e'.traitCriteria with
    | [] =>
      -- no criteria have the empty text
      have hempty : formatTraitCriteriaSignature e' = "" := by
        unfold formatTraitCriteriaSignature
        rw [hcriteria]
        rfl
      rw [htext, hempty] at hcountOne
      exact absurd hcountOne (by decide)
    | [c'] =>
      have heq : c' = .exactValue trait := by
        refine criterion_of_text htype hvalue hdefined ?_
        rw [← formatTraitCriteriaSignature_single hcriteria, ← formatTraitCriteriaSignature_single hone, htext]
      rw [hone, heq]
    | _ :: _ :: rest =>
      rw [hcriteria] at hcount
      simp at hcount

theorem exactValue_of_text {text a b : List Char} (h : text = a ++ '=' :: b) :
    criterionChars (.exactValue ⟨String.ofList a, String.ofList b⟩) = text := by
  rw [criterionChars_eq, h]
  show (String.ofList a).toList ++ '=' :: (String.ofList b).toList = _
  rw [String.toList_ofList, String.toList_ofList]

theorem not_separated_of_text (htrait : e.scope = .trait)
    (htext : criterionChars c = (formatTraitCriteriaSignature e).toList)
    (hother : ∃ c' ∈ e.traitCriteria, c' ≠ c) : ¬ Separated e { e with traitCriteria := [c] } := by
  refine not_separated htrait htrait rfl ?_ fun hsame => ?_
  · rw [formatTraitCriteriaSignature_single (e := { e with traitCriteria := [c] }) rfl]
    exact String.toList_inj.mp htext.symm
  · obtain ⟨c', hc', hne⟩ := hother
    exact hne (List.mem_singleton.mp ((hsame c').mp hc'))

theorem mistaken_of_ambiguous (h : ¬ Unambiguous e) : ∃ e', ¬ Separated e e' := by
  unfold Unambiguous at h
  push Not at h
  obtain ⟨htrait, hsome, hone⟩ := h
  match hcriteria : e.traitCriteria with
  | [] => exact absurd hcriteria hsome
  | [c] =>
    have htext : (formatTraitCriteriaSignature e).toList = criterionChars c := by
      rw [formatTraitCriteriaSignature_single hcriteria]
      rfl
    have hmem : c ∈ e.traitCriteria := by
      rw [hcriteria]
      exact List.mem_singleton_self c
    cases c with
    | numericRange type min max =>
      -- other bounds, the same text
      refine ⟨_, not_separated_of_text (c := .numericRange type (min - 1) max) htrait htext.symm
        ⟨_, hmem, fun heq => ?_⟩⟩
      have hmin := (BiddingTraitCriterion.numericRange.inj heq).2.1
      exact absurd hmin (sub_one_lt min).ne'
    | exactValue trait =>
      by_cases htype : '=' ∈ trait.type.toList
      · -- the type ends at its first `=`
        obtain ⟨a, b, hab⟩ := List.append_of_mem htype
        have hsplit : (formatTraitCriteriaSignature e).toList =
            a ++ '=' :: (b ++ '=' :: trait.value.toList) := by
          rw [htext, criterionChars_eq]
          show trait.type.toList ++ '=' :: trait.value.toList = _
          rw [hab, List.append_assoc]
          rfl
        refine ⟨_, not_separated_of_text htrait (exactValue_of_text hsplit) ⟨_, hmem, fun heq => ?_⟩⟩
        have htypes := congrArg TraitCriterion.type (BiddingTraitCriterion.exactValue.inj heq)
        have hlength := congrArg (fun s => s.toList.length) htypes
        simp only [String.toList_ofList, hab, List.length_append, List.length_cons] at hlength
        omega
      by_cases hvalue : '=' ∈ trait.value.toList
      · -- the type goes on to a `=` of the value
        obtain ⟨a, b, hab⟩ := List.append_of_mem hvalue
        have hsplit : (formatTraitCriteriaSignature e).toList =
            (trait.type.toList ++ '=' :: a) ++ '=' :: b := by
          rw [htext, criterionChars_eq]
          show trait.type.toList ++ '=' :: trait.value.toList = _
          rw [hab, List.append_assoc]
          rfl
        refine ⟨_, not_separated_of_text htrait (exactValue_of_text hsplit) ⟨_, hmem, fun heq => ?_⟩⟩
        have htypes := congrArg TraitCriterion.type (BiddingTraitCriterion.exactValue.inj heq)
        have hlength := congrArg (fun s => s.toList.length) htypes
        simp only [String.toList_ofList, List.length_append, List.length_cons] at hlength
        omega
      · -- the value is the word that stands for no value
        have hundefined : trait.value = "undefined" := hone trait hcriteria htype hvalue
        refine ⟨_, not_separated_of_text (c := .numericRange trait.type 0 0) htrait ?_
          ⟨_, hmem, fun heq => nomatch heq⟩⟩
        rw [htext, criterionChars_eq, criterionChars_eq]
        show trait.type.toList ++ '=' :: "undefined".toList = trait.type.toList ++ '=' :: trait.value.toList
        rw [hundefined]
  | c :: c' :: rest =>
    -- the whole text is one criterion
    have htwo : 2 ≤ e.traitCriteria.length := by
      rw [hcriteria]
      simp
    have hcount : 0 < (formatTraitCriteriaSignature e).toList.count '=' :=
      Nat.lt_of_lt_of_le (Nat.lt_of_lt_of_le Nat.two_pos htwo) (length_le_count e)
    obtain ⟨a, b, hab⟩ := List.append_of_mem (List.count_pos_iff.mp hcount)
    have hmem : c ∈ e.traitCriteria := by
      rw [hcriteria]
      exact List.mem_cons_self
    refine ⟨_, not_separated_of_text htrait (exactValue_of_text hab) ⟨c, hmem, fun heq => ?_⟩⟩
    have hchars : criterionChars c = (formatTraitCriteriaSignature e).toList := by
      rw [heq]
      exact exactValue_of_text hab
    have hlt := @length_lt_intercalate _ ['|'] (by decide) _ (by rw [length_texts]; exact htwo) _
      (mem_texts.mpr ⟨c, hmem, rfl⟩)
    rw [← toList_formatTraitCriteriaSignature, hchars] at hlt
    exact Nat.lt_irrefl _ hlt

theorem splitOn_of_plain (hplain : ∀ c ∈ e.traitCriteria, PlainCriterion c)
    (hsome : e.traitCriteria ≠ []) : (formatTraitCriteriaSignature e).toList.splitOn '|' =
      (sortTexts (e.traitCriteria.map criterionSignature)).map String.toList := by
  rw [toList_formatTraitCriteriaSignature]
  refine List.splitOn_intercalate _ (fun text htext => ?_) fun hnil => ?_
  · obtain ⟨c, hc, rfl⟩ := mem_texts.mp htext
    have hc' := hplain c hc
    cases c with
    | exactValue trait =>
      obtain ⟨-, htype, hvalue⟩ := hc'
      rw [criterionChars_eq]
      show '|' ∉ trait.type.toList ++ '=' :: trait.value.toList
      simp [htype, hvalue]
    | numericRange type min max => exact hc'.elim
  · have hlength := congrArg List.length hnil
    rw [length_texts] at hlength
    exact hsome (List.eq_nil_of_length_eq_zero hlength)

theorem criterion_of_plain_text {c' : BiddingTraitCriterion} (h : PlainCriterion c) (h' : PlainCriterion c')
    (htext : criterionChars c = criterionChars c') : c = c' := by
  cases c with
  | numericRange type min max => exact h.elim
  | exactValue trait =>
    cases c' with
    | numericRange type min max => exact h'.elim
    | exactValue trait' =>
      rw [criterionChars_eq, criterionChars_eq] at htext
      obtain ⟨htypes, hvalues⟩ := append_cons_inj h.1 h'.1 htext
      cases trait
      cases trait'
      simp only [BiddingTraitCriterion.exactValue.injEq, TraitCriterion.mk.injEq]
      exact ⟨String.toList_inj.mp htypes, String.toList_inj.mp hvalues⟩

theorem separated_of_plain (hplain : ∀ c ∈ e.traitCriteria, PlainCriterion c)
    (hplain' : ∀ c ∈ e'.traitCriteria, PlainCriterion c) : Separated e e' := by
  refine separated_of_traits fun _ _ htext => ?_
  have hempty : ∀ {a b : MarketEvent}, formatTraitCriteriaSignature a = formatTraitCriteriaSignature b →
      a.traitCriteria = [] → b.traitCriteria = [] := by
    intro a b htext hnone
    have hcount := length_le_count b
    have hblank : formatTraitCriteriaSignature a = "" := by
      unfold formatTraitCriteriaSignature
      rw [hnone]
      rfl
    rw [← htext, hblank] at hcount
    exact List.eq_nil_of_length_eq_zero (Nat.le_zero.mp hcount)
  by_cases hnone : e.traitCriteria = []
  · intro c
    rw [hnone, hempty htext hnone]
  have hsome' : e'.traitCriteria ≠ [] := fun hnone' => hnone (hempty htext.symm hnone')
  have htexts := splitOn_of_plain hplain hnone
  rw [htext, splitOn_of_plain hplain' hsome'] at htexts
  intro c
  constructor
  · intro hc
    obtain ⟨c', hc', heq⟩ := mem_texts.mp (htexts ▸ mem_texts.mpr ⟨c, hc, rfl⟩)
    exact criterion_of_plain_text (hplain' c' hc') (hplain c hc) heq ▸ hc'
  · intro hc
    obtain ⟨c', hc', heq⟩ := mem_texts.mp (htexts.symm ▸ mem_texts.mpr ⟨c, hc, rfl⟩)
    exact criterion_of_plain_text (hplain c' hc') (hplain' c hc) heq ▸ hc'

/-- **Which signatures stand for one scope.**  No event of another scope is coalesced with an event exactly
when it is unambiguous; and two events whose criteria are plain are coalesced only when they have one
scope. -/
theorem signatures_separated_iff (e : MarketEvent) : ((∀ e', Separated e e') ↔ Unambiguous e) ∧
    ∀ e', (∀ c ∈ e.traitCriteria, PlainCriterion c) → (∀ c ∈ e'.traitCriteria, PlainCriterion c) →
      Separated e e' := by
  refine ⟨⟨fun hall => ?_, fun h => h.separated⟩, fun e' => separated_of_plain⟩
  by_contra hambiguous
  obtain ⟨e', hmistaken⟩ := mistaken_of_ambiguous hambiguous
  exact hmistaken (hall e')

theorem ranges_mistaken : ¬ ∀ e e', Separated e e' := by
  intro h
  have hsame := h ⟨.trait, "a", "", [.numericRange "Level" 1 5], 7, 1⟩
    ⟨.trait, "a", "", [.numericRange "Level" 6 9], 5, 1⟩ ⟨by decide, by decide, by decide⟩ (by decide +kernel)
  have hmem := (hsame.2.2 rfl (.numericRange "Level" 1 5)).mp (List.mem_singleton_self _)
  exact absurd hmem (by decide +kernel)

end Artgod.Trading
