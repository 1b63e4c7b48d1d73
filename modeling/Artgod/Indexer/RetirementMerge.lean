/-
# Merging what is known of a retired order

`mergeOrderRetirement` (`domain/order-retention.ts`) folds an observation into the marker of an order by four
rules that read each other.  `Merged` is what a marker owes to its observations, named as a set, so that their
order has no part in it.
-/
import Artgod.Indexer.OrderCancellation

namespace Artgod.Indexer

open Store

/-! ## 1. Folds -/

/-- An observation, and the time at which it is merged. -/
abbrev TimedObservation := OrderRetirementObservation × Nat

/-- The marker after an observation and further ones. -/
def retirementOf (first : TimedObservation) (rest : List TimedObservation) : OrderRetirement :=
  rest.foldl (fun previous entry => mergeOrderRetirement (some previous) entry.1 entry.2)
    (mergeOrderRetirement none first.1 first.2)

theorem retirementOf_concat (first : TimedObservation) (rest : List TimedObservation) (entry : TimedObservation) :
    retirementOf first (rest ++ [entry]) =
      mergeOrderRetirement (some (retirementOf first rest)) entry.1 entry.2 := by
  rw [retirementOf, List.foldl_append]
  rfl

/-! ## 2. One observation -/

section Step

variable {previous : Option OrderRetirement} {observation : OrderRetirementObservation} {now : Nat}

theorem mergeOrderRetirement_sourceCancelled :
    (mergeOrderRetirement previous observation now).reason = .sourceCancelled ↔
      (∃ p ∈ previous, p.reason = .sourceCancelled) ∨ observation.reason = .sourceCancelled := by
  unfold mergeOrderRetirement terminalMarker isTerminalRetirement
  cases previous with
  | none => cases observation.reason <;> simp
  | some p => cases hreason : p.reason <;> cases observation.reason <;> simp [hreason, Option.filter_some]

theorem mergeOrderRetirement_terminal :
    isTerminalRetirement (mergeOrderRetirement previous observation now).reason = true ↔
      (∃ p ∈ previous, isTerminalRetirement p.reason = true) ∨ isTerminalRetirement observation.reason = true := by
  unfold mergeOrderRetirement terminalMarker isTerminalRetirement
  cases previous with
  | none => cases observation.reason <;> simp
  | some p => cases hreason : p.reason <;> cases observation.reason <;> simp [hreason, Option.filter_some]

theorem knownOrderExpiry_pos {value : Option Nat} {v : Nat} (h : knownOrderExpiry value = some v) : 0 < v := by
  rw [knownOrderExpiry, Option.filter_eq_some_iff, Bool.and_eq_true, decide_eq_true_eq] at h
  exact h.2.2

/-- The later of two known deadlines. -/
def laterExpiry (a b : Option Nat) : Option Nat :=
  if 0 < max (a.getD 0) (b.getD 0) then some (max (a.getD 0) (b.getD 0)) else none

theorem mergeOrderRetirement_validUntil : (mergeOrderRetirement previous observation now).validUntil =
      laterExpiry (knownOrderExpiry (previous.bind (·.validUntil))) (knownOrderExpiry observation.validUntil) := rfl

theorem laterExpiry_eq_none {a b : Option Nat} (ha : ∀ v ∈ a, 0 < v) (hb : ∀ v ∈ b, 0 < v) :
    laterExpiry a b = none ↔ a = none ∧ b = none := by
  unfold laterExpiry
  cases a <;> cases b <;> simp_all

theorem laterExpiry_eq_some {a b : Option Nat} (ha : ∀ v ∈ a, 0 < v) (hb : ∀ v ∈ b, 0 < v) {u : Nat} :
    laterExpiry a b = some u ↔ (a = some u ∨ b = some u) ∧ (∀ v ∈ a, v ≤ u) ∧ ∀ v ∈ b, v ≤ u := by
  unfold laterExpiry
  cases a <;> cases b <;> simp_all
  omega

theorem mergeOrderRetirement_expiresAt_terminal
    (h : isTerminalRetirement (mergeOrderRetirement previous observation now).reason = true) :
    (mergeOrderRetirement previous observation now).expiresAt =
      match (mergeOrderRetirement previous observation now).validUntil with
      | none => ((terminalMarker previous).map (·.expiresAt)).getD (now + unknownOrderLifetimeSeconds)
      | some v => v + orderReorgGraceSeconds := by
  unfold mergeOrderRetirement at h ⊢
  dsimp only at h ⊢
  exact if_pos h

theorem mergeOrderRetirement_expiresAt_reversible
    (h : isTerminalRetirement (mergeOrderRetirement previous observation now).reason = false) :
    (mergeOrderRetirement previous observation now).expiresAt =
      match (mergeOrderRetirement previous observation now).validUntil with
      | none => (mergeOrderRetirement previous observation now).retiredAt + unknownOrderLifetimeSeconds
      | some v => min ((mergeOrderRetirement previous observation now).retiredAt + unknownOrderLifetimeSeconds) v := by
  unfold mergeOrderRetirement at h ⊢
  dsimp only at h ⊢
  exact if_neg (by rw [h]; decide)

/-- **A terminal marker without a deadline keeps the time that it had.** -/
theorem mergeOrderRetirement_keeps_expiresAt {marker : OrderRetirement}
    (hterminal : isTerminalRetirement marker.reason = true)
    (hunknown : (mergeOrderRetirement (some marker) observation now).validUntil = none) :
    (mergeOrderRetirement (some marker) observation now).expiresAt = marker.expiresAt := by
  rw [mergeOrderRetirement_expiresAt_terminal (mergeOrderRetirement_terminal.mpr (.inl ⟨marker, rfl, hterminal⟩)),
    hunknown]
  dsimp only
  rw [terminalMarker, Option.filter_some, if_pos hterminal]
  rfl

end Step

/-! ## 3. What a marker owes to its observations -/

/-- The known deadlines of the observations. -/
def knownExpiries (entries : List TimedObservation) : List Nat :=
  entries.filterMap fun entry => knownOrderExpiry entry.1.validUntil

/-- The marker is the merge of the observations, in whatever order they came. -/
structure Merged (entries : List TimedObservation) (marker : OrderRetirement) : Prop where
  sourceCancelled : marker.reason = .sourceCancelled ↔ ∃ entry ∈ entries, entry.1.reason = .sourceCancelled
  terminal : isTerminalRetirement marker.reason = true ↔
    ∃ entry ∈ entries, isTerminalRetirement entry.1.reason = true
  unknown : marker.validUntil = none ↔ knownExpiries entries = []
  largest : ∀ u ∈ marker.validUntil, u ∈ knownExpiries entries ∧ ∀ v ∈ knownExpiries entries, v ≤ u
  guarded : isTerminalRetirement marker.reason = true → ∀ u ∈ marker.validUntil,
    marker.expiresAt = u + orderReorgGraceSeconds
  reversible : isTerminalRetirement marker.reason = false → marker.expiresAt =
    match marker.validUntil with
    | none => marker.retiredAt + unknownOrderLifetimeSeconds
    | some u => min (marker.retiredAt + unknownOrderLifetimeSeconds) u

variable {entries : List TimedObservation} {marker : OrderRetirement}

theorem knownExpiries_pos {v : Nat} (h : v ∈ knownExpiries entries) : 0 < v := by
  obtain ⟨entry, -, hknown⟩ := List.mem_filterMap.mp h
  exact knownOrderExpiry_pos hknown

theorem mem_knownExpiries_concat {entry : TimedObservation} {v : Nat} :
    v ∈ knownExpiries (entries ++ [entry]) ↔ v ∈ knownExpiries entries ∨ knownOrderExpiry entry.1.validUntil = some v := by
  rw [knownExpiries, List.filterMap_append, List.mem_append, ← knownExpiries]
  simp

theorem Merged.knownOrderExpiry
    (h : Merged entries marker) : Indexer.knownOrderExpiry marker.validUntil = marker.validUntil := by
  cases hvalid : marker.validUntil with
  | none => rfl
  | some u =>
    obtain ⟨entry, -, hknown⟩ := List.mem_filterMap.mp (h.largest u hvalid).1
    unfold Indexer.knownOrderExpiry at hknown ⊢
    exact Option.filter_eq_some_iff.mpr ⟨rfl, (Option.filter_eq_some_iff.mp hknown).2⟩

theorem merged_of_parts {previous : Option OrderRetirement} {entries : List TimedObservation} {entry : TimedObservation}
    (hcancelled : (∃ p ∈ previous, p.reason = .sourceCancelled) ↔
      ∃ entry ∈ entries, entry.1.reason = .sourceCancelled)
    (hterminal : (∃ p ∈ previous, isTerminalRetirement p.reason = true) ↔
      ∃ entry ∈ entries, isTerminalRetirement entry.1.reason = true)
    (hunknown : Indexer.knownOrderExpiry (previous.bind (·.validUntil)) = none ↔ knownExpiries entries = [])
    (hlargest : ∀ u ∈ Indexer.knownOrderExpiry (previous.bind (·.validUntil)),
      u ∈ knownExpiries entries ∧ ∀ v ∈ knownExpiries entries, v ≤ u) :
    Merged (entries ++ [entry]) (mergeOrderRetirement previous entry.1 entry.2) := by
  have hpos : ∀ v ∈ Indexer.knownOrderExpiry (previous.bind (·.validUntil)), 0 < v := fun v hv => knownOrderExpiry_pos hv
  have hpos' : ∀ v ∈ Indexer.knownOrderExpiry entry.1.validUntil, 0 < v := fun v hv => knownOrderExpiry_pos hv
  refine ⟨?_, ?_, ?_, fun u hu => ?_, fun hreason u hu => ?_, mergeOrderRetirement_expiresAt_reversible⟩
  · rw [mergeOrderRetirement_sourceCancelled, hcancelled]
    simp [or_and_right, exists_or]
  · rw [mergeOrderRetirement_terminal, hterminal]
    simp [or_and_right, exists_or]
  · rw [mergeOrderRetirement_validUntil, laterExpiry_eq_none hpos hpos', hunknown]
    simp [knownExpiries]
  · rw [mergeOrderRetirement_validUntil] at hu
    obtain ⟨hfrom, hle, hle'⟩ := (laterExpiry_eq_some hpos hpos').mp hu
    refine ⟨mem_knownExpiries_concat.mpr (hfrom.imp_left fun h => (hlargest u h).1), fun v hv => ?_⟩
    rcases mem_knownExpiries_concat.mp hv with hold | hnew
    · cases hknown : Indexer.knownOrderExpiry (previous.bind (·.validUntil)) with
      | none =>
        rw [hunknown.mp hknown] at hold
        cases hold
      | some w => exact ((hlargest w hknown).2 v hold).trans (hle w hknown)
    · exact hle' v hnew
  · rw [mergeOrderRetirement_expiresAt_terminal hreason, hu]

/-- **A further observation** is one more of those that the marker owes to. -/
theorem Merged.merge (h : Merged entries marker)
    (entry : TimedObservation) : Merged (entries ++ [entry]) (mergeOrderRetirement (some marker) entry.1 entry.2) := by
  refine merged_of_parts ?_ ?_ ?_ ?_
  · rw [← h.sourceCancelled]
    exact ⟨fun ⟨p, hp, hreason⟩ => Option.some.inj hp ▸ hreason, fun hreason => ⟨marker, rfl, hreason⟩⟩
  · rw [← h.terminal]
    exact ⟨fun ⟨p, hp, hreason⟩ => Option.some.inj hp ▸ hreason, fun hreason => ⟨marker, rfl, hreason⟩⟩
  · rw [Option.bind_some, h.knownOrderExpiry]
    exact h.unknown
  · rw [Option.bind_some, h.knownOrderExpiry]
    exact h.largest

theorem Merged.first (entry : TimedObservation) : Merged [entry] (mergeOrderRetirement none entry.1 entry.2) := by
  refine @merged_of_parts none [] entry ?_ ?_ ?_ nofun
  · simp
  · simp
  · exact ⟨fun _ => rfl, fun _ => rfl⟩

theorem retirementOf_merged (first : TimedObservation) (rest : List TimedObservation) :
    Merged (first :: rest) (retirementOf first rest) := by
  induction rest using List.reverseRecOn with
  | nil => exact .first first
  | append_singleton rest entry ih =>
    rw [retirementOf_concat]
    exact ih.merge entry

theorem Merged.absorbs (h : Merged entries marker)
    (now : Nat) : mergeOrderRetirement (some marker) marker.toOrderRetirementObservation now = marker := by
  have hvalid : (mergeOrderRetirement (some marker) marker.toOrderRetirementObservation now).validUntil =
      marker.validUntil := by
    rw [mergeOrderRetirement_validUntil, Option.bind_some, h.knownOrderExpiry]
    unfold laterExpiry
    cases hknown : marker.validUntil with
    | none => rfl
    | some u => simp [knownExpiries_pos (h.largest u hknown).1]
  have hreason : (mergeOrderRetirement (some marker) marker.toOrderRetirementObservation now).reason =
      marker.reason := by
    unfold mergeOrderRetirement terminalMarker
    cases hreason : marker.reason <;> simp [hreason, Option.filter_some, isTerminalRetirement]
  have hretired : (mergeOrderRetirement (some marker) marker.toOrderRetirementObservation now).retiredAt =
      marker.retiredAt := by
    unfold mergeOrderRetirement
    dsimp only
    split
    · next p hp =>
      obtain ⟨hterminal, -⟩ := Option.filter_eq_some_iff.mp hp
      obtain ⟨hsame, -⟩ := Option.filter_eq_some_iff.mp hterminal
      rw [Option.some.inj hsame]
    · simp
  have hexpires : (mergeOrderRetirement (some marker) marker.toOrderRetirementObservation now).expiresAt =
      marker.expiresAt := by
    cases hterminal : isTerminalRetirement marker.reason with
    | false =>
      rw [mergeOrderRetirement_expiresAt_reversible (by rw [hreason, hterminal]), hvalid, hretired,
        h.reversible hterminal]
    | true =>
      cases hknown : marker.validUntil with
      | none => exact mergeOrderRetirement_keeps_expiresAt hterminal (hvalid.trans hknown)
      | some u =>
        rw [mergeOrderRetirement_expiresAt_terminal (by rw [hreason, hterminal]), hvalid, hknown,
          h.guarded hterminal u hknown]
  generalize mergeOrderRetirement (some marker) marker.toOrderRetirementObservation now = merged at *
  obtain ⟨⟨_, _, _⟩, _⟩ := merged
  obtain ⟨⟨_, _, _⟩, _⟩ := marker
  dsimp only at hvalid hreason hretired hexpires
  rw [hvalid, hreason, hretired, hexpires]

theorem retirementOf_keeps_expiresAt (first : TimedObservation) (before after : List TimedObservation)
    (hterminal : isTerminalRetirement (retirementOf first before).reason = true)
    (hunknown : (retirementOf first (before ++ after)).validUntil = none) :
    (retirementOf first (before ++ after)).expiresAt = (retirementOf first before).expiresAt := by
  induction after using List.reverseRecOn with
  | nil => rw [List.append_nil]
  | append_singleton after entry ih =>
    rw [← List.append_assoc, retirementOf_concat] at hunknown ⊢
    have hmerged := retirementOf_merged first (before ++ after)
    have hstill : isTerminalRetirement (retirementOf first (before ++ after)).reason = true := by
      obtain ⟨seen, hseen, hreason⟩ := (retirementOf_merged first before).terminal.mp hterminal
      refine hmerged.terminal.mpr ⟨seen, ?_, hreason⟩
      rw [← List.cons_append]
      exact List.mem_append_left _ hseen
    rw [mergeOrderRetirement_keeps_expiresAt hstill hunknown]
    -- A deadline that was known would still be known.
    refine ih ((hmerged.unknown).mpr ?_)
    have hnone := (hmerged.merge entry).unknown.mp hunknown
    rw [knownExpiries, List.filterMap_append, List.append_eq_nil_iff] at hnone
    exact hnone.1

theorem exists_observation_iff {p : OrderRetirementObservation → Prop} :
    (∃ o ∈ entries.map Prod.fst, p o) ↔ ∃ entry ∈ entries, p entry.1 := by
  constructor
  · rintro ⟨o, ho, hp⟩
    obtain ⟨entry, hentry, rfl⟩ := List.mem_map.mp ho
    exact ⟨entry, hentry, hp⟩
  · rintro ⟨entry, hentry, hp⟩
    exact ⟨entry.1, List.mem_map_of_mem hentry, hp⟩

/-- **Merging is order independent in what it knows.**  The marker of any observations has the reason and the
deadline that they have together, in whatever order and at whatever times they came; with a known deadline a
terminal marker is kept until the grace after it, and without one until the time of its first terminal
observation; its own observation changes nothing. -/
theorem retirement_merge_exact (first : TimedObservation) (rest : List TimedObservation) :
    Merged (first :: rest) (retirementOf first rest) ∧
    (∀ first' rest', ((first' :: rest').map Prod.fst).Perm ((first :: rest).map Prod.fst) →
      ((retirementOf first' rest').reason = .sourceCancelled ↔
        (retirementOf first rest).reason = .sourceCancelled) ∧
      isTerminalRetirement (retirementOf first' rest').reason = isTerminalRetirement (retirementOf first rest).reason ∧
      (retirementOf first' rest').validUntil = (retirementOf first rest).validUntil ∧
      (isTerminalRetirement (retirementOf first rest).reason = true → (retirementOf first rest).validUntil ≠ none →
        (retirementOf first' rest').expiresAt = (retirementOf first rest).expiresAt)) ∧
    (∀ before after, rest = before ++ after → isTerminalRetirement (retirementOf first before).reason = true →
      (retirementOf first rest).validUntil = none →
      (retirementOf first rest).expiresAt = (retirementOf first before).expiresAt) ∧
    ∀ now, mergeOrderRetirement (some (retirementOf first rest))
      (retirementOf first rest).toOrderRetirementObservation now = retirementOf first rest := by
  have hmerged := retirementOf_merged first rest
  refine ⟨hmerged, fun first' rest' hperm => ?_, ?_, hmerged.absorbs⟩
  · have hmerged' := retirementOf_merged first' rest'
    have hexists : ∀ p : OrderRetirementObservation → Prop,
        (∃ entry ∈ first' :: rest', p entry.1) ↔ ∃ entry ∈ first :: rest, p entry.1 := by
      intro p
      rw [← exists_observation_iff, ← exists_observation_iff]
      simp only [hperm.mem_iff]
    have hknown : ∀ v, v ∈ knownExpiries (first' :: rest') ↔ v ∈ knownExpiries (first :: rest) := fun v => by
      rw [knownExpiries, knownExpiries, List.mem_filterMap, List.mem_filterMap]
      exact hexists fun o => knownOrderExpiry o.validUntil = some v
    have hvalid : (retirementOf first' rest').validUntil = (retirementOf first rest).validUntil := by
      cases h' : (retirementOf first' rest').validUntil with
      | none =>
        rw [eq_comm, hmerged.unknown, List.eq_nil_iff_forall_not_mem]
        rw [hmerged'.unknown, List.eq_nil_iff_forall_not_mem] at h'
        exact fun v hv => h' v ((hknown v).mpr hv)
      | some u =>
        obtain ⟨hu, hle⟩ := hmerged'.largest u h'
        cases h : (retirementOf first rest).validUntil with
        | none =>
          rw [hmerged.unknown.mp h] at hknown
          exact absurd ((hknown u).mp hu) List.not_mem_nil
        | some w =>
          obtain ⟨hw, hle'⟩ := hmerged.largest w h
          rw [Nat.le_antisymm (hle' u ((hknown u).mp hu)) (hle w ((hknown w).mpr hw))]
    have hterminal : isTerminalRetirement (retirementOf first' rest').reason = true ↔
        isTerminalRetirement (retirementOf first rest).reason = true := by
      rw [hmerged'.terminal, hmerged.terminal]
      exact hexists fun o => isTerminalRetirement o.reason = true
    refine ⟨?_, Bool.eq_iff_iff.mpr hterminal, hvalid, fun hreason hsome => ?_⟩
    · rw [hmerged'.sourceCancelled, hmerged.sourceCancelled]
      exact hexists fun o => o.reason = .sourceCancelled
    · obtain ⟨u, hu⟩ := Option.ne_none_iff_exists'.mp hsome
      rw [hmerged.guarded hreason u hu, hmerged'.guarded (hterminal.mpr hreason) u (hvalid.trans hu)]
  · rintro before after rfl hterminal hunknown
    exact retirementOf_keeps_expiresAt first before after hterminal hunknown

/-! ## 4. The table -/

end Artgod.Indexer
