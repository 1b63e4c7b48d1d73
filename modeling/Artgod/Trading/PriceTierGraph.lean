/-
# What a price tier graph resolves to

`resolveBiddingPriceTierGraph` walks the tiers depth first, with a memo and a set of the tiers it is below.  Here
its prices are computed without either, by recursion on the parent (`DirectPrices`), and the graph resolves exactly
when every active tier stands on active tiers (`Grounded`) and has lawful prices.
-/
import Artgod.Trading.PriceTierRuns

namespace Artgod.Trading

/-! ## 1. Prices by recursion on the parent -/

/-- The parents of the tier are among the tiers, and lead to one without a parent. -/
inductive Grounded (tiers : List BiddingPriceTier) : BiddingPriceTier → Prop
  | root {tier : BiddingPriceTier} : truthyId tier.parentTierId = none → Grounded tiers tier
  | child {tier parent : BiddingPriceTier} : truthyId tier.parentTierId = some parent.tierId → parent ∈ tiers →
      Grounded tiers parent → Grounded tiers tier

/-- A price with a delta; a percentage keeps six decimals, and the product is truncated toward zero. -/
def deltaPrice (env : TierEnv) (baseWei : Int) (delta : PriceTierDelta) (field : String) : Option Int :=
  match delta.deltaKind with
  | .absolute => (parseSignedEthAmount env delta.deltaEth (field ++ ".deltaEth")).toOption.map (baseWei + ·)
  | .percent => (parseSignedPercent delta.percent (field ++ ".percent")).toOption.map fun percent =>
      baseWei + (baseWei * percent).tdiv percentBase

def directFloor (env : TierEnv) (tier : BiddingPriceTier) (parent : Option TierPrices) : Option Int :=
  match tier.floorConfig with
  | .fixed valueEth => (parseSignedEthAmount env (some valueEth) "floorConfig.valueEth").toOption
  | .parentDelta delta => parent.bind fun prices => deltaPrice env prices.floorWei delta "floorConfig"

def directCeiling (env : TierEnv) (tier : BiddingPriceTier) (floorWei : Int) (parent : Option TierPrices) :
    Option Int :=
  match tier.ceilingConfig with
  | .fixed valueEth => (parseSignedEthAmount env (some valueEth) "ceilingConfig.valueEth").toOption
  | .floorDelta delta => deltaPrice env floorWei delta "ceilingConfig"
  | .parentDelta delta => parent.bind fun prices => deltaPrice env prices.ceilingWei delta "ceilingConfig"

/-- The prices of a tier on its parent's, positive or not. -/
def directPrices (env : TierEnv) (tier : BiddingPriceTier) (parent : Option TierPrices) : Option TierPrices :=
  (directFloor env tier parent).bind fun floorWei =>
    (directCeiling env tier floorWei parent).map fun ceilingWei => ⟨floorWei, ceilingWei⟩

inductive DirectPrices (env : TierEnv) (tiers : List BiddingPriceTier) : BiddingPriceTier → TierPrices → Prop
  | root {tier : BiddingPriceTier} {prices : TierPrices} : truthyId tier.parentTierId = none →
      directPrices env tier none = some prices → DirectPrices env tiers tier prices
  | child {tier parent : BiddingPriceTier} {prices parentPrices : TierPrices} :
      truthyId tier.parentTierId = some parent.tierId → parent ∈ tiers →
      DirectPrices env tiers parent parentPrices →
      directPrices env tier (some parentPrices) = some prices → DirectPrices env tiers tier prices

/-- Positive prices, the floor not above the ceiling. -/
def TierPrices.Lawful (prices : TierPrices) : Prop :=
  0 < prices.floorWei ∧ 0 < prices.ceilingWei ∧ prices.floorWei ≤ prices.ceilingWei

/-! ## 2. The checks of one tier -/

variable {env : TierEnv} {tier : BiddingPriceTier} {parent : Option TierPrices} {prices : TierPrices} {wei : Int}
  {field : String} {tiers tiers' graph graph' : List BiddingPriceTier}

theorem toOption_eq_some {α : Type} {x : Except String α} {a : α} : x.toOption = some a ↔ x = .ok a := by
  cases x <;> simp [Except.toOption]

theorem applyDelta_eq_ok {base : Int} {delta : PriceTierDelta} :
    applyDelta env base delta field = .ok wei ↔ deltaPrice env base delta field = some wei ∧ 0 < wei := by
  unfold applyDelta deltaPrice
  cases delta.deltaKind with
  | absolute =>
    cases hamount : parseSignedEthAmount env delta.deltaEth (field ++ ".deltaEth") with
    | error message => simp [bind, Except.bind, Except.toOption]
    | ok amount =>
      simp only [bind, Except.bind, pure, Except.pure, Except.toOption, Option.map_some, Option.some.injEq]
      split <;> simp <;> omega
  | percent =>
    cases hpercent : parseSignedPercent delta.percent (field ++ ".percent") with
    | error message => simp [bind, Except.bind, Except.toOption]
    | ok percent =>
      simp only [bind, Except.bind, pure, Except.pure, Except.toOption, Option.map_some, Option.some.injEq]
      split <;> simp <;> omega

theorem parsePositiveEthAmount_eq_ok {value : Option String} :
    parsePositiveEthAmount env value field = .ok wei ↔
      (parseSignedEthAmount env value field).toOption = some wei ∧ 0 < wei := by
  rw [toOption_eq_some]
  unfold parsePositiveEthAmount parseSignedEthAmount
  cases requireAmount value field with
  | error message => simp [bind, Except.bind]
  | ok text =>
    cases hamount : parseEthAmount env text field with
    | error message => simp [bind, Except.bind, hamount]
    | ok amount =>
      simp only [bind, Except.bind, hamount, Except.ok.injEq]
      split <;> simp <;> omega

theorem resolveFloorWei_eq_ok :
    resolveFloorWei env tier parent = .ok wei ↔ directFloor env tier parent = some wei ∧ 0 < wei := by
  unfold resolveFloorWei directFloor
  cases tier.floorConfig with
  | fixed valueEth =>
    dsimp only
    rw [translatePricingError_eq_ok, resolveBiddingPriceTierFloorWei, parsePositiveEthAmount_eq_ok]
  | parentDelta delta =>
    cases parent with
    | none => simp
    | some parentPrices =>
      dsimp only
      rw [translatePricingError_eq_ok, Option.map_some, Option.bind_some]
      exact applyDelta_eq_ok

theorem resolveCeilingWei_eq_ok {floorWei : Int} : resolveCeilingWei env tier floorWei parent = .ok wei ↔
    directCeiling env tier floorWei parent = some wei ∧ 0 < wei := by
  unfold resolveCeilingWei directCeiling
  cases tier.ceilingConfig with
  | fixed valueEth =>
    dsimp only
    rw [translatePricingError_eq_ok, resolveBiddingPriceTierCeilingWei, parsePositiveEthAmount_eq_ok]
  | floorDelta delta =>
    dsimp only
    rw [translatePricingError_eq_ok, resolveBiddingPriceTierCeilingWei, applyDelta_eq_ok]
  | parentDelta delta =>
    cases parent with
    | none => simp
    | some parentPrices =>
      dsimp only
      rw [translatePricingError_eq_ok, Option.map_some, Option.bind_some]
      exact applyDelta_eq_ok

theorem tierPrices_eq_ok :
    tierPrices env tier parent = .ok prices ↔ directPrices env tier parent = some prices ∧ prices.Lawful := by
  obtain ⟨floorWei, ceilingWei⟩ := prices
  simp only [tierPrices, bind_eq_ok, ite_error_eq_ok, Except.ok.injEq, resolveFloorWei_eq_ok,
    resolveCeilingWei_eq_ok, directPrices, Option.bind_eq_some_iff, Option.map_eq_some_iff, TierPrices.mk.injEq,
    TierPrices.Lawful, not_lt]
  constructor
  · rintro ⟨_, ⟨hfloor, hpos⟩, _, ⟨hceiling, hpos'⟩, hle, rfl, rfl⟩
    exact ⟨⟨_, hfloor, _, hceiling, rfl, rfl⟩, hpos, hpos', hle⟩
  · rintro ⟨⟨_, hfloor, _, hceiling, rfl, rfl⟩, hpos, hpos', hle⟩
    exact ⟨_, ⟨hfloor, hpos⟩, _, ⟨hceiling, hpos'⟩, hle, rfl, rfl⟩

/-! ## 3. The walk and the recursion -/

theorem direct_of_value {n : Nat} (h : Forest.Value (tierRule env) tiers n tier prices) :
    Grounded tiers tier ∧ DirectPrices env tiers tier prices ∧ prices.Lawful := by
  induction h with
  | root hparent hvalue =>
    obtain ⟨hdirect, hlawful⟩ := tierPrices_eq_ok.mp hvalue
    exact ⟨.root hparent, .root hparent hdirect, hlawful⟩
  | child hparent hp hid _ hvalue ih =>
    cases hid
    obtain ⟨hdirect, hlawful⟩ := tierPrices_eq_ok.mp hvalue
    exact ⟨.child hparent hp ih.1, .child hparent hp ih.2.1 hdirect, hlawful⟩

theorem DirectPrices.unique (hnodup : (tiers.map (·.tierId)).Nodup) {prices' : TierPrices}
    (h : DirectPrices env tiers tier prices) (h' : DirectPrices env tiers tier prices') : prices' = prices := by
  induction h generalizing prices' with
  | root hparent hprices =>
    cases h' with
    | root _ hprices' => exact Option.some.inj (hprices'.symm.trans hprices)
    | child hparent' => cases hparent.symm.trans hparent'
  | child hparent hp _ hprices ih =>
    cases h' with
    | root hparent' => cases hparent'.symm.trans hparent
    | child hparent' hp' hup hprices' =>
      have hid := Option.some.inj (hparent'.symm.trans hparent)
      obtain rfl := List.inj_on_of_nodup_map hnodup hp' hp hid
      obtain rfl := ih hup
      exact Option.some.inj (hprices'.symm.trans hprices)

theorem value_of_direct (hnodup : (tiers.map (·.tierId)).Nodup)
    (hall : ∀ tier ∈ tiers, Grounded tiers tier ∧ ∃ prices, DirectPrices env tiers tier prices ∧ prices.Lawful)
    (hground : Grounded tiers tier) (ht : tier ∈ tiers) :
    ∃ n prices, Forest.Value (tierRule env) tiers n tier prices := by
  induction hground with
  | root hparent =>
    obtain ⟨-, prices, hdirect, hlawful⟩ := hall _ ht
    cases hdirect with
    | root _ hprices => exact ⟨0, prices, .root hparent (tierPrices_eq_ok.mpr ⟨hprices, hlawful⟩)⟩
    | child hparent' => cases hparent.symm.trans hparent'
  | child hparent hp _ ih =>
    obtain ⟨n, parentPrices, hvalue⟩ := ih hp
    obtain ⟨-, prices, hdirect, hlawful⟩ := hall _ ht
    cases hdirect with
    | root hparent' => cases hparent'.symm.trans hparent
    | child hparent' hp' hup hprices =>
      have hid := Option.some.inj (hparent'.symm.trans hparent)
      obtain rfl := List.inj_on_of_nodup_map hnodup hp' hp hid
      obtain rfl := (direct_of_value hvalue).2.1.unique hnodup hup
      exact ⟨n + 1, prices, .child hparent hp rfl hvalue (tierPrices_eq_ok.mpr ⟨hprices, hlawful⟩)⟩

theorem Grounded.perm (h : Grounded tiers tier) (hperm : tiers'.Perm tiers) : Grounded tiers' tier := by
  induction h with
  | root hparent => exact .root hparent
  | child hparent hp _ ih => exact .child hparent (hperm.mem_iff.mpr hp) ih

theorem DirectPrices.perm (h : DirectPrices env tiers tier prices) (hperm : tiers'.Perm tiers) :
    DirectPrices env tiers' tier prices := by
  induction h with
  | root hparent hprices => exact .root hparent hprices
  | child hparent hp _ hprices ih => exact .child hparent (hperm.mem_iff.mpr hp) ih hprices

/-! ## 4. The graph -/

def Resolvable (env : TierEnv) (tiers : List BiddingPriceTier) : Prop :=
  ∀ tier ∈ tiers, Grounded tiers tier ∧ ∃ prices, DirectPrices env tiers tier prices ∧ prices.Lawful

theorem Resolvable.perm (h : Resolvable env tiers) (hperm : tiers'.Perm tiers) : Resolvable env tiers' := by
  intro tier ht
  obtain ⟨hground, prices, hdirect, hlawful⟩ := h tier (hperm.mem_iff.mp ht)
  exact ⟨hground.perm hperm, prices, hdirect.perm hperm, hlawful⟩

theorem resolved_of_ok (hnodup : (tiers.map (·.tierId)).Nodup)
    (h : resolveBiddingPriceTierGraph env tiers = .ok graph) :
    Resolved env (tiers.filter BiddingPriceTier.active) graph :=
  resolveBiddingPriceTierGraph_ok (fun _ ht => (List.mem_filter.mp ht).2) (hnodup.sublist (List.filter_sublist.map _))
    (resolveBiddingPriceTierGraph_filter env tiers ▸ h)

theorem resolves_iff (hnodup : (tiers.map (·.tierId)).Nodup) :
    (∃ graph, resolveBiddingPriceTierGraph env tiers = .ok graph) ↔
      Resolvable env (tiers.filter BiddingPriceTier.active) := by
  have hactive : ((tiers.filter BiddingPriceTier.active).map (·.tierId)).Nodup :=
    hnodup.sublist (List.filter_sublist.map _)
  constructor
  · rintro ⟨graph, hgraph⟩ tier ht
    obtain ⟨n, prices, hvalue, -⟩ := (resolved_of_ok hnodup hgraph).priced tier ht
    obtain ⟨hground, hdirect, hlawful⟩ := direct_of_value hvalue
    exact ⟨hground, prices, hdirect, hlawful⟩
  · intro hall
    rw [resolveBiddingPriceTierGraph_filter]
    exact resolveBiddingPriceTierGraph_of_values (fun _ ht => (List.mem_filter.mp ht).2) hactive fun tier ht =>
      value_of_direct hactive hall (hall tier ht).1 ht

theorem mem_graph_iff (hnodup : (tiers.map (·.tierId)).Nodup)
    (h : resolveBiddingPriceTierGraph env tiers = .ok graph) (g : BiddingPriceTier) :
    g ∈ graph ↔ ∃ tier ∈ tiers.filter BiddingPriceTier.active, ∃ prices,
      DirectPrices env (tiers.filter BiddingPriceTier.active) tier prices ∧ g = tier.withPrices prices := by
  have hresolved := resolved_of_ok hnodup h
  have hactive : ((tiers.filter BiddingPriceTier.active).map (·.tierId)).Nodup :=
    hnodup.sublist (List.filter_sublist.map _)
  constructor
  · intro hg
    obtain ⟨tier, ht, n, prices, hvalue, rfl⟩ := hresolved.derived g hg
    exact ⟨tier, ht, prices, (direct_of_value hvalue).2.1, rfl⟩
  · rintro ⟨tier, ht, prices, hdirect, rfl⟩
    obtain ⟨n, found, hvalue, hmem⟩ := hresolved.priced tier ht
    rwa [DirectPrices.unique hactive (direct_of_value hvalue).2.1 hdirect]

/-- **The graph resolves to the prices of the recursion.**  The walk never runs out of stack; it succeeds exactly
when every active tier is grounded and lawful, and then each has the prices of the recursion; and neither depends
on the order of the tiers. -/
theorem price_tier_graph_exact (env : TierEnv) (tiers : List BiddingPriceTier)
    (hnodup : (tiers.map (·.tierId)).Nodup) :
    (∀ spare, Forest.visitAll (tierRule env) (tiers.filter BiddingPriceTier.active)
      ((tiers.filter BiddingPriceTier.active).length + 1 + spare) (tiers.filter BiddingPriceTier.active) [] =
        Forest.resolve (tierRule env) (tiers.filter BiddingPriceTier.active)) ∧
    ((∃ graph, resolveBiddingPriceTierGraph env tiers = .ok graph) ↔ ∀ tier ∈ tiers, tier.active = true →
        Grounded (tiers.filter BiddingPriceTier.active) tier ∧ ∃ prices,
          DirectPrices env (tiers.filter BiddingPriceTier.active) tier prices ∧ prices.Lawful) ∧
    (∀ graph, resolveBiddingPriceTierGraph env tiers = .ok graph →
      (graph.map (·.tierId)).Perm ((tiers.filter BiddingPriceTier.active).map (·.tierId)) ∧
      ∀ tier ∈ tiers, tier.active = true → ∀ prices,
        DirectPrices env (tiers.filter BiddingPriceTier.active) tier prices ↔ tier.withPrices prices ∈ graph) ∧
    ∀ tiers' : List BiddingPriceTier, tiers'.Perm tiers →
      ((∃ graph, resolveBiddingPriceTierGraph env tiers' = .ok graph) ↔
        ∃ graph, resolveBiddingPriceTierGraph env tiers = .ok graph) ∧
      ∀ graph graph', resolveBiddingPriceTierGraph env tiers = .ok graph →
        resolveBiddingPriceTierGraph env tiers' = .ok graph' → graph'.Perm graph := by
  have hactive : ((tiers.filter BiddingPriceTier.active).map (·.tierId)).Nodup :=
    hnodup.sublist (List.filter_sublist.map _)
  refine ⟨fun spare => Forest.visitAll_fuel (Nat.lt_succ_self _) spare (List.Subset.refl _), ?_, ?_, ?_⟩
  · rw [resolves_iff hnodup]
    simp only [Resolvable, List.mem_filter, and_imp]
  · intro graph hgraph
    refine ⟨(resolved_of_ok hnodup hgraph).ids, fun tier ht hlive prices => ?_⟩
    have hmem : tier ∈ tiers.filter BiddingPriceTier.active := List.mem_filter.mpr ⟨ht, hlive⟩
    rw [mem_graph_iff hnodup hgraph]
    constructor
    · exact fun hdirect => ⟨tier, hmem, prices, hdirect, rfl⟩
    rintro ⟨other, hother, found, hdirect, heq⟩
    have hid := congrArg BiddingPriceTier.tierId heq
    obtain rfl := List.inj_on_of_nodup_map hactive hmem hother hid
    have hfloor := congrArg BiddingPriceTier.resolvedFloorWei heq
    have hceiling := congrArg BiddingPriceTier.resolvedCeilingWei heq
    obtain ⟨floorWei, ceilingWei⟩ := prices
    cases hfloor
    cases hceiling
    exact hdirect
  · intro tiers' hperm
    have hnodup' : (tiers'.map (·.tierId)).Nodup := (hperm.map _).nodup_iff.mpr hnodup
    have hlive := hperm.filter BiddingPriceTier.active
    refine ⟨?_, fun graph graph' hgraph hgraph' => ?_⟩
    · rw [resolves_iff hnodup, resolves_iff hnodup']
      exact ⟨fun h => h.perm hlive.symm, fun h => h.perm hlive⟩
    have hids : ∀ {tiers graph : List BiddingPriceTier}, (tiers.map (·.tierId)).Nodup →
        resolveBiddingPriceTierGraph env tiers = .ok graph → graph.Nodup := fun hnodup h =>
      List.Nodup.of_map _ ((resolved_of_ok hnodup h).ids.nodup_iff.mpr
        (hnodup.sublist (List.filter_sublist.map _)))
    rw [List.perm_ext_iff_of_nodup (hids hnodup' hgraph') (hids hnodup hgraph)]
    intro g
    rw [mem_graph_iff hnodup' hgraph', mem_graph_iff hnodup hgraph]
    constructor
    · rintro ⟨tier, ht, prices, hdirect, rfl⟩
      exact ⟨tier, hlive.mem_iff.mp ht, prices, hdirect.perm hlive.symm, rfl⟩
    · rintro ⟨tier, ht, prices, hdirect, rfl⟩
      exact ⟨tier, hlive.mem_iff.mpr ht, prices, hdirect.perm hlive, rfl⟩

def sampleTier (tierId : String) (parentTierId : Option String) (floor : PriceTierFloorConfig) : BiddingPriceTier where
  tierId := tierId
  chainId := 1
  collectionId := 1
  name := "Floor"
  status := .enabled
  sortOrder := 0
  parentTierId := parentTierId
  floorConfig := floor
  ceilingConfig := .fixed "2"
  deltaWei := 1
  resolvedFloorWei := none
  resolvedCeilingWei := none
  revision := 1

/-- A tier of one ether, and before it one that is twelve percent above. -/
def sampleTiers : List BiddingPriceTier :=
  [sampleTier "child" (some "root") (.parentDelta ⟨.percent, none, some "12.0000009"⟩),
    sampleTier "root" none (.fixed "1")]

theorem price_tier_graph_exact_sample :
    (∃ graph, resolveBiddingPriceTierGraph sampleEnv sampleTiers = .ok graph ∧
      graph.map (·.resolvedFloorWei) = [some 1120000000000000000, some 1000000000000000000]) ∧
    ∀ graph graph', resolveBiddingPriceTierGraph sampleEnv sampleTiers = .ok graph →
      resolveBiddingPriceTierGraph sampleEnv sampleTiers.reverse = .ok graph' → graph'.Perm graph :=
  ⟨⟨_, rfl, by decide +kernel⟩,
    ((price_tier_graph_exact sampleEnv sampleTiers (by decide)).2.2.2 _ (List.reverse_perm _)).2⟩

end Artgod.Trading
