/-
# Sequences of price tier calls

The invariant of the two use cases is one sentence: the prices in an active row are those of its derivation in
the graph of its collection.  Both end with the prices of the whole graph written back (`TierInv.refreshed`).
-/
import Artgod.Trading.PriceTiers

namespace Artgod.Trading

open Store

/-! ## 1. Prices are positive -/

variable {env : TierEnv} {tiers : PriceTierTable} {r tier : BiddingPriceTier} {wei : Int}
  {input : UpsertPriceTierInput}

variable {field k uuid : String} {parent : Option TierPrices} {prices : TierPrices}
  {resolvedById : List (String × TierPrices)} {graph rows : List BiddingPriceTier}
  {saved : BiddingPriceTier} {Job : Type}

theorem parsePositiveEthAmount_pos {value : Option String}
    (h : parsePositiveEthAmount env value field = .ok wei) : 0 < wei := by
  simp only [parsePositiveEthAmount, bind_eq_ok, ite_error_eq_ok, Except.ok.injEq] at h
  obtain ⟨_, -, _, -, hpos, rfl⟩ := h
  omega

theorem applyDelta_pos {base : Int} {delta : PriceTierDelta}
    (h : applyDelta env base delta field = .ok wei) : 0 < wei := by
  cases hkind : delta.deltaKind with
  | absolute =>
    simp only [applyDelta, hkind, bind_eq_ok, ite_error_eq_ok, Except.ok.injEq] at h
    obtain ⟨_, -, _, -, hpos, rfl⟩ := h
    omega
  | percent =>
    simp only [applyDelta, hkind, bind_eq_ok, ite_error_eq_ok, Except.ok.injEq] at h
    obtain ⟨_, -, _, -, hpos, rfl⟩ := h
    omega

theorem translatePricingError_eq_ok {result : Except String Int} :
    translatePricingError result = .ok wei ↔ result = .ok wei := by
  unfold translatePricingError
  cases result with
  | error message => simp
  | ok x => simp

theorem resolveFloorWei_pos (h : resolveFloorWei env tier parent = .ok wei) : 0 < wei := by
  unfold resolveFloorWei at h
  split at h
  · cases h
  rw [translatePricingError_eq_ok] at h
  unfold resolveBiddingPriceTierFloorWei at h
  split at h
  · exact parsePositiveEthAmount_pos h
  · split at h
    · cases h
    · exact applyDelta_pos h

theorem tierPrices_ok (h : tierPrices env tier parent = .ok prices) :
    0 < prices.floorWei ∧ prices.floorWei ≤ prices.ceilingWei := by
  simp only [tierPrices, bind_eq_ok, ite_error_eq_ok, Except.ok.injEq] at h
  obtain ⟨floorWei, hfloor, ceilingWei, -, hle, rfl⟩ := h
  exact ⟨resolveFloorWei_pos hfloor, Int.not_lt.mp hle⟩

theorem tierPrices_congr (env : TierEnv) {a b : BiddingPriceTier} (hname : b.name = a.name)
    (hfloor : b.floorConfig = a.floorConfig) (hceiling : b.ceilingConfig = a.ceilingConfig) :
    tierPrices env b = tierPrices env a := by
  funext parent
  simp only [tierPrices, resolveFloorWei, resolveCeilingWei, hname, hfloor, hceiling]

theorem value_pos {nodes : List BiddingPriceTier} {n : Nat}
    (h : Forest.Value (tierRule env) nodes n tier prices) :
    0 < prices.floorWei ∧ prices.floorWei ≤ prices.ceilingWei := by
  cases h with
  | root _ hvalue => exact tierPrices_ok hvalue
  | child _ _ _ _ hvalue => exact tierPrices_ok hvalue

/-! ## 2. The graph -/

theorem attachPrices_ok :
    ∀ {tiers resolved : List BiddingPriceTier}, attachPrices resolvedById tiers = .ok resolved →
      resolved.map (·.tierId) = tiers.map (·.tierId) ∧
        ∀ g, g ∈ resolved ↔ ∃ t ∈ tiers, ∃ prices, resolvedById.lookup t.tierId = some prices ∧
          g = t.withPrices prices
  | [], resolved, h => by
    cases h
    simp
  | tier :: rest, resolved, h => by
    rw [attachPrices] at h
    split at h
    · cases h
    next prices hprices =>
    split at h
    · cases h
    next resolvedRest hrest =>
    cases h
    obtain ⟨hids, hmem⟩ := attachPrices_ok hrest
    refine ⟨by rw [List.map_cons, List.map_cons, hids]; rfl, fun g => ?_⟩
    rw [List.mem_cons, hmem]
    constructor
    · rintro (rfl | ⟨t, ht, hpriced⟩)
      · exact ⟨tier, List.mem_cons_self, prices, hprices, rfl⟩
      · exact ⟨t, List.mem_cons_of_mem _ ht, hpriced⟩
    rintro ⟨t, ht, prices', hlookup, rfl⟩
    rcases List.mem_cons.mp ht with rfl | ht
    · rw [hprices, Option.some.injEq] at hlookup
      exact Or.inl (by rw [hlookup])
    · exact Or.inr ⟨t, ht, prices', hlookup, rfl⟩

theorem attachPrices_of_lookup : ∀ {tiers : List BiddingPriceTier},
      (∀ t ∈ tiers, ∃ prices, resolvedById.lookup t.tierId = some prices) →
      ∃ resolved, attachPrices resolvedById tiers = .ok resolved
  | [], _ => ⟨[], rfl⟩
  | tier :: rest, h => by
    obtain ⟨prices, hprices⟩ := h tier List.mem_cons_self
    obtain ⟨resolved, hrest⟩ := attachPrices_of_lookup (fun t ht => h t (List.mem_cons_of_mem _ ht))
    exact ⟨_, by rw [attachPrices, hprices, hrest]⟩

/-- What a resolved graph of active tiers is: each tier with the prices of its derivation. -/
structure Resolved (env : TierEnv) (tiers graph : List BiddingPriceTier) : Prop where
  ids : (graph.map (·.tierId)).Perm (tiers.map (·.tierId))
  priced : ∀ t ∈ tiers, ∃ n prices, Forest.Value (tierRule env) tiers n t prices ∧
    t.withPrices prices ∈ graph
  derived : ∀ g ∈ graph, ∃ t ∈ tiers, ∃ n prices, Forest.Value (tierRule env) tiers n t prices ∧
    g = t.withPrices prices

theorem filter_active {tiers : List BiddingPriceTier} (hactive : ∀ t ∈ tiers, t.active = true) :
    tiers.filter BiddingPriceTier.active = tiers :=
  List.filter_eq_self.mpr hactive

theorem resolveBiddingPriceTierGraph_ok {tiers : List BiddingPriceTier}
    (hactive : ∀ t ∈ tiers, t.active = true) (hnodup : (tiers.map (·.tierId)).Nodup)
    (h : resolveBiddingPriceTierGraph env tiers = .ok graph) : Resolved env tiers graph := by
  simp only [resolveBiddingPriceTierGraph, filter_active hactive] at h
  split at h
  · cases h
  next resolvedById hresolve =>
  have hvalues := Forest.resolve_ok hnodup hresolve
  split at h
  · cases h
  next resolved hattach =>
  cases h
  obtain ⟨hids, hmem⟩ := attachPrices_ok hattach
  refine ⟨?_, fun t ht => ?_, fun g hg => ?_⟩
  · rw [← hids]
    exact (List.perm_insertionSort _ _).map _
  · obtain ⟨n, prices, hv, hlookup⟩ := hvalues t ht
    exact ⟨n, prices, hv, (List.mem_insertionSort _).mpr ((hmem _).mpr ⟨t, ht, prices, hlookup, rfl⟩)⟩
  obtain ⟨t, ht, prices, hlookup, rfl⟩ := (hmem g).mp ((List.mem_insertionSort _).mp hg)
  obtain ⟨n, prices', hv, hlookup'⟩ := hvalues t ht
  obtain rfl : prices = prices' := Option.some.inj (hlookup.symm.trans hlookup')
  exact ⟨t, ht, n, prices, hv, rfl⟩

theorem resolveBiddingPriceTierGraph_of_values {tiers : List BiddingPriceTier}
    (hactive : ∀ t ∈ tiers, t.active = true) (hnodup : (tiers.map (·.tierId)).Nodup)
    (h : ∀ t ∈ tiers, ∃ n prices, Forest.Value (tierRule env) tiers n t prices) :
    ∃ graph, resolveBiddingPriceTierGraph env tiers = .ok graph := by
  obtain ⟨resolvedById, hresolve⟩ := Forest.resolve_of_values hnodup h
  have hvalues := Forest.resolve_ok hnodup hresolve
  obtain ⟨resolved, hattach⟩ : ∃ resolved, attachPrices resolvedById tiers = .ok resolved := by
    refine attachPrices_of_lookup (fun t ht => ?_)
    obtain ⟨n, prices, -, hlookup⟩ := hvalues t ht
    exact ⟨prices, hlookup⟩
  simp only [resolveBiddingPriceTierGraph, filter_active hactive, hresolve, hattach]
  exact ⟨_, rfl⟩

/-! ## 3. The statements -/

/-- What the resolutions make of one row. -/
def refreshAll (resolutions : List BiddingPriceTier) (tier : BiddingPriceTier) : BiddingPriceTier :=
  resolutions.foldl (fun tier g => if tier.tierId = g.tierId then g.refresh tier else tier) tier

theorem mem_updatePriceTierResolutions {resolutions : List BiddingPriceTier} :
    ∀ {tiers : PriceTierTable} {r : BiddingPriceTier},
      r ∈ updatePriceTierResolutions tiers resolutions ↔ ∃ a ∈ tiers, r = refreshAll resolutions a := by
  induction resolutions with
  | nil =>
    intro tiers r
    simp [updatePriceTierResolutions, refreshAll]
  | cons g rest ih =>
    intro tiers r
    have hstep : updatePriceTierResolutions tiers (g :: rest) =
        updatePriceTierResolutions (updatePriceTierResolution tiers g) rest := rfl
    rw [hstep, ih]
    constructor
    · rintro ⟨a, ha, rfl⟩
      obtain ⟨b, hb, rfl⟩ := Table.mem_updateWhere.mp ha
      exact ⟨b, hb, by simp [refreshAll]⟩
    · rintro ⟨b, hb, rfl⟩
      refine ⟨_, Table.mem_updateWhere.mpr ⟨b, hb, rfl⟩, by simp [refreshAll]⟩

theorem refreshAll_of_not_mem :
    ∀ {resolutions : List BiddingPriceTier}, (∀ g ∈ resolutions, g.tierId ≠ tier.tierId) →
      refreshAll resolutions tier = tier
  | [], _ => rfl
  | g :: rest, h => by
    have hg := h g List.mem_cons_self
    have hstep : refreshAll (g :: rest) tier = refreshAll rest tier := by
      simp [refreshAll, if_neg (fun heq => hg (Eq.symm heq))]
    rw [hstep]
    exact refreshAll_of_not_mem (fun g' hg' => h g' (List.mem_cons_of_mem _ hg'))

theorem refreshAll_of_mem {g : BiddingPriceTier} :
    ∀ {resolutions : List BiddingPriceTier}, (resolutions.map (·.tierId)).Nodup → g ∈ resolutions →
      g.tierId = tier.tierId → refreshAll resolutions tier = g.refresh tier
  | x :: rest, hnodup, hg, hid => by
    rw [List.map_cons, List.nodup_cons] at hnodup
    obtain ⟨hx, hrest⟩ := hnodup
    rcases List.mem_cons.mp hg with rfl | hg
    · have hstep : refreshAll (g :: rest) tier = refreshAll rest (g.refresh tier) := by
        simp [refreshAll, hid]
      rw [hstep, refreshAll_of_not_mem]
      intro g' hg' heq
      refine hx (List.mem_map.mpr ⟨g', hg', ?_⟩)
      rw [heq, hid]
      rfl
    · have hne : tier.tierId ≠ x.tierId := by
        intro heq
        exact hx (List.mem_map.mpr ⟨g, hg, hid.trans heq⟩)
      have hstep : refreshAll (x :: rest) tier = refreshAll rest tier := by
        simp [refreshAll, if_neg hne]
      rw [hstep]
      exact refreshAll_of_mem hrest hg hid

/-- What `upsertPriceTier` did: one row is new or replaced, and a row that is replaced stays with its
collection. -/
structure SavedTier (env : TierEnv) (input : PriceTierRecordInput) (uuid : String)
    (tiers : PriceTierTable) (saved : BiddingPriceTier) (tiers' : PriceTierTable) : Prop where
  tierId : saved.tierId = input.tierId.getD uuid
  name : saved.name = input.name
  status : saved.status = input.status.status
  parentTierId : saved.parentTierId = input.parentTierId
  floorConfig : saved.floorConfig = input.floorConfig
  ceilingConfig : saved.ceilingConfig = input.ceilingConfig
  mem : ∀ r, r ∈ tiers' ↔ r = saved ∨ r ∈ tiers ∧ r.tierId ≠ saved.tierId
  parent_exists : ∀ k, saved.parentTierId = some k → ∃ r ∈ tiers', r.tierId = k
  owner : (∃ old ∈ tiers, truthyId input.tierId = some old.tierId ∧ old.tierId = saved.tierId ∧
      saved.collectionId = old.collectionId ∧ saved.chainId = old.chainId) ∨
    (∀ r ∈ tiers, r.tierId ≠ saved.tierId) ∧ saved.collectionId = input.collectionId ∧
      saved.chainId = env.chainOf input.collectionId

theorem truthyId_eq_some {id : Option String} :
    truthyId id = some k ↔ id = some k ∧ k ≠ "" := by
  simp [truthyId, Option.filter_eq_some_iff]

theorem parentExists_iff {parentTierId : Option String} :
    parentExists tiers parentTierId = true ↔ ∀ k, parentTierId = some k → ∃ r ∈ tiers, r.tierId = k := by
  unfold parentExists
  cases parentTierId with
  | none => simp
  | some k => simp [Table.has_iff]

theorem mem_updatePriceTier {tiers : PriceTierTable} {input : PriceTierRecordInput} {tierId : String}
    {r : BiddingPriceTier} :
    r ∈ updatePriceTier tiers input tierId ↔
      ∃ a ∈ tiers, r = if a.tierId = tierId then input.update a else a := by
  rw [updatePriceTier, Table.mem_updateWhere]
  simp only [decide_eq_true_eq]

theorem upsertPriceTier_ok {tiers' : PriceTierTable}
    {input : PriceTierRecordInput}
    (h : upsertPriceTier env tiers input uuid = .ok (saved, tiers')) :
    SavedTier env input uuid tiers saved tiers' := by
  unfold upsertPriceTier at h
  simp only at h
  split at h
  · next hexists =>
    rw [Bool.and_eq_true, Option.isSome_iff_exists] at hexists
    obtain ⟨⟨k, hk⟩, hhas⟩ := hexists
    obtain ⟨old, hold, hid⟩ := Table.has_iff.mp hhas
    split at h
    · cases h
    next hparent =>
    split at h
    · cases h
    next saved' hget =>
    cases h
    obtain ⟨hmem, hsaved⟩ := Table.get?_eq_some.mp hget
    have hall := fun r => @mem_updatePriceTier tiers input (input.tierId.getD uuid) r
    have heq : saved = input.update old := by
      obtain ⟨a, ha, rfl⟩ := (hall saved).mp hmem
      split at hsaved
      · next hida =>
        rw [if_pos hida, Table.eq_of_key_eq ha hold (hida.trans hid.symm)]
      · next hida => exact absurd hsaved hida
    subst heq
    have htruthy : truthyId input.tierId = some old.tierId := by
      obtain ⟨hsome, -⟩ := truthyId_eq_some.mp hk
      rw [hid, hk, hsome]
      rfl
    refine ⟨hsaved, rfl, rfl, rfl, rfl, rfl, fun r => ?_, ?_, ?_⟩
    · rw [hall r]
      constructor
      · rintro ⟨a, ha, rfl⟩
        split
        · next hida =>
          exact Or.inl (by rw [Table.eq_of_key_eq ha hold (hida.trans hid.symm)])
        · next hida => exact Or.inr ⟨ha, fun heq => hida (heq.trans hid)⟩
      · rintro (rfl | ⟨hr, hne⟩)
        · exact ⟨old, hold, by rw [if_pos hid]⟩
        · exact ⟨r, hr, by rw [if_neg (fun heq => hne (heq.trans hid.symm))]⟩
    · exact parentExists_iff.mp (Bool.not_eq_false _ ▸ hparent)
    · exact Or.inl ⟨old, hold, htruthy, rfl, rfl, rfl⟩
  · split at h
    · cases h
    next hfree =>
    split at h
    · cases h
    next hparent =>
    split at h
    · cases h
    next saved' hget =>
    cases h
    rw [Bool.not_eq_true] at hfree
    have hall := fun r => @Table.mem_insertOrIgnore _ _ BiddingPriceTier.tierId _ tiers
      (input.row env (input.tierId.getD uuid)) r
    obtain ⟨hmem, hsaved⟩ := Table.get?_eq_some.mp hget
    have heq : saved = input.row env (input.tierId.getD uuid) := by
      rcases (hall saved).mp hmem with hold | ⟨heq, -⟩
      · exact absurd hsaved (Table.not_has_iff.mp hfree saved hold)
      · exact heq
    subst heq
    refine ⟨rfl, rfl, rfl, rfl, rfl, rfl, fun r => ?_, ?_, ?_⟩
    · rw [hall r]
      constructor
      · rintro (hr | ⟨rfl, -⟩)
        · exact Or.inr ⟨hr, Table.not_has_iff.mp hfree r hr⟩
        · exact Or.inl rfl
      · rintro (rfl | ⟨hr, -⟩)
        · exact Or.inr ⟨rfl, hfree⟩
        · exact Or.inl hr
    · exact parentExists_iff.mp (Bool.not_eq_false _ ▸ hparent)
    · exact Or.inr ⟨Table.not_has_iff.mp hfree, rfl, rfl⟩

theorem prepareUpsert_ok {record : PriceTierRecordInput} (h : prepareUpsert env tiers input = .ok record) :
    ∃ deltaWei prices graph, resolveBiddingPriceTierGraph env
        (candidateTiers env tiers input ++ [input.candidate env deltaWei]) = .ok graph ∧
      record = input.record deltaWei prices := by
  simp only [prepareUpsert, bind_eq_ok, ite_error_eq_ok] at h
  obtain ⟨-, deltaWei, -, graph, hgraph, h⟩ := h
  split at h
  · cases h
  · next prices _ =>
    cases h
    exact ⟨deltaWei, prices, graph, hgraph, rfl⟩

theorem mem_listCollectionPriceTiers {collectionId : Nat}
    {includeArchived : Bool} :
    r ∈ listCollectionPriceTiers env tiers collectionId includeArchived ↔
      r ∈ tiers ∧ r.chainId = env.chainOf collectionId ∧ r.collectionId = collectionId ∧
        (includeArchived = true ∨ r.active = true) := by
  rw [listCollectionPriceTiers, List.mem_insertionSort, Table.mem_select, decide_eq_true_eq]

theorem nodup_listCollectionPriceTiers (env : TierEnv) (tiers : PriceTierTable) (collectionId : Nat)
    (includeArchived : Bool) :
    (listCollectionPriceTiers env tiers collectionId includeArchived).Nodup :=
  (List.perm_insertionSort _ _).nodup_iff.mpr (Table.select_nodup _ _)

theorem nodup_ids (hrows : rows.Nodup) (hsub : ∀ r ∈ rows, r ∈ tiers) : (rows.map (·.tierId)).Nodup :=
  List.Nodup.map_on (fun a ha b hb hid => Table.eq_of_key_eq (hsub a ha) (hsub b hb) hid) hrows

/-! ## 4. The invariant -/

/-- The active tiers of a collection. -/
def activeTiers (tiers : PriceTierTable) (collectionId : Nat) : List BiddingPriceTier :=
  tiers.select (fun tier => tier.collectionId = collectionId ∧ tier.active = true)

theorem mem_activeTiers {collectionId : Nat} :
    r ∈ activeTiers tiers collectionId ↔ r ∈ tiers ∧ r.collectionId = collectionId ∧ r.active = true := by
  rw [activeTiers, Table.mem_select, decide_eq_true_eq]

theorem nodup_activeTiers (tiers : PriceTierTable) (collectionId : Nat) :
    ((activeTiers tiers collectionId).map (·.tierId)).Nodup :=
  nodup_ids (Table.select_nodup _ _) (fun _ hr => (mem_activeTiers.mp hr).1)

/-- The prices of a row are those of its derivation. -/
structure TierInv (env : TierEnv) (tiers : PriceTierTable) : Prop where
  chain : ∀ r ∈ tiers, r.chainId = env.chainOf r.collectionId
  parent : ∀ r ∈ tiers, r.active = true → r.parentTierId ≠ some ""
  priced : ∀ r ∈ tiers, r.active = true →
    ∃ n prices, Forest.Value (tierRule env) (activeTiers tiers r.collectionId) n r prices ∧
      r.resolvedFloorWei = some prices.floorWei ∧ r.resolvedCeilingWei = some prices.ceilingWei

/-- The rows after a graph was written back: those of the graph, and those that are in no graph of the
collection. -/
theorem mem_refreshed {env : TierEnv} {tiers : PriceTierTable} {collectionId : Nat}
    {rows graph : List BiddingPriceTier}
    (hrows : ∀ r, r ∈ rows ↔ r ∈ tiers ∧ r.collectionId = collectionId ∧ r.active = true)
    (hnodup : (rows.map (·.tierId)).Nodup) (hgraph : Resolved env rows graph) {r : BiddingPriceTier} :
    r ∈ updatePriceTierResolutions tiers graph ↔
      r ∈ graph ∨ r ∈ tiers ∧ ¬ (r.collectionId = collectionId ∧ r.active = true) := by
  have hids : (graph.map (·.tierId)).Nodup := hgraph.ids.nodup_iff.mpr hnodup
  have hin (a : BiddingPriceTier) (ha : a ∈ rows) :
      ∃ prices, a.withPrices prices ∈ graph ∧ refreshAll graph a = a.withPrices prices := by
    obtain ⟨n, prices, -, hg⟩ := hgraph.priced a ha
    exact ⟨prices, hg, refreshAll_of_mem hids hg rfl⟩
  have hout (a : BiddingPriceTier) (ha : a ∈ tiers)
      (hno : ¬ (a.collectionId = collectionId ∧ a.active = true)) : refreshAll graph a = a := by
    refine refreshAll_of_not_mem (fun g hg heq => ?_)
    obtain ⟨t, ht, n, prices, -, rfl⟩ := hgraph.derived g hg
    obtain ⟨htiers, hof⟩ := (hrows t).mp ht
    have hsame : t = a := Table.eq_of_key_eq htiers ha heq
    exact hno (hsame ▸ hof)
  rw [mem_updatePriceTierResolutions]
  constructor
  · rintro ⟨a, ha, rfl⟩
    by_cases hof : a.collectionId = collectionId ∧ a.active = true
    · obtain ⟨prices, hg, heq⟩ := hin a ((hrows a).mpr ⟨ha, hof⟩)
      exact Or.inl (heq ▸ hg)
    · rw [hout a ha hof]
      exact Or.inr ⟨ha, hof⟩
  · rintro (hg | ⟨hr, hno⟩)
    · obtain ⟨t, ht, n, prices, hv, rfl⟩ := hgraph.derived r hg
      obtain ⟨htiers, -⟩ := (hrows t).mp ht
      have heq : refreshAll graph t = (t.withPrices prices).refresh t := refreshAll_of_mem hids hg rfl
      exact ⟨t, htiers, heq.symm⟩
    · exact ⟨r, hr, (hout r hr hno).symm⟩

/-- **A graph that resolved is written back.**  `saved` is the table with the definitions of the
collection changed, and `rows` are its active tiers there. -/
theorem TierInv.refreshed {saved : PriceTierTable} {collectionId : Nat}
    (hi : TierInv env tiers)
    (hchain : ∀ r ∈ saved, r.chainId = env.chainOf r.collectionId)
    (hother : ∀ r : BiddingPriceTier, r.collectionId ≠ collectionId → (r ∈ saved ↔ r ∈ tiers))
    (hrows : ∀ r, r ∈ rows ↔ r ∈ saved ∧ r.collectionId = collectionId ∧ r.active = true)
    (hnodup : (rows.map (·.tierId)).Nodup) (hparent : ∀ r ∈ rows, r.parentTierId ≠ some "")
    (hgraph : Resolved env rows graph) :
    TierInv env (updatePriceTierResolutions saved graph) ∧
      ∀ r : BiddingPriceTier, r.collectionId ≠ collectionId →
        (r ∈ updatePriceTierResolutions saved graph ↔ r ∈ tiers) := by
  have hmem := fun r => @mem_refreshed env saved collectionId rows graph hrows hnodup hgraph r
  have hforeign (r : BiddingPriceTier) (hne : r.collectionId ≠ collectionId) :
      r ∈ updatePriceTierResolutions saved graph ↔ r ∈ tiers := by
    rw [hmem r, ← hother r hne]
    constructor
    · rintro (hg | ⟨hr, -⟩)
      · obtain ⟨t, ht, n, prices, -, rfl⟩ := hgraph.derived r hg
        exact absurd ((hrows t).mp ht).2.1 hne
      · exact hr
    · intro hr
      exact Or.inr ⟨hr, fun hof => hne hof.1⟩
  refine ⟨⟨fun r hr => ?_, fun r hr hactive => ?_, fun r hr hactive => ?_⟩, hforeign⟩
  · rcases (hmem r).mp hr with hg | ⟨hr, -⟩
    · obtain ⟨t, ht, n, prices, -, rfl⟩ := hgraph.derived r hg
      exact hchain t ((hrows t).mp ht).1
    · exact hchain r hr
  · by_cases hcoll : r.collectionId = collectionId
    · rcases (hmem r).mp hr with hg | ⟨-, hno⟩
      · obtain ⟨t, ht, n, prices, -, rfl⟩ := hgraph.derived r hg
        exact hparent t ht
      · exact absurd ⟨hcoll, hactive⟩ hno
    · exact hi.parent r ((hforeign r hcoll).mp hr) hactive
  · by_cases hcoll : r.collectionId = collectionId
    · rcases (hmem r).mp hr with hg | ⟨-, hno⟩
      · obtain ⟨t, ht, n, prices, hv, rfl⟩ := hgraph.derived r hg
        refine ⟨n, prices, ?_, rfl, rfl⟩
        -- the same derivation, over the rows that have their prices now
        refine hv.sim (S := fun a a' => ∃ prices, a' = a.withPrices prices) ?_ ?_ ?_ ⟨prices, rfl⟩
        · rintro a _ ⟨_, rfl⟩
          rfl
        · rintro a _ ⟨_, rfl⟩
          exact tierPrices_congr env rfl rfl rfl
        rintro a _ p k _ _ _ ⟨_, rfl⟩ _ hp hid _ _
        obtain ⟨m, pp, -, hpg⟩ := hgraph.priced p hp
        obtain ⟨-, hpc, hpa⟩ := (hrows p).mp hp
        refine ⟨p.withPrices pp, mem_activeTiers.mpr ⟨(hmem _).mpr (Or.inl hpg), ?_, hpa⟩, hid, pp, rfl⟩
        exact hpc.trans hcoll.symm
      · exact absurd ⟨hcoll, hactive⟩ hno
    · obtain ⟨n, prices, hv, hfloor, hceiling⟩ := hi.priced r ((hforeign r hcoll).mp hr) hactive
      refine ⟨n, prices, ?_, hfloor, hceiling⟩
      refine hv.sim (S := fun a a' => a' = a) (fun a _ h => h ▸ rfl) (fun a _ h => h ▸ rfl) ?_ rfl
      rintro a _ p k _ _ _ rfl _ hp hid _ _
      obtain ⟨hpt, hpc, hpa⟩ := mem_activeTiers.mp hp
      have hpne : p.collectionId ≠ collectionId := hpc ▸ hcoll
      exact ⟨p, mem_activeTiers.mpr ⟨(hforeign p hpne).mpr hpt, hpc, hpa⟩, hid, rfl⟩

/-! ## 5. What each call keeps -/

/-- What a call on a collection may do. -/
structure CallKept (env : TierEnv) (tiers : PriceTierTable) (collectionId : Nat)
    (out : Except PriceTierError (List BiddingPriceTier) × PriceTierTable) : Prop where
  inv : TierInv env out.2
  rejected : ∀ e, out.1 = .error e → out.2 = tiers
  other : ∀ r : BiddingPriceTier, r.collectionId ≠ collectionId → (r ∈ out.2 ↔ r ∈ tiers)

theorem CallKept.unchanged {collectionId : Nat}
    {result : Except PriceTierError (List BiddingPriceTier)} (hi : TierInv env tiers) :
    CallKept env tiers collectionId (result, tiers) :=
  ⟨hi, fun _ _ => rfl, fun _ _ => Iff.rfl⟩

/-- The condition on an upsert: the id it names is not that of another collection's tier; a parent that
is the empty text is the id of no tier; and a new tier is not mistaken for one with the stand-in id. -/
def UpsertPriceTierInput.meets (input : UpsertPriceTierInput) (uuid : String) (tiers : PriceTierTable) :
    Bool :=
  (tiers.rows.all (fun r =>
      decide (truthyId input.tierId = some r.tierId → r.collectionId = input.collectionId))) &&
    decide (input.parentTierId = some "" → input.tierId.getD uuid ≠ "" ∧ tiers.has "" = false) &&
    (tiers.rows.all (fun r =>
      decide (input.tierId = none → r.collectionId = input.collectionId → r.active = true →
        r.tierId ≠ newTierId)))

structure Meets (input : UpsertPriceTierInput) (uuid : String) (tiers : PriceTierTable) : Prop where
  owned : ∀ r ∈ tiers, truthyId input.tierId = some r.tierId → r.collectionId = input.collectionId
  parent : input.parentTierId = some "" → input.tierId.getD uuid ≠ "" ∧ ∀ r ∈ tiers, r.tierId ≠ ""
  stand_in : input.tierId = none → ∀ r ∈ tiers, r.collectionId = input.collectionId →
    r.active = true → r.tierId ≠ newTierId

theorem UpsertPriceTierInput.meets_iff : input.meets uuid tiers = true ↔ Meets input uuid tiers := by
  simp only [UpsertPriceTierInput.meets, Bool.and_eq_true, List.all_eq_true, decide_eq_true_eq,
    Table.not_has_iff]
  constructor
  · rintro ⟨⟨howned, hparent⟩, hstand⟩
    exact ⟨howned, hparent, fun hnone r hr => hstand r hr hnone⟩
  · intro h
    exact ⟨⟨h.owned, h.parent⟩, fun r hr hnone => h.stand_in hnone r hr⟩

theorem mem_candidateTiers (hi : TierInv env tiers) : r ∈ candidateTiers env tiers input ↔
      r ∈ tiers ∧ r.collectionId = input.collectionId ∧ r.active = true ∧ some r.tierId ≠ input.tierId := by
  simp only [candidateTiers, List.mem_filter, mem_listCollectionPriceTiers, decide_eq_true_eq, true_or,
    and_true]
  constructor
  · rintro ⟨⟨⟨hr, -, hcoll⟩, hne⟩, hactive⟩
    exact ⟨hr, hcoll, hactive, hne⟩
  · rintro ⟨hr, hcoll, hactive, hne⟩
    exact ⟨⟨⟨hr, hcoll ▸ hi.chain r hr, hcoll⟩, hne⟩, hactive⟩

theorem nodup_candidateTiers (env : TierEnv) (tiers : PriceTierTable) (input : UpsertPriceTierInput) :
    (candidateTiers env tiers input).Nodup :=
  ((nodup_listCollectionPriceTiers env tiers input.collectionId true).filter _).filter _

theorem EditablePriceTierStatus.active {status : EditablePriceTierStatus}
    (h : tier.status = status.status) : tier.active = true := by
  unfold BiddingPriceTier.active
  rw [h]
  cases status <;> rfl

/-- The candidate resolves like the row it was saved as: the second resolution of an upsert succeeds
because the first did. -/
theorem values_of_candidate {others : List BiddingPriceTier}
    {candidate : BiddingPriceTier}
    (hnodup : ((others ++ [candidate]).map (·.tierId)).Nodup)
    (hname : saved.name = candidate.name) (hparent : saved.parentTierId = candidate.parentTierId)
    (hfloor : saved.floorConfig = candidate.floorConfig)
    (hceiling : saved.ceilingConfig = candidate.ceilingConfig)
    (hchild : saved.tierId = candidate.tierId ∨
      ∀ r ∈ others, truthyId r.parentTierId ≠ some candidate.tierId)
    (h : ∀ t ∈ others ++ [candidate],
      ∃ n prices, Forest.Value (tierRule env) (others ++ [candidate]) n t prices) :
    ∀ t ∈ others ++ [saved], ∃ n prices, Forest.Value (tierRule env) (others ++ [saved]) n t prices := by
  let Saved (a a' : BiddingPriceTier) : Prop := a ∈ others ∧ a' = a ∨ a = candidate ∧ a' = saved
  have hsim {n : Nat} {a a' : BiddingPriceTier} {prices : TierPrices}
      (hv : Forest.Value (tierRule env) (others ++ [candidate]) n a prices) (hs : Saved a a') :
      Forest.Value (tierRule env) (others ++ [saved]) n a' prices := by
    refine hv.sim (S := Saved) ?_ ?_ ?_ hs
    · rintro a a' (⟨-, rfl⟩ | ⟨rfl, rfl⟩)
      · rfl
      · exact congrArg truthyId hparent
    · rintro a a' (⟨-, rfl⟩ | ⟨rfl, rfl⟩)
      · rfl
      · exact tierPrices_congr env hname hfloor hceiling
    intro a a' p k m b pb hs hk hp hid hpv hav
    rcases List.mem_append.mp hp with hp | hp
    · exact ⟨p, List.mem_append_left _ hp, hid, Or.inl ⟨hp, rfl⟩⟩
    obtain rfl := List.mem_singleton.mp hp
    refine ⟨saved, List.mem_append_right _ (List.mem_singleton_self _), ?_, Or.inr ⟨rfl, rfl⟩⟩
    rcases hchild with hsame | hchild
    · exact hsame.trans hid
    -- no other tier hangs under the candidate, and nothing hangs under itself
    rcases hs with ⟨ha, -⟩ | ⟨rfl, -⟩
    · exact absurd (hk.trans (congrArg some hid.symm)) (hchild a ha)
    · exact absurd (hav.unique hnodup hpv).1 (by omega)
  intro t ht
  rcases List.mem_append.mp ht with ht | ht
  · obtain ⟨n, prices, hv⟩ := h t (List.mem_append_left _ ht)
    exact ⟨n, prices, hsim hv (Or.inl ⟨ht, rfl⟩)⟩
  · obtain rfl := List.mem_singleton.mp ht
    obtain ⟨n, prices, hv⟩ := h candidate (List.mem_append_right _ (List.mem_singleton_self _))
    exact ⟨n, prices, hsim hv (Or.inr ⟨rfl, rfl⟩)⟩

theorem TierInv.parent_ne (hi : TierInv env tiers) (hr : r ∈ tiers) (hactive : r.active = true)
    (hno : ∀ p ∈ tiers, p.collectionId = r.collectionId → p.active = true → p.tierId ≠ k) :
    truthyId r.parentTierId ≠ some k := by
  intro hk
  obtain ⟨n, prices, hv, -⟩ := hi.priced r hr hactive
  cases hv with
  | root hroot => exact absurd (hroot.symm.trans hk) (by simp)
  | @child _ p k' _ _ _ hparent hp hid _ _ =>
    obtain rfl : k' = k := Option.some.inj (hparent.symm.trans hk)
    obtain ⟨hpt, hpc, hpa⟩ := mem_activeTiers.mp hp
    exact hno p hpt hpc hpa hid

section Upsert

variable {env : TierEnv} {tiers saved' : PriceTierTable} {input : UpsertPriceTierInput} {uuid : String}
  {deltaWei : Int} {prices : TierPrices} {saved : BiddingPriceTier}

theorem SavedTier.collection (h : SavedTier env (input.record deltaWei prices) uuid tiers saved saved')
    (hi : TierInv env tiers) (hmeets : Meets input uuid tiers) :
    saved.collectionId = input.collectionId ∧ saved.chainId = env.chainOf input.collectionId := by
  rcases h.owner with ⟨old, hold, hid, -, hc, hch⟩ | ⟨-, hc, hch⟩
  · have howned := hmeets.owned old hold hid
    exact ⟨hc.trans howned, hch.trans (howned ▸ hi.chain old hold)⟩
  · exact ⟨hc, hch⟩

theorem SavedTier.tierId_ne (h : SavedTier env (input.record deltaWei prices) uuid tiers saved saved')
    {r : BiddingPriceTier} (hr : r ∈ tiers) (hne : some r.tierId ≠ input.tierId) :
    r.tierId ≠ saved.tierId := by
  cases htier : input.tierId with
  | some t =>
    rintro heq
    have hsaved : saved.tierId = input.tierId.getD uuid := h.tierId
    rw [htier] at hsaved hne
    exact hne (congrArg some (heq.trans hsaved))
  | none =>
    rcases h.owner with ⟨old, -, hid, -⟩ | ⟨hfree, -⟩
    · have hnone : truthyId input.tierId = some old.tierId := hid
      rw [htier] at hnone
      cases hnone
    · exact hfree r hr

theorem SavedTier.mem_rows (h : SavedTier env (input.record deltaWei prices) uuid tiers saved saved')
    (hi : TierInv env tiers) (hmeets : Meets input uuid tiers) (r : BiddingPriceTier) :
    r ∈ candidateTiers env tiers input ++ [saved] ↔
      r ∈ saved' ∧ r.collectionId = input.collectionId ∧ r.active = true := by
  rw [List.mem_append, List.mem_singleton, mem_candidateTiers hi, h.mem r]
  constructor
  · rintro (⟨hr, hc, ha, hne⟩ | rfl)
    · exact ⟨Or.inr ⟨hr, h.tierId_ne hr hne⟩, hc, ha⟩
    · exact ⟨Or.inl rfl, (h.collection hi hmeets).1, EditablePriceTierStatus.active h.status⟩
  rintro ⟨rfl | ⟨hr, hne⟩, hc, ha⟩
  · exact Or.inr rfl
  refine Or.inl ⟨hr, hc, ha, fun heq => hne ?_⟩
  have hid : saved.tierId = input.tierId.getD uuid := h.tierId
  rw [hid, ← heq]
  rfl

theorem SavedTier.nodup_rows (h : SavedTier env (input.record deltaWei prices) uuid tiers saved saved')
    (hi : TierInv env tiers) (hmeets : Meets input uuid tiers) :
    ((candidateTiers env tiers input ++ [saved]).map (·.tierId)).Nodup := by
  refine nodup_ids ?_ (fun r hr => ((h.mem_rows hi hmeets r).mp hr).1)
  refine List.nodup_append.mpr ⟨nodup_candidateTiers env tiers input, List.nodup_singleton _, ?_⟩
  intro a ha b hb heq
  obtain ⟨hat, -, -, hne⟩ := (mem_candidateTiers hi).mp ha
  rw [List.mem_singleton.mp hb] at heq
  exact h.tierId_ne hat hne (congrArg BiddingPriceTier.tierId heq)

theorem SavedTier.mem_other (h : SavedTier env (input.record deltaWei prices) uuid tiers saved saved')
    (hi : TierInv env tiers) (hmeets : Meets input uuid tiers) (r : BiddingPriceTier)
    (hne : r.collectionId ≠ input.collectionId) : r ∈ saved' ↔ r ∈ tiers := by
  rw [h.mem r]
  constructor
  · rintro (rfl | ⟨hr, -⟩)
    · exact absurd (h.collection hi hmeets).1 hne
    · exact hr
  intro hr
  refine Or.inr ⟨hr, fun heq => ?_⟩
  rcases h.owner with ⟨old, hold, hid, hold', -⟩ | ⟨hfree, -⟩
  · obtain rfl := Table.eq_of_key_eq hr hold (heq.trans hold'.symm)
    exact hne (hmeets.owned _ hold hid)
  · exact hfree r hr heq

theorem SavedTier.parent_ne (h : SavedTier env (input.record deltaWei prices) uuid tiers saved saved')
    (hmeets : Meets input uuid tiers) : saved.parentTierId ≠ some "" := by
  intro hempty
  obtain ⟨hid, hfree⟩ := hmeets.parent (h.parentTierId.symm.trans hempty)
  obtain ⟨p, hp, hpid⟩ := h.parent_exists "" hempty
  rcases (h.mem p).mp hp with rfl | ⟨hp, -⟩
  · exact hid (h.tierId.symm.trans hpid)
  · exact hfree p hp hpid

theorem candidate_tierId_ne (hi : TierInv env tiers) (hmeets : Meets input uuid tiers)
    {r : BiddingPriceTier} (hr : r ∈ candidateTiers env tiers input) :
    r.tierId ≠ (input.candidate env deltaWei).tierId := by
  obtain ⟨hrt, hc, hra, hne⟩ := (mem_candidateTiers hi).mp hr
  unfold UpsertPriceTierInput.candidate
  cases htier : input.tierId with
  | some t =>
    rw [htier] at hne
    exact fun heq => hne (congrArg some heq)
  | none => exact hmeets.stand_in htier r hrt hc hra

theorem nodup_candidate (hi : TierInv env tiers) (hmeets : Meets input uuid tiers) :
    ((candidateTiers env tiers input ++ [input.candidate env deltaWei]).map (·.tierId)).Nodup := by
  rw [List.map_append]
  refine List.nodup_append.mpr ⟨?_, List.nodup_singleton _, ?_⟩
  · exact nodup_ids (nodup_candidateTiers env tiers input) (fun r hr => ((mem_candidateTiers hi).mp hr).1)
  intro a ha b hb heq
  obtain ⟨r, hr, rfl⟩ := List.mem_map.mp ha
  rw [List.mem_singleton.mp hb] at heq
  exact candidate_tierId_ne hi hmeets hr heq

theorem SavedTier.childless (h : SavedTier env (input.record deltaWei prices) uuid tiers saved saved')
    (hi : TierInv env tiers) (hmeets : Meets input uuid tiers) :
    saved.tierId = (input.candidate env deltaWei).tierId ∨ ∀ r ∈ candidateTiers env tiers input,
        truthyId r.parentTierId ≠ some (input.candidate env deltaWei).tierId := by
  have hid : saved.tierId = input.tierId.getD uuid := h.tierId
  unfold UpsertPriceTierInput.candidate
  cases htier : input.tierId with
  | some t =>
    rw [htier] at hid
    exact Or.inl hid
  | none =>
    refine Or.inr (fun r hr => ?_)
    obtain ⟨hrt, hc, hra, -⟩ := (mem_candidateTiers hi).mp hr
    exact hi.parent_ne hrt hra (fun p hp hpc => hmeets.stand_in htier p hp (hpc.trans hc))

theorem SavedTier.resolves (h : SavedTier env (input.record deltaWei prices) uuid tiers saved saved')
    (hi : TierInv env tiers) (hmeets : Meets input uuid tiers) {graph : List BiddingPriceTier}
    (hgraph : resolveBiddingPriceTierGraph env
      (candidateTiers env tiers input ++ [input.candidate env deltaWei]) = .ok graph) :
    ∃ graph, resolveBiddingPriceTierGraph env (candidateTiers env tiers input ++ [saved]) = .ok graph ∧
      Resolved env (candidateTiers env tiers input ++ [saved]) graph := by
  have hactive (t : BiddingPriceTier)
      (ht : t ∈ candidateTiers env tiers input ++ [input.candidate env deltaWei]) : t.active = true := by
    rcases List.mem_append.mp ht with ht | ht
    · exact ((mem_candidateTiers hi).mp ht).2.2.1
    · rw [List.mem_singleton.mp ht]
      exact EditablePriceTierStatus.active rfl
  have hfirst := resolveBiddingPriceTierGraph_ok hactive (nodup_candidate hi hmeets) hgraph
  have hvalues := values_of_candidate (nodup_candidate hi hmeets) h.name h.parentTierId h.floorConfig
    h.ceilingConfig (h.childless hi hmeets) (fun t ht => by
      obtain ⟨n, p, hv, -⟩ := hfirst.priced t ht
      exact ⟨n, p, hv⟩)
  have hrows (t : BiddingPriceTier) (ht : t ∈ candidateTiers env tiers input ++ [saved]) :
      t.active = true := ((h.mem_rows hi hmeets t).mp ht).2.2
  obtain ⟨graph', hgraph'⟩ := resolveBiddingPriceTierGraph_of_values hrows (h.nodup_rows hi hmeets) hvalues
  exact ⟨graph', hgraph', resolveBiddingPriceTierGraph_ok hrows (h.nodup_rows hi hmeets) hgraph'⟩

/-- **An upsert that meets its condition** restores the invariant or changes nothing. -/
theorem TierInv.upsert (hi : TierInv env tiers) (hmeets : Meets input uuid tiers) :
    CallKept env tiers input.collectionId (upsertCollectionBiddingPriceTier env tiers input uuid) := by
  unfold upsertCollectionBiddingPriceTier
  split
  · exact .unchanged hi
  next record hprepare =>
  obtain ⟨deltaWei, prices, graph₀, hgraph₀, rfl⟩ := prepareUpsert_ok hprepare
  split
  · exact .unchanged hi
  next saved saved' hupsert =>
  have hsaved := upsertPriceTier_ok hupsert
  obtain ⟨graph, hgraph, hresolved⟩ := hsaved.resolves hi hmeets hgraph₀
  obtain ⟨n, p, -, hshown⟩ := hresolved.priced saved (List.mem_append_right _ (List.mem_singleton_self _))
  have hany : graph.any (fun tier => decide (tier.tierId = saved.tierId)) = true :=
    List.any_eq_true.mpr ⟨_, hshown, decide_eq_true rfl⟩
  simp only [hgraph, hany, if_true]
  have hkept := hi.refreshed ?_ (hsaved.mem_other hi hmeets) (hsaved.mem_rows hi hmeets)
    (hsaved.nodup_rows hi hmeets) ?_ hresolved
  · exact ⟨hkept.1, (fun e he => by cases he), hkept.2⟩
  · intro r hr
    rcases (hsaved.mem r).mp hr with rfl | ⟨hr, -⟩
    · obtain ⟨hc, hch⟩ := hsaved.collection hi hmeets
      rw [hc, hch]
    · exact hi.chain r hr
  · intro r hr
    rcases List.mem_append.mp hr with hr | hr
    · obtain ⟨hrt, -, hra, -⟩ := (mem_candidateTiers hi).mp hr
      exact hi.parent r hrt hra
    · rw [List.mem_singleton.mp hr]
      exact hsaved.parent_ne hmeets

end Upsert

/-- What `archivePriceTier` does with a row. -/
def archiveRow (tierId : String) (tier : BiddingPriceTier) : BiddingPriceTier :=
  if tier.tierId = tierId ∧ tier.active = true then tier.archive else tier

theorem archivePriceTier_spec {tierId : String} {existing : BiddingPriceTier}
    (hget : tiers.get? tierId = some existing) :
    (∃ archived, (archivePriceTier tiers tierId).1 = some archived) ∧
      ∀ r, r ∈ (archivePriceTier tiers tierId).2 ↔ ∃ a ∈ tiers, r = archiveRow tierId a := by
  obtain ⟨hmem, hid⟩ := Table.get?_eq_some.mp hget
  simp only [archivePriceTier, hget]
  split
  · next harchived =>
    have hsame (a : BiddingPriceTier) (ha : a ∈ tiers) : archiveRow tierId a = a := by
      refine if_neg (fun h => ?_)
      rw [Table.eq_of_key_eq ha hmem (h.1.trans hid.symm)] at h
      exact of_decide_eq_true h.2 harchived
    refine ⟨⟨existing, rfl⟩, fun r => ⟨fun hr => ⟨r, hr, (hsame r hr).symm⟩, ?_⟩⟩
    rintro ⟨a, ha, rfl⟩
    rw [hsame a ha]
    exact ha
  · next hlive =>
    have hrow (a : BiddingPriceTier) (ha : a ∈ tiers) :
        archiveRow tierId a = if decide (a.tierId = tierId) = true then a.archive else a := by
      unfold archiveRow
      by_cases haid : a.tierId = tierId
      · have hactive : a.active = true := by
          rw [Table.eq_of_key_eq ha hmem (haid.trans hid.symm)]
          exact decide_eq_true hlive
        rw [if_pos ⟨haid, hactive⟩, if_pos (decide_eq_true haid)]
      · rw [if_neg (fun h => haid h.1), if_neg (by simp [haid])]
    refine ⟨⟨existing.archive, ?_⟩, fun r => ?_⟩
    · rw [archiveTierById, Table.get?_updateWhere, hget]
      simp [hid]
    rw [archiveTierById, Table.mem_updateWhere]
    constructor
    · rintro ⟨a, ha, rfl⟩
      exact ⟨a, ha, (hrow a ha).symm⟩
    · rintro ⟨a, ha, rfl⟩
      exact ⟨a, ha, hrow a ha⟩

section Archive

variable {env : TierEnv} {tiers archived : PriceTierTable} {collectionId : Nat} {tierId : String}

/-- `activeTiers` of the use case, without the tier. -/
def remainingTiers (env : TierEnv) (tiers : PriceTierTable) (collectionId : Nat) (tierId : String) :
    List BiddingPriceTier :=
  (listCollectionPriceTiers env tiers collectionId false).filter (fun tier => tier.tierId ≠ tierId)

theorem mem_remainingTiers (hi : TierInv env tiers) {r : BiddingPriceTier} :
    r ∈ remainingTiers env tiers collectionId tierId ↔
      r ∈ activeTiers tiers collectionId ∧ r.tierId ≠ tierId := by
  rw [remainingTiers, List.mem_filter, mem_listCollectionPriceTiers, mem_activeTiers,
    decide_eq_true_eq]
  constructor
  · rintro ⟨⟨hr, -, hc, ha⟩, hne⟩
    exact ⟨⟨hr, hc, by simpa using ha⟩, hne⟩
  · rintro ⟨⟨hr, hc, ha⟩, hne⟩
    exact ⟨⟨hr, hc ▸ hi.chain r hr, hc, Or.inr ha⟩, hne⟩

theorem mem_remainingTiers_archived (hi : TierInv env tiers)
    (hmem : ∀ r, r ∈ archived ↔ ∃ a ∈ tiers, r = archiveRow tierId a) (r : BiddingPriceTier) :
    r ∈ remainingTiers env tiers collectionId tierId ↔
      r ∈ archived ∧ r.collectionId = collectionId ∧ r.active = true := by
  rw [mem_remainingTiers hi, mem_activeTiers, hmem r]
  constructor
  · rintro ⟨⟨hr, hc, ha⟩, hne⟩
    exact ⟨⟨r, hr, (if_neg (fun h => hne h.1)).symm⟩, hc, ha⟩
  rintro ⟨⟨a, ha, rfl⟩, hc, hactive⟩
  unfold archiveRow at hc hactive ⊢
  split at hactive
  · simp [BiddingPriceTier.archive, BiddingPriceTier.active] at hactive
  · next hno =>
    rw [if_neg hno] at hc ⊢
    exact ⟨⟨ha, hc, hactive⟩, fun hid => hno ⟨hid, hactive⟩⟩

theorem remainingTiers_values (hi : TierInv env tiers)
    (hleaf : ∀ r ∈ activeTiers tiers collectionId, r.parentTierId ≠ some tierId) :
    ∀ t ∈ remainingTiers env tiers collectionId tierId, ∃ n prices,
      Forest.Value (tierRule env) (remainingTiers env tiers collectionId tierId) n t prices := by
  intro t ht
  obtain ⟨htactive, -⟩ := (mem_remainingTiers hi).mp ht
  obtain ⟨htt, htc, hta⟩ := mem_activeTiers.mp htactive
  obtain ⟨n, prices, hv, -⟩ := hi.priced t htt hta
  rw [htc] at hv
  refine ⟨n, prices, hv.sim
    (S := fun a a' => a' = a ∧ a ∈ remainingTiers env tiers collectionId tierId) ?_ ?_ ?_ ⟨rfl, ht⟩⟩
  · rintro a _ ⟨rfl, -⟩
    rfl
  · rintro a _ ⟨rfl, -⟩
    rfl
  rintro a _ p k _ _ _ ⟨rfl, har⟩ hk hp hid _ _
  have hpr : p ∈ remainingTiers env tiers collectionId tierId := by
    refine (mem_remainingTiers hi).mpr ⟨hp, fun hpid => ?_⟩
    obtain ⟨hparent, -⟩ := truthyId_eq_some.mp hk
    refine hleaf _ ((mem_remainingTiers hi).mp har).1 ?_
    rw [hparent, ← hid]
    exact congrArg some hpid
  exact ⟨p, hpr, hid, rfl, hpr⟩

theorem TierInv.archive (hi : TierInv env tiers) (collectionId : Nat) (tierId : String) :
    CallKept env tiers collectionId (archiveCollectionBiddingPriceTier env tiers collectionId tierId) := by
  unfold archiveCollectionBiddingPriceTier
  simp only
  split
  · exact .unchanged hi
  next hexists =>
  split
  · exact .unchanged hi
  next hchildren =>
  obtain ⟨existing, hget⟩ : ∃ existing, tiers.get? tierId = some existing := by
    cases hget : tiers.get? tierId with
    | none => simp [hget] at hexists
    | some existing => exact ⟨existing, rfl⟩
  obtain ⟨hexisting, hid⟩ := Table.get?_eq_some.mp hget
  have hcoll : existing.collectionId = collectionId := by simpa [hget] using hexists
  obtain ⟨⟨found, hfound⟩, hmem⟩ := archivePriceTier_spec hget
  have hleaf : ∀ r ∈ activeTiers tiers collectionId, r.parentTierId ≠ some tierId := by
    intro r hr heq
    obtain ⟨hrt, hrc, hra⟩ := mem_activeTiers.mp hr
    exact hchildren (List.any_eq_true.mpr ⟨r, mem_listCollectionPriceTiers.mpr
      ⟨hrt, hrc ▸ hi.chain r hrt, hrc, Or.inr hra⟩, decide_eq_true heq⟩)
  have hrows := fun r => @mem_remainingTiers_archived env tiers _ collectionId tierId hi hmem r
  have hnodup : ((remainingTiers env tiers collectionId tierId).map (·.tierId)).Nodup :=
    nodup_ids ((nodup_listCollectionPriceTiers env tiers collectionId false).filter _)
      (fun r hr => ((hrows r).mp hr).1)
  have hactive (r : BiddingPriceTier) (hr : r ∈ remainingTiers env tiers collectionId tierId) :
      r.active = true := ((hrows r).mp hr).2.2
  obtain ⟨graph, hgraph⟩ := resolveBiddingPriceTierGraph_of_values hactive hnodup
    (remainingTiers_values hi hleaf)
  have hresolved := resolveBiddingPriceTierGraph_ok hactive hnodup hgraph
  have hkept := hi.refreshed ?_ ?_ hrows hnodup ?_ hresolved
  · rcases harchive : archivePriceTier tiers tierId with ⟨found', archived⟩
    rw [harchive] at hfound hkept
    simp only at hfound
    subst hfound
    unfold remainingTiers at hgraph
    simp only [hgraph]
    exact ⟨hkept.1, (fun e he => by cases he), hkept.2⟩
  · intro r hr
    obtain ⟨a, ha, rfl⟩ := (hmem r).mp hr
    unfold archiveRow
    split
    · exact hi.chain a ha
    · exact hi.chain a ha
  · intro r hne
    rw [hmem r]
    have hsame (a : BiddingPriceTier) (ha : a ∈ tiers) (hac : a.collectionId ≠ collectionId) :
        archiveRow tierId a = a := by
      refine if_neg (fun h => hac ?_)
      rw [Table.eq_of_key_eq ha hexisting (h.1.trans hid.symm)]
      exact hcoll
    constructor
    · rintro ⟨a, ha, rfl⟩
      have hac : a.collectionId ≠ collectionId := by
        unfold archiveRow at hne
        split at hne
        · exact hne
        · exact hne
      rw [hsame a ha hac]
      exact ha
    · intro hr
      exact ⟨r, hr, (hsame r hr hne).symm⟩
  · intro r hr
    obtain ⟨hrt, -, hra⟩ := mem_activeTiers.mp ((mem_remainingTiers hi).mp hr).1
    exact hi.parent r hrt hra

end Archive

/-! ## 6. Sequences of calls -/

/-- What holds of the tiers of a collection: they are a forest of active tiers, and resolving the
definitions gives the prices that are stored. -/
structure GraphSound (env : TierEnv) (tiers : PriceTierTable) (collectionId : Nat) : Prop where
  forest : ∃ depth : String → Nat, ∀ r ∈ activeTiers tiers collectionId, ∀ k, r.parentTierId = some k →
      ∃ p ∈ activeTiers tiers collectionId, p.tierId = k ∧ depth k < depth r.tierId
  resolved : ∃ graph,
    resolveBiddingPriceTierGraph env (listCollectionPriceTiers env tiers collectionId true) = .ok graph ∧
    ∀ r ∈ activeTiers tiers collectionId, ∃ g ∈ graph, g.tierId = r.tierId ∧
      r.resolvedFloorWei = g.resolvedFloorWei ∧ r.resolvedCeilingWei = g.resolvedCeilingWei ∧
      ∃ floorWei ceilingWei, r.resolvedFloorWei = some floorWei ∧
        r.resolvedCeilingWei = some ceilingWei ∧ 0 < floorWei ∧ floorWei ≤ ceilingWei

theorem resolveBiddingPriceTierGraph_filter (env : TierEnv) (tiers : List BiddingPriceTier) :
    resolveBiddingPriceTierGraph env tiers =
      resolveBiddingPriceTierGraph env (tiers.filter BiddingPriceTier.active) := by
  simp only [resolveBiddingPriceTierGraph, List.filter_filter, Bool.and_self]

theorem TierInv.sound (hi : TierInv env tiers)
    (collectionId : Nat) : GraphSound env tiers collectionId := by
  have hpriced : ∀ r ∈ activeTiers tiers collectionId, ∃ n prices,
      Forest.Value (tierRule env) (activeTiers tiers collectionId) n r prices ∧
      r.resolvedFloorWei = some prices.floorWei ∧ r.resolvedCeilingWei = some prices.ceilingWei := by
    intro r hr
    obtain ⟨hrt, hrc, hra⟩ := mem_activeTiers.mp hr
    exact hrc ▸ hi.priced r hrt hra
  constructor
  · obtain ⟨depth, hdepth⟩ := Forest.exists_depth (nodup_activeTiers tiers collectionId) (fun r hr => by
        obtain ⟨n, prices, hv, -⟩ := hpriced r hr
        exact ⟨n, prices, hv⟩)
    refine ⟨depth, fun r hr k hk => hdepth r hr k (truthyId_eq_some.mpr ⟨hk, ?_⟩)⟩
    rintro rfl
    obtain ⟨hrt, -, hra⟩ := mem_activeTiers.mp hr
    exact hi.parent r hrt hra hk
  · let rows := (listCollectionPriceTiers env tiers collectionId true).filter BiddingPriceTier.active
    have hrows (r : BiddingPriceTier) : r ∈ rows ↔ r ∈ activeTiers tiers collectionId := by
      rw [List.mem_filter, mem_listCollectionPriceTiers, mem_activeTiers]
      constructor
      · rintro ⟨⟨hr, -, hc, -⟩, ha⟩
        exact ⟨hr, hc, ha⟩
      · rintro ⟨hr, hc, ha⟩
        exact ⟨⟨hr, hc ▸ hi.chain r hr, hc, Or.inl rfl⟩, ha⟩
    have hactive (r : BiddingPriceTier) (hr : r ∈ rows) : r.active = true := (List.mem_filter.mp hr).2
    have hnodup : (rows.map (·.tierId)).Nodup :=
      nodup_ids ((nodup_listCollectionPriceTiers env tiers collectionId true).filter _)
        (fun r hr => (mem_activeTiers.mp ((hrows r).mp hr)).1)
    -- the order of the list does not matter to a derivation
    have hvalue {n : Nat} {r : BiddingPriceTier} {prices : TierPrices}
        (hv : Forest.Value (tierRule env) (activeTiers tiers collectionId) n r prices) :
        Forest.Value (tierRule env) rows n r prices := by
      refine hv.sim (S := fun a a' => a' = a) (fun a _ h => h ▸ rfl) (fun a _ h => h ▸ rfl) ?_ rfl
      rintro a _ p k _ _ _ rfl _ hp hid _ _
      exact ⟨p, (hrows p).mpr hp, hid, rfl⟩
    obtain ⟨graph, hgraph⟩ := resolveBiddingPriceTierGraph_of_values hactive hnodup (fun r hr => by
      obtain ⟨n, prices, hv, -⟩ := hpriced r ((hrows r).mp hr)
      exact ⟨n, prices, hvalue hv⟩)
    have hresolved := resolveBiddingPriceTierGraph_ok hactive hnodup hgraph
    refine ⟨graph, (resolveBiddingPriceTierGraph_filter env _).trans hgraph, fun r hr => ?_⟩
    obtain ⟨n, prices, hv, hfloor, hceiling⟩ := hpriced r hr
    obtain ⟨m, prices', hv', hg⟩ := hresolved.priced r ((hrows r).mpr hr)
    obtain ⟨-, rfl⟩ := (hvalue hv).unique hnodup hv'
    obtain ⟨hpos, hle⟩ := value_pos hv
    exact ⟨_, hg, rfl, hfloor, hceiling, prices'.floorWei, prices'.ceilingWei, hfloor, hceiling, hpos, hle⟩

/-- The tables of the calls; neither use case has a statement on the jobs. -/
structure TradingDb (Job : Type) where
  tiers : PriceTierTable
  jobs : List Job

/-- One call; `uuid` is what `randomUUID` returns in it. -/
inductive TierCall where
  | upsert (input : UpsertPriceTierInput) (uuid : String)
  | archive (collectionId : Nat) (tierId : String)

namespace TierCall

/-- The collection of the call. -/
def collectionId : TierCall → Nat
  | .upsert input _ => input.collectionId
  | .archive collectionId _ => collectionId

variable {Job : Type}

/-- What the call returns, and the tiers after it. -/
def apply (env : TierEnv) (tiers : PriceTierTable) :
    TierCall → Except PriceTierError (List BiddingPriceTier) × PriceTierTable
  | .upsert input uuid => upsertCollectionBiddingPriceTier env tiers input uuid
  | .archive collectionId tierId => archiveCollectionBiddingPriceTier env tiers collectionId tierId

/-- What the call returns, and the tables after it. -/
def exec (env : TierEnv) (db : TradingDb Job) (call : TierCall) :
    Except PriceTierError (List BiddingPriceTier) × TradingDb Job :=
  ((call.apply env db.tiers).1, { db with tiers := (call.apply env db.tiers).2 })

/-- The condition of a call; an archive has none. -/
def meets (tiers : PriceTierTable) : TierCall → Bool
  | .upsert input uuid => input.meets uuid tiers
  | .archive _ _ => true

end TierCall

/-- The tables after a sequence of calls. -/
def runCalls {Job : Type} (env : TierEnv) (db : TradingDb Job) (calls : List TierCall) : TradingDb Job :=
  calls.foldl (fun db call => (call.exec env db).2) db

/-- Every call meets its condition when its turn comes. -/
def meetsThroughout {Job : Type} (env : TierEnv) : TradingDb Job → List TierCall → Bool
  | _, [] => true
  | db, call :: rest => call.meets db.tiers && meetsThroughout env (call.exec env db).2 rest

/-- What a call leaves alone. -/
structure CallFramed {Job : Type} (env : TierEnv) (db : TradingDb Job) (call : TierCall) : Prop where
  rejected : ∀ e, (call.exec env db).1 = .error e → (call.exec env db).2 = db
  other_tiers : ∀ r : BiddingPriceTier, r.collectionId ≠ call.collectionId →
    (r ∈ (call.exec env db).2.tiers ↔ r ∈ db.tiers)
  jobs : (call.exec env db).2.jobs = db.jobs

theorem TierInv.exec {db : TradingDb Job} {call : TierCall}
    (hi : TierInv env db.tiers) (hmeets : call.meets db.tiers = true) :
    TierInv env (call.exec env db).2.tiers ∧ CallFramed env db call := by
  have hkept : CallKept env db.tiers call.collectionId (call.apply env db.tiers) := by
    cases call with
    | upsert input uuid => exact hi.upsert (UpsertPriceTierInput.meets_iff.mp hmeets)
    | archive collectionId tierId => exact hi.archive collectionId tierId
  refine ⟨hkept.inv, fun e he => ?_, hkept.other, rfl⟩
  unfold TierCall.exec
  rw [hkept.rejected e he]

theorem TierInv.run {Job : Type} {env : TierEnv} : ∀ {calls : List TierCall} {db : TradingDb Job},
    TierInv env db.tiers → meetsThroughout env db calls = true →
    TierInv env (runCalls env db calls).tiers
  | [], _, hi, _ => hi
  | call :: rest, db, hi, h => by
    rw [meetsThroughout, Bool.and_eq_true] at h
    have hrest : TierInv env (runCalls env (call.exec env db).2 rest).tiers :=
      TierInv.run (hi.exec h.1).1 h.2
    exact hrest

theorem meetsThroughout_append : ∀ {before after : List TierCall} {db : TradingDb Job},
      meetsThroughout env db (before ++ after) = true →
      meetsThroughout env db before = true ∧ meetsThroughout env (runCalls env db before) after = true
  | [], _, _, h => ⟨rfl, h⟩
  | call :: rest, after, db, h => by
    rw [List.cons_append, meetsThroughout, Bool.and_eq_true] at h
    obtain ⟨hrest, hafter⟩ := meetsThroughout_append h.2
    exact ⟨by rw [meetsThroughout, h.1, hrest]; rfl, hafter⟩

/-- **Price tiers stay resolved forests.**  In every sequence of calls that meet their conditions, from
no tiers: in every state the tiers of every collection are sound, a rejected call changes nothing, and a
call leaves the tiers of other collections and the jobs. -/
theorem price_tiers_kept {Job : Type} (env : TierEnv) (jobs : List Job) (calls : List TierCall)
    (hmeets : meetsThroughout env ⟨.empty, jobs⟩ calls = true) :
    ∀ before after, calls = before ++ after →
      (∀ collectionId, GraphSound env (runCalls env ⟨.empty, jobs⟩ before).tiers collectionId) ∧
        ∀ call rest, after = call :: rest → CallFramed env (runCalls env ⟨.empty, jobs⟩ before) call := by
  rintro before after rfl
  have hempty : TierInv env (Table.empty : PriceTierTable) :=
    ⟨fun r hr => absurd hr Table.not_mem_empty, fun r hr => absurd hr Table.not_mem_empty,
      fun r hr => absurd hr Table.not_mem_empty⟩
  obtain ⟨hbefore, hafter⟩ := meetsThroughout_append hmeets
  have hi : TierInv env (runCalls env ⟨.empty, jobs⟩ before).tiers := TierInv.run hempty hbefore
  refine ⟨hi.sound, ?_⟩
  rintro call rest rfl
  rw [meetsThroughout, Bool.and_eq_true] at hafter
  exact (hi.exec hafter.1).2

/-- Amounts of one and two ether, on one chain. -/
def sampleEnv : TierEnv where
  parseEther := fun s =>
    if s = "1" then .ok 1000000000000000000
    else if s = "2" then .ok 2000000000000000000
    else .error ("Number " ++ s ++ " is not a valid decimal number.")
  localeCompare := fun a b => if a = b then 0 else if a < b then -1 else 1
  chainOf := fun _ => 1

def sampleInput (collectionId : Nat) (tierId parentTierId : Option String) (floor : PriceTierFloorConfig) :
    UpsertPriceTierInput where
  collectionId := collectionId
  tierId := tierId
  name := "Floor"
  status := .enabled
  sortOrder := 0
  parentTierId := parentTierId
  floorConfig := floor
  ceilingConfig := .fixed "2"
  deltaEth := "1"

/-- A root in collection 1, and a tier ten percent above it. -/
def sampleCalls : List TierCall :=
  [.upsert (sampleInput 1 none none (.fixed "1")) "root",
    .upsert (sampleInput 1 none (some "root") (.parentDelta ⟨.percent, none, some "10"⟩)) "child"]

theorem price_tiers_kept_sample : (runCalls sampleEnv ⟨.empty, ([] : List Unit)⟩ sampleCalls).tiers.rows.map
        (fun r => (r.tierId, r.resolvedFloorWei)) =
      [("root", some 1000000000000000000), ("child", some 1100000000000000000)] ∧
    ∀ collectionId, GraphSound sampleEnv
      (runCalls sampleEnv ⟨.empty, ([] : List Unit)⟩ sampleCalls).tiers collectionId :=
  ⟨by decide +kernel, (price_tiers_kept sampleEnv [] sampleCalls (by decide +kernel) sampleCalls []
      (List.append_nil _).symm).1⟩

/-- A root in collection 1 alone. -/
def rootDb : TradingDb Unit :=
  runCalls sampleEnv ⟨.empty, []⟩ [.upsert (sampleInput 1 none none (.fixed "1")) "root"]

/-- A call on collection 2 that names the tier of collection 1. -/
def foreignCall : TierCall := .upsert (sampleInput 2 (some "root") none (.fixed "2")) ""

/-- **A call on collection 2 changes the tier of collection 1** whose id it names, and is accepted. -/
theorem foreign_price_tier_changed :
    (∃ graph, (foreignCall.exec sampleEnv rootDb).1 = .ok graph) ∧ ¬ CallFramed sampleEnv rootDb foreignCall := by
  let row := ((sampleInput 1 none none (.fixed "1")).record 1000000000000000000
    ⟨1000000000000000000, 2000000000000000000⟩).row sampleEnv "root"
  have hthere : row ∈ rootDb.tiers.rows := by decide +kernel
  have hgone : row ∉ (foreignCall.exec sampleEnv rootDb).2.tiers.rows := by decide +kernel
  have haccepted : (foreignCall.exec sampleEnv rootDb).1.isOk = true := by decide +kernel
  constructor
  · cases hresult : (foreignCall.exec sampleEnv rootDb).1 with
    | error e =>
      rw [hresult] at haccepted
      cases haccepted
    | ok graph => exact ⟨graph, rfl⟩
  · intro hframed
    have hkept := hframed.other_tiers row (by decide)
    rw [Table.mem_def, Table.mem_def] at hkept
    exact hgone (hkept.mpr hthere)

end Artgod.Trading
