/-
# Tokens that meet trait filters

`shared/read-models/trait-filters.ts` and `token-candidates.ts`: a request filters the tokens of a collection by
exact values of traits and by ranges of unsigned integers.  The requested filters are normalized and grouped, one
query counts for each token the filtered keys that it meets, and the answers of the two queries are intersected.

Two things are lost on the way.  Filters whose texts, joined by a colon, are the same count as one; and the casts
of the query stop at the greatest 64-bit integer.  §4 says for which requests neither matters.
-/
import Artgod.Js.Grouping
import Artgod.Text.Decimal
import Artgod.Trading.TraitFilters
import Mathlib.Data.List.Dedup

namespace Artgod.ReadModels

open Js Trading

/-! ## 1. Normalized filters -/

/-- One filter of `normalizeTraitFilters`, trimmed. -/
def trimTraitFilter (filter : TraitFilter) : Except String TraitFilter :=
  let key := trim filter.key
  let value := trim filter.value
  if key = "" ∨ value = "" then .error "Invalid trait filter" else .ok ⟨key, value⟩

def traitFilterSignature (filter : TraitFilter) : String := filter.key ++ ":" ++ filter.value

def normalizeTraitFilters (filters : List TraitFilter) : Except String (List TraitFilter) := do
  let trimmed ← filters.mapM trimTraitFilter
  return Store.dropSeen traitFilterSignature [] trimmed

/-- `TraitRangeFilter` as it is requested. -/
structure RequestedTraitRange where
  key : String
  fromValue : Option String
  toValue : Option String

/-- One range of `normalizeTraitRangeFilters`; a bound that is empty when trimmed is none. -/
def normalizeTraitRange (normalized : SelectedTraitRanges) (filter : RequestedTraitRange) :
    Except String SelectedTraitRanges := do
  let key := trim filter.key
  let fromValue ← readTraitRangeBound ((filter.fromValue.map trim).getD "")
  let toValue ← readTraitRangeBound ((filter.toValue.map trim).getD "")
  let range : TraitRangeFilter := ⟨key, fromValue, toValue⟩
  if key = "" ∨ fromValue = none ∧ toValue = none then .error "Invalid trait range filter"
  else if hordered : range.isOrdered = true then
    if hkey : range.key ∉ normalized.ranges.map (·.key) then .ok (normalized.push range hkey hordered)
    else .error "Duplicate trait range filter"
  else .error "Invalid trait range filter"

def normalizeTraitRangeFilters (filters : List RequestedTraitRange) : Except String SelectedTraitRanges :=
  filters.foldlM normalizeTraitRange .empty

structure TraitFilterGroup where
  key : String
  values : List String

/-- `groupTraitFilters`; the values of a key are a set. -/
def groupTraitFilters (filters : List TraitFilter) : List TraitFilterGroup :=
  (OrderedMap.group (·.key) filters).entries.map fun entry =>
    ⟨entry.1, Store.dropSeen id [] (entry.2.map (·.value))⟩

/-! ## 2. The queries -/

/-- A row of `token_attributes`, with the key and the value of its attribute. -/
structure TokenAttributeRow where
  chainId : Nat
  collectionId : Nat
  tokenId : String
  key : String
  value : String

/-- The tokens that are asked for. -/
structure CandidateScope where
  chainId : Nat
  collectionId : Nat
  tokenId : Option String
  seedTokenIds : Option (List String)

/-- The conditions on the token; an empty token id is none. -/
def CandidateScope.admits (scope : CandidateScope) (row : TokenAttributeRow) : Bool :=
  row.chainId = scope.chainId && row.collectionId = scope.collectionId &&
    scope.tokenId.all (fun tokenId => tokenId = "" || row.tokenId = tokenId) &&
    scope.seedTokenIds.all fun seed => row.tokenId ∈ seed

/-- A condition of a query on the attributes of a key. -/
structure AttributeClause where
  key : String
  accepts : String → Bool

/-- The query: the tokens whose attributes meet as many keys as there are clauses. -/
def queryTokenIds (rows : List TokenAttributeRow) (scope : CandidateScope) (clauses : List AttributeClause) :
    List String :=
  let matching := rows.filter fun row =>
    clauses.any (fun clause => row.key = clause.key && clause.accepts row.value) && scope.admits row
  ((matching.map (·.tokenId)).dedup.filter fun tokenId =>
    ((matching.filter (·.tokenId = tokenId)).map (·.key)).dedup.length = clauses.length).insertionSort (· ≤ ·)

/-- The greatest integer of SQLite. -/
def sqliteMaxInteger : Nat := 2 ^ 63 - 1

/-- `CAST(text AS INTEGER)` of decimal digits. -/
def castInteger (text : String) : Nat := min (decimalValue text) sqliteMaxInteger

def exactClause (group : TraitFilterGroup) : AttributeClause := ⟨group.key, (· ∈ group.values)⟩

def rangeClause (range : TraitRangeFilter) : AttributeClause where
  key := range.key
  accepts value := isUnsignedInteger value &&
    range.fromValue.all (fun fromValue => castInteger fromValue.text ≤ castInteger value) &&
    range.toValue.all fun toValue => castInteger value ≤ castInteger toValue.text

/-- `listExactTraitFilterTokenIds` and `listTraitRangeFilterTokenIds`. -/
def listTokenIds (rows : List TokenAttributeRow) (scope : CandidateScope) (clauses : List AttributeClause) :
    List String :=
  if clauses = [] ∨ scope.seedTokenIds = some [] then [] else queryTokenIds rows scope clauses

def intersectTokenIdSets (candidateSets : List (List String)) : List String :=
  match candidateSets.insertionSort fun left right => left.length ≤ right.length with
  | [] => []
  | firstSet :: remainingSets =>
    remainingSets.foldl (fun tokenIds candidateSet => tokenIds.filter (· ∈ candidateSet)) firstSet

/-- `resolveTraitFilterTokenCandidates`; without filters there is no restriction. -/
def resolveTraitFilterTokenCandidates (rows : List TokenAttributeRow) (scope : CandidateScope)
    (traitFilterGroups : List TraitFilterGroup) (traitRangeFilterGroups : List TraitRangeFilter) :
    Option (List String) :=
  let candidateSets :=
    (if traitFilterGroups = [] then [] else [listTokenIds rows scope (traitFilterGroups.map exactClause)]) ++
      if traitRangeFilterGroups = [] then [] else [listTokenIds rows scope (traitRangeFilterGroups.map rangeClause)]
  if candidateSets = [] then none else some (intersectTokenIdSets candidateSets)

/-! ## 3. What the queries find -/

/-- The token has an attribute of the key with such a value. -/
def HasAttribute (rows : List TokenAttributeRow) (scope : CandidateScope) (tokenId key : String)
    (accepts : String → Prop) : Prop :=
  ∃ row ∈ rows, scope.admits row = true ∧ row.tokenId = tokenId ∧ row.key = key ∧ accepts row.value

variable {rows : List TokenAttributeRow} {scope : CandidateScope} {clauses : List AttributeClause} {tokenId key : String}

theorem HasAttribute.mono {p q : String → Prop} (h : HasAttribute rows scope tokenId key p) (hpq : ∀ v, p v → q v) :
    HasAttribute rows scope tokenId key q := by
  obtain ⟨row, hrow, hscope, htoken, hkey, hp⟩ := h
  exact ⟨row, hrow, hscope, htoken, hkey, hpq _ hp⟩

theorem length_dedup_eq_iff {keys found : List String} (hkeys : keys.Nodup) (hfound : ∀ k ∈ found, k ∈ keys) :
    found.dedup.length = keys.length ↔ ∀ k ∈ keys, k ∈ found := by
  have hsub : found.dedup.Subperm keys :=
    List.subperm_of_subset (List.nodup_dedup found) fun k hk => hfound k (List.mem_dedup.mp hk)
  constructor
  · intro hlength k hk
    exact List.mem_dedup.mp ((hsub.perm_of_length_le hlength.ge).mem_iff.mpr hk)
  · intro hall
    have hle := (List.subperm_of_subset hkeys fun k hk => List.mem_dedup.mpr (hall k hk)).length_le
    exact Nat.le_antisymm hsub.length_le hle

theorem mem_queryTokenIds (hkeys : (clauses.map (·.key)).Nodup) (hne : clauses ≠ []) :
    tokenId ∈ queryTokenIds rows scope clauses ↔
      ∀ clause ∈ clauses, HasAttribute rows scope tokenId clause.key fun v => clause.accepts v = true := by
  have hinj := List.inj_on_of_nodup_map hkeys
  have hmatching : ∀ clause ∈ clauses, clause.key ∈ ((rows.filter fun row =>
      clauses.any (fun clause => row.key = clause.key && clause.accepts row.value) && scope.admits row).filter
        (·.tokenId = tokenId)).map (·.key) ↔
      HasAttribute rows scope tokenId clause.key fun v => clause.accepts v = true := by
    intro clause hclause
    simp only [List.mem_map, List.mem_filter, Bool.and_eq_true, List.any_eq_true, decide_eq_true_iff]
    constructor
    · rintro ⟨row, ⟨⟨hrow, ⟨other, hother, hkey, haccepts⟩, hscope⟩, htoken⟩, hrowKey⟩
      obtain rfl := hinj hother hclause (hkey.symm.trans hrowKey)
      exact ⟨row, hrow, hscope, htoken, hrowKey, haccepts⟩
    · rintro ⟨row, hrow, hscope, htoken, hkey, haccepts⟩
      exact ⟨row, ⟨⟨hrow, ⟨clause, hclause, hkey, haccepts⟩, hscope⟩, htoken⟩, hkey⟩
  have hcount := @length_dedup_eq_iff (clauses.map (·.key)) (((rows.filter fun row =>
      clauses.any (fun clause => row.key = clause.key && clause.accepts row.value) && scope.admits row).filter
        (·.tokenId = tokenId)).map (·.key)) hkeys fun k hk => by
    simp only [List.mem_map, List.mem_filter, Bool.and_eq_true, List.any_eq_true, decide_eq_true_iff] at hk
    obtain ⟨row, ⟨⟨-, ⟨other, hother, hkey, -⟩, -⟩, -⟩, rfl⟩ := hk
    exact List.mem_map.mpr ⟨other, hother, hkey.symm⟩
  rw [List.length_map, List.forall_mem_map] at hcount
  rw [queryTokenIds, List.mem_insertionSort, List.mem_filter, List.mem_dedup, decide_eq_true_iff, hcount]
  constructor
  · exact fun h clause hclause => (hmatching clause hclause).mp (h.2 clause hclause)
  intro h
  refine ⟨?_, fun clause hclause => (hmatching clause hclause).mpr (h clause hclause)⟩
  obtain ⟨clause, rest, rfl⟩ := List.exists_cons_of_ne_nil hne
  have hfirst := (hmatching clause List.mem_cons_self).mpr (h clause List.mem_cons_self)
  obtain ⟨row, hrow, -⟩ := List.mem_map.mp hfirst
  obtain ⟨hrow, htoken⟩ := List.mem_filter.mp hrow
  exact List.mem_map.mpr ⟨row, hrow, of_decide_eq_true htoken⟩

theorem mem_listTokenIds (hkeys : (clauses.map (·.key)).Nodup) (hne : clauses ≠ []) :
    tokenId ∈ listTokenIds rows scope clauses ↔
      ∀ clause ∈ clauses, HasAttribute rows scope tokenId clause.key fun v => clause.accepts v = true := by
  unfold listTokenIds
  split
  · next h =>
    have hseed := h.resolve_left hne
    obtain ⟨clause, rest, rfl⟩ := List.exists_cons_of_ne_nil hne
    refine iff_of_false List.not_mem_nil fun hall => ?_
    obtain ⟨row, -, hscope, -⟩ := hall clause List.mem_cons_self
    simp [CandidateScope.admits, hseed] at hscope
  · exact mem_queryTokenIds hkeys hne

theorem mem_foldl_filter {first : List String} {rest : List (List String)} :
    tokenId ∈ rest.foldl (fun tokenIds candidateSet => tokenIds.filter (· ∈ candidateSet)) first ↔
      tokenId ∈ first ∧ ∀ s ∈ rest, tokenId ∈ s := by
  induction rest generalizing first with
  | nil => simp
  | cons s rest ih =>
    rw [List.foldl_cons, ih, List.mem_filter, List.forall_mem_cons, decide_eq_true_iff, and_assoc]

theorem mem_intersectTokenIdSets {sets : List (List String)} (hne : sets ≠ []) :
    tokenId ∈ intersectTokenIdSets sets ↔ ∀ s ∈ sets, tokenId ∈ s := by
  have hperm := List.perm_insertionSort (fun left right : List String => left.length ≤ right.length) sets
  unfold intersectTokenIdSets
  split
  · next h => exact absurd (h ▸ hperm).nil_eq.symm hne
  next first rest h =>
  have hcons : (∀ s ∈ first :: rest, tokenId ∈ s) ↔ tokenId ∈ first ∧ ∀ s ∈ rest, tokenId ∈ s :=
    List.forall_mem_cons
  rw [mem_foldl_filter, ← hcons, ← h]
  exact forall_congr' fun s => imp_congr_left hperm.mem_iff

theorem mem_groupTraitFilters {filters : List TraitFilter} {group : TraitFilterGroup}
    (h : group ∈ groupTraitFilters filters) (value : String) :
    (exactClause group).accepts value = true ↔ ⟨group.key, value⟩ ∈ filters := by
  obtain ⟨⟨k, fs⟩, hentry, rfl⟩ := List.mem_map.mp h
  obtain ⟨-, rfl⟩ := OrderedMap.mem_entries_group.mp hentry
  rw [exactClause, decide_eq_true_iff]
  dsimp only
  rw [@Store.mem_dropSeen _ _ _ id _ _ _ fun _ _ _ _ h => h, List.mem_map]
  constructor
  · rintro ⟨⟨filter, hfilter, rfl⟩, -⟩
    obtain ⟨hmem, rfl⟩ := OrderedMap.mem_groupOf.mp hfilter
    exact hmem
  · exact fun hmem => ⟨⟨_, OrderedMap.mem_groupOf.mpr ⟨hmem, rfl⟩, rfl⟩, List.not_mem_nil⟩

theorem forall_groupTraitFilters {filters : List TraitFilter} {p : String → Prop} :
    (∀ group ∈ groupTraitFilters filters, p group.key) ↔ ∀ filter ∈ filters, p filter.key := by
  constructor
  · intro h filter hfilter
    have hne : OrderedMap.groupOf (·.key) filters filter.key ≠ [] :=
      List.ne_nil_of_mem (OrderedMap.mem_groupOf.mpr ⟨hfilter, rfl⟩)
    exact h _ (List.mem_map_of_mem (OrderedMap.mem_entries_group.mpr ⟨hne, rfl⟩))
  · intro h group hgroup
    obtain ⟨⟨k, fs⟩, hentry, rfl⟩ := List.mem_map.mp hgroup
    obtain ⟨hne, rfl⟩ := OrderedMap.mem_entries_group.mp hentry
    obtain ⟨filter, hfilter⟩ := List.exists_mem_of_ne_nil _ hne
    obtain ⟨hmem, hkey⟩ := OrderedMap.mem_groupOf.mp hfilter
    exact hkey ▸ h filter hmem

theorem groupTraitFilters_eq_nil {filters : List TraitFilter} : groupTraitFilters filters = [] ↔ filters = [] := by
  have h := @forall_groupTraitFilters filters fun _ => False
  simpa [← List.eq_nil_iff_forall_not_mem] using h

/-- The token meets the exact filters and the ranges, numbers being read by the query. -/
def FoundFor (rows : List TokenAttributeRow) (scope : CandidateScope) (filters : List TraitFilter)
    (ranges : List TraitRangeFilter) (tokenId : String) : Prop :=
  (∀ filter ∈ filters, HasAttribute rows scope tokenId filter.key fun v => ⟨filter.key, v⟩ ∈ filters) ∧
    ∀ range ∈ ranges, HasAttribute rows scope tokenId range.key fun v => (rangeClause range).accepts v = true

theorem resolve_found (rows : List TokenAttributeRow) (scope : CandidateScope) (filters : List TraitFilter)
    {ranges : List TraitRangeFilter} (hkeys : (ranges.map (·.key)).Nodup) :
    (resolveTraitFilterTokenCandidates rows scope (groupTraitFilters filters) ranges = none ↔
      filters = [] ∧ ranges = []) ∧
    ∀ tokenIds, resolveTraitFilterTokenCandidates rows scope (groupTraitFilters filters) ranges = some tokenIds →
      ∀ tokenId, tokenId ∈ tokenIds ↔ FoundFor rows scope filters ranges tokenId := by
  have hexact : groupTraitFilters filters ≠ [] → ∀ tokenId,
      tokenId ∈ listTokenIds rows scope ((groupTraitFilters filters).map exactClause) ↔ ∀ filter ∈ filters,
        HasAttribute rows scope tokenId filter.key fun v => ⟨filter.key, v⟩ ∈ filters := by
    intro hne tokenId
    rw [mem_listTokenIds _ (mt List.map_eq_nil_iff.mp hne), List.forall_mem_map,
      ← @forall_groupTraitFilters filters fun k =>
        HasAttribute rows scope tokenId k fun v => ⟨k, v⟩ ∈ filters]
    · refine forall₂_congr fun group hgroup => ?_
      simp only [mem_groupTraitFilters hgroup]
      rfl
    · rw [List.map_map, groupTraitFilters, List.map_map]
      exact OrderedMap.keys_group_nodup
  have hrange : ranges ≠ [] → ∀ tokenId, tokenId ∈ listTokenIds rows scope (ranges.map rangeClause) ↔
      ∀ range ∈ ranges, HasAttribute rows scope tokenId range.key fun v =>
        (rangeClause range).accepts v = true := by
    intro hne tokenId
    rw [mem_listTokenIds (by rw [List.map_map]; exact hkeys) (mt List.map_eq_nil_iff.mp hne), List.forall_mem_map]
    rfl
  unfold resolveTraitFilterTokenCandidates FoundFor
  rw [← groupTraitFilters_eq_nil]
  by_cases hgroups : groupTraitFilters filters = []
  · have hnone := groupTraitFilters_eq_nil.mp hgroups
    by_cases hranges : ranges = []
    · simp [hgroups, hranges]
    simp only [hgroups, hranges, if_true, if_false, List.nil_append, reduceCtorEq, List.cons_ne_nil, and_false,
      Option.some.injEq, true_and]
    rintro tokenIds rfl tokenId
    rw [mem_intersectTokenIdSets (List.cons_ne_nil _ _), List.forall_mem_singleton, hrange hranges, hnone]
    simp
  · by_cases hranges : ranges = []
    · simp only [hgroups, hranges, if_true, if_false, List.append_nil, reduceCtorEq, List.cons_ne_nil, false_and,
        Option.some.injEq, true_and]
      rintro tokenIds rfl tokenId
      rw [mem_intersectTokenIdSets (List.cons_ne_nil _ _), List.forall_mem_singleton, hexact hgroups]
      simp
    · simp only [hgroups, hranges, if_false, List.cons_append, List.nil_append, reduceCtorEq, List.cons_ne_nil,
        false_and, Option.some.injEq, true_and]
      rintro tokenIds rfl tokenId
      rw [mem_intersectTokenIdSets (List.cons_ne_nil _ _), List.forall_mem_cons, List.forall_mem_singleton,
        hexact hgroups, hrange hranges]

/-! ## 4. Exact candidates -/

/-- The requested filters, trimmed. -/
def trimmedFilters (filters : List TraitFilter) : List TraitFilter :=
  filters.map fun filter => ⟨trim filter.key, trim filter.value⟩

/-- A requested range, trimmed. -/
def trimmedRange (filter : RequestedTraitRange) : RequestedTraitRange where
  key := trim filter.key
  fromValue := (filter.fromValue.map trim).filter (· ≠ "")
  toValue := (filter.toValue.map trim).filter (· ≠ "")

/-- The value is a number of the range, however great. -/
def InRange (range : TraitRangeFilter) (value : String) : Prop :=
  isUnsignedInteger value = true ∧ range.Contains (decimalValue value)

/-- The token meets the requested filters and the ranges. -/
def MeetsFilters (rows : List TokenAttributeRow) (scope : CandidateScope) (requested : List TraitFilter)
    (ranges : List TraitRangeFilter) (tokenId : String) : Prop :=
  (∀ filter ∈ requested, HasAttribute rows scope tokenId filter.key fun v => ⟨filter.key, v⟩ ∈ requested) ∧
    ∀ range ∈ ranges, HasAttribute rows scope tokenId range.key (InRange range)

/-- The joined texts of the filters are different. -/
def JoinedApart (requested : List TraitFilter) : Prop :=
  ∀ filter ∈ requested, ∀ other ∈ requested,
    traitFilterSignature filter = traitFilterSignature other → filter = other

/-- The cast tells the numbers of the range from the others. -/
def Castable (range : TraitRangeFilter) : Prop :=
  (∀ toValue, range.toValue = some toValue → toValue.toBigInt < sqliteMaxInteger) ∧
    (range.toValue = none → ∀ fromValue, range.fromValue = some fromValue → fromValue.toBigInt ≤ sqliteMaxInteger)

/-- Exact filters of the same key leave nothing for the range to decide. -/
def DecidedByExact (requested : List TraitFilter) (range : TraitRangeFilter) : Prop :=
  (∃ filter ∈ requested, filter.key = range.key) ∧
    ∀ filter ∈ requested, filter.key = range.key → InRange range filter.value

variable {filters normalized requested : List TraitFilter} {range : TraitRangeFilter} {value : String}

theorem normalizeTraitFilters_eq (h : normalizeTraitFilters filters = .ok normalized) :
    normalized = Store.dropSeen traitFilterSignature [] (trimmedFilters filters) := by
  have hmap : ∀ {filters trimmed : List TraitFilter}, filters.mapM trimTraitFilter = .ok trimmed →
      trimmed = trimmedFilters filters := by
    intro filters
    induction filters with
    | nil =>
      intro trimmed h
      cases h
      rfl
    | cons filter rest ih =>
      intro trimmed h
      rw [List.mapM_cons] at h
      cases hfirst : trimTraitFilter filter with
      | error e => rw [hfirst] at h; cases h
      | ok first =>
        cases hrest : rest.mapM trimTraitFilter with
        | error e => rw [hfirst, hrest] at h; cases h
        | ok others =>
          rw [hfirst, hrest] at h
          cases h
          unfold trimTraitFilter at hfirst
          dsimp only at hfirst
          split at hfirst
          · cases hfirst
          · cases hfirst
            rw [ih hrest]
            rfl
  unfold normalizeTraitFilters at h
  cases htrim : filters.mapM trimTraitFilter with
  | error e => rw [htrim] at h; cases h
  | ok trimmed =>
    rw [htrim] at h
    cases h
    rw [← hmap htrim]

theorem readTraitRangeBound_text {text : Option String} {bound : Option UnsignedInteger}
    (h : readTraitRangeBound (text.getD "") = .ok bound) : bound.map (·.text) = text.filter (· ≠ "") := by
  unfold readTraitRangeBound at h
  split at h
  · next hempty =>
    cases h
    cases text with
    | none => rfl
    | some text =>
      obtain rfl : text = "" := hempty
      rfl
  · next hne =>
    split at h
    · cases h
      cases text with
      | none => exact absurd rfl hne
      | some text =>
        have hne' : text ≠ "" := hne
        rw [Option.filter_some, decide_eq_true hne']
        rfl
    · cases h

theorem normalizeTraitRangeFilters_eq {rangeFilters : List RequestedTraitRange} {ranges : SelectedTraitRanges}
    (h : normalizeTraitRangeFilters rangeFilters = .ok ranges) :
    ranges.ranges.map (fun range => (⟨range.key, range.fromValue.map (·.text), range.toValue.map (·.text)⟩ :
      RequestedTraitRange)) = rangeFilters.map trimmedRange := by
  have hfold : ∀ {filters : List RequestedTraitRange} {start ranges : SelectedTraitRanges},
      filters.foldlM normalizeTraitRange start = .ok ranges →
      ranges.ranges.map (fun range => (⟨range.key, range.fromValue.map (·.text), range.toValue.map (·.text)⟩ :
        RequestedTraitRange)) = start.ranges.map (fun range => ⟨range.key, range.fromValue.map (·.text),
          range.toValue.map (·.text)⟩) ++ filters.map trimmedRange := by
    intro filters
    induction filters with
    | nil =>
      intro start ranges h
      cases h
      rw [List.map_nil, List.append_nil]
    | cons filter rest ih =>
      intro start ranges h
      rw [List.foldlM_cons] at h
      cases hnext : normalizeTraitRange start filter with
      | error e => rw [hnext] at h; cases h
      | ok next =>
        rw [hnext] at h
        unfold normalizeTraitRange at hnext
        cases hfrom : readTraitRangeBound ((filter.fromValue.map trim).getD "") with
        | error e => rw [hfrom] at hnext; cases hnext
        | ok fromValue =>
          cases hto : readTraitRangeBound ((filter.toValue.map trim).getD "") with
          | error e => rw [hfrom, hto] at hnext; cases hnext
          | ok toValue =>
            simp only [hfrom, hto, bind, Except.bind] at hnext
            split_ifs at hnext
            cases hnext
            rw [ih h, SelectedTraitRanges.push, List.map_append, List.append_assoc, List.map_singleton,
              readTraitRangeBound_text hfrom, readTraitRangeBound_text hto]
            rfl
  exact hfold h

theorem normalized_keeps_iff (h : normalizeTraitFilters filters = .ok normalized) :
    (∀ filter ∈ trimmedFilters filters, filter ∈ normalized) ↔ JoinedApart (trimmedFilters filters) := by
  rw [normalizeTraitFilters_eq h]
  constructor
  · intro hkept filter hfilter other hother heq
    exact List.inj_on_of_nodup_map (Store.nodup_map_dropSeen [] _) (hkept _ hfilter) (hkept _ hother) heq
  · exact fun hapart filter hfilter => (Store.mem_dropSeen hapart).mpr ⟨hfilter, List.not_mem_nil⟩

theorem accepts_iff : (rangeClause range).accepts value = true ↔ isUnsignedInteger value = true ∧
    (∀ fromValue, range.fromValue = some fromValue →
      min fromValue.toBigInt sqliteMaxInteger ≤ min (decimalValue value) sqliteMaxInteger) ∧
    ∀ toValue, range.toValue = some toValue →
      min (decimalValue value) sqliteMaxInteger ≤ min toValue.toBigInt sqliteMaxInteger := by
  simp only [rangeClause, Bool.and_eq_true, Option.all_eq_true, decide_eq_true_iff, and_assoc]
  rfl

theorem InRange.accepts (h : InRange range value) : (rangeClause range).accepts value = true := by
  refine accepts_iff.mpr ⟨h.1, fun fromValue hfrom => ?_, fun toValue hto => ?_⟩
  · have := h.2.1 fromValue hfrom
    omega
  · have := h.2.2 toValue hto
    omega

theorem Castable.inRange (hcast : Castable range) (h : (rangeClause range).accepts value = true) :
    InRange range value := by
  obtain ⟨hunsigned, hfrom, hto⟩ := accepts_iff.mp h
  have hordered : ∀ toValue, range.toValue = some toValue → decimalValue value ≤ toValue.toBigInt := by
    intro toValue hsome
    have := hto toValue hsome
    have := hcast.1 toValue hsome
    omega
  refine ⟨hunsigned, fun fromValue hsome => ?_, hordered⟩
  have hlow := hfrom fromValue hsome
  cases hlast : range.toValue with
  | none =>
    have := hcast.2 hlast fromValue hsome
    omega
  | some toValue =>
    have := hordered toValue hlast
    have := hcast.1 toValue hlast
    omega

theorem decimalValue_repr (n : Nat) : decimalValue n.repr = n := by
  have hdigits : decimalValue n.repr = Text.digitsValue n.repr.toList := rfl
  rw [hdigits, Nat.toList_repr, Text.digitsValue_toDigits]

theorem inRange_repr {n : Nat} : InRange range n.repr ↔ range.Contains n := by
  have hunsigned : isUnsignedInteger n.repr = true := by
    rw [isUnsignedInteger, Bool.and_eq_true, decide_eq_true_iff, List.all_eq_true]
    refine ⟨fun h => ?_, fun c hc => ?_⟩
    · have hlist := congrArg String.toList h
      rw [Nat.toList_repr] at hlist
      exact Nat.toDigits_ne_nil hlist
    · exact Nat.isDigit_of_mem_toDigits (by decide) (by decide) (Nat.toList_repr ▸ hc)
  rw [InRange, decimalValue_repr]
  exact and_iff_right hunsigned

theorem exists_contains (hordered : range.isOrdered = true) : ∃ n, range.Contains n := by
  obtain ⟨key, fromValue, toValue⟩ := range
  refine ⟨(fromValue.map (·.toBigInt)).getD 0, fun first hfirst => ?_, fun last hlast => ?_⟩
  · cases hfirst
    exact Nat.le_refl _
  cases hlast
  cases fromValue with
  | none => exact Nat.zero_le _
  | some first => exact of_decide_eq_true hordered

theorem exists_accepted (hcast : ¬ Castable range) :
    ∃ n : Nat, (rangeClause range).accepts n.repr = true ∧ ¬ InRange range n.repr := by
  have haccepts : ∀ n : Nat, sqliteMaxInteger ≤ n →
      (∀ toValue, range.toValue = some toValue → sqliteMaxInteger ≤ toValue.toBigInt) →
      (rangeClause range).accepts n.repr = true := by
    intro n hn hto
    have hself : InRange ⟨"", none, none⟩ n.repr := inRange_repr.mpr ⟨nofun, nofun⟩
    have hvalue := decimalValue_repr n
    refine accepts_iff.mpr ⟨hself.1, fun fromValue _ => ?_, fun toValue hsome => ?_⟩
    · omega
    · have := hto toValue hsome
      omega
  simp only [inRange_repr]
  cases hlast : range.toValue with
  | some toValue =>
    have hgreat : sqliteMaxInteger ≤ toValue.toBigInt := by
      by_contra hlt
      refine hcast ⟨fun value hvalue => ?_, fun hnone => absurd (hlast.symm.trans hnone) (by simp)⟩
      cases hlast.symm.trans hvalue
      omega
    refine ⟨toValue.toBigInt + 1, haccepts _ (by omega) fun value hvalue => ?_, fun hcontains => ?_⟩
    · cases hlast.symm.trans hvalue
      exact hgreat
    · have := hcontains.2 toValue hlast
      omega
  | none =>
    obtain ⟨fromValue, hfrom, hgreat⟩ : ∃ fromValue, range.fromValue = some fromValue ∧
        sqliteMaxInteger < fromValue.toBigInt := by
      by_contra hnone
      refine hcast ⟨fun value hvalue => absurd (hlast.symm.trans hvalue) (by simp), fun _ fromValue hfrom => ?_⟩
      by_contra hlt
      exact hnone ⟨fromValue, hfrom, by omega⟩
    refine ⟨sqliteMaxInteger, haccepts _ (Nat.le_refl _) fun value hvalue => ?_, fun hcontains => ?_⟩
    · rw [hlast] at hvalue
      cases hvalue
    · have := hcontains.1 fromValue hfrom
      omega

/-- The attributes of one token. -/
def tokenRows (attributes : List (String × String)) : List TokenAttributeRow :=
  attributes.map fun pair => ⟨1, 1, "1", pair.1, pair.2⟩

theorem hasAttribute_tokenRows {attributes : List (String × String)} {accepts : String → Prop} :
    HasAttribute (tokenRows attributes) ⟨1, 1, none, none⟩ "1" key accepts ↔
      ∃ value, (key, value) ∈ attributes ∧ accepts value := by
  constructor
  · rintro ⟨row, hrow, -, -, rfl, haccepts⟩
    obtain ⟨pair, hpair, rfl⟩ := List.mem_map.mp hrow
    exact ⟨_, hpair, haccepts⟩
  · rintro ⟨value, hpair, haccepts⟩
    exact ⟨_, List.mem_map_of_mem hpair, rfl, rfl, rfl, haccepts⟩

/-- A token that the query takes and the filters do not: it has a number beyond the cast, and no exact value that
makes the range true. -/
theorem exists_mistaken {ranges : List TraitRangeFilter} (hkeys : (ranges.map (·.key)).Nodup)
    (hordered : ∀ range ∈ ranges, range.isOrdered = true) (hrange : range ∈ ranges) (hcast : ¬ Castable range)
    (hdecided : ¬ DecidedByExact requested range) : ∃ rows : List TokenAttributeRow,
      FoundFor rows ⟨1, 1, none, none⟩ requested ranges "1" ∧
        ¬ MeetsFilters rows ⟨1, 1, none, none⟩ requested ranges "1" := by
  obtain ⟨bad, haccepted, hbad⟩ := exists_accepted hcast
  -- an exact value of the key, where one is filtered for
  obtain ⟨own, hown, hsome⟩ : ∃ own : List TraitFilter,
      (∀ filter ∈ own, filter ∈ requested ∧ filter.key = range.key ∧ ¬ InRange range filter.value) ∧
        ∀ filter ∈ requested, filter.key = range.key → own ≠ [] := by
    by_cases hkey : ∃ filter ∈ requested, filter.key = range.key
    · obtain ⟨filter, hfilter⟩ := not_forall.mp fun hall => hdecided ⟨hkey, hall⟩
      obtain ⟨hmem, hsame, hout⟩ : filter ∈ requested ∧ filter.key = range.key ∧ ¬ InRange range filter.value := by
        push Not at hfilter
        exact hfilter
      refine ⟨[filter], fun other hother => ?_, fun _ _ _ => List.cons_ne_nil _ _⟩
      exact List.mem_singleton.mp hother ▸ ⟨hmem, hsame, hout⟩
    · exact ⟨[], fun _ h => absurd h List.not_mem_nil, fun filter hfilter hsame => absurd ⟨filter, hfilter, hsame⟩ hkey⟩
  have hsample : ∀ other ∈ ranges, ∃ n : Nat, InRange other n.repr := fun other hother =>
    (exists_contains (hordered other hother)).imp fun n hn => inRange_repr.mpr hn
  choose! sample hsample using hsample
  refine ⟨tokenRows ((requested.filter (·.key ≠ range.key)).map (fun filter => (filter.key, filter.value)) ++
    own.map (fun filter => (filter.key, filter.value)) ++
    (ranges.filter (·.key ≠ range.key)).map (fun other => (other.key, (sample other).repr)) ++
    [(range.key, bad.repr)]), ⟨fun filter hfilter => ?_, fun other hother => ?_⟩, fun hmeets => ?_⟩
  · rw [hasAttribute_tokenRows]
    by_cases hkey : filter.key = range.key
    · obtain ⟨first, hfirst⟩ := List.exists_mem_of_ne_nil _ (hsome filter hfilter hkey)
      obtain ⟨hmem, hsame, -⟩ := hown first hfirst
      refine ⟨first.value, ?_, ?_⟩
      · simp only [List.mem_append, List.mem_map]
        exact .inl (.inl (.inr ⟨first, hfirst, by rw [hsame, hkey]⟩))
      · rw [hkey, ← hsame]
        exact hmem
    · refine ⟨filter.value, ?_, hfilter⟩
      simp only [List.mem_append, List.mem_map, List.mem_filter, decide_eq_true_iff]
      exact .inl (.inl (.inl ⟨filter, ⟨hfilter, hkey⟩, rfl⟩))
  · rw [hasAttribute_tokenRows]
    by_cases hkey : other.key = range.key
    · obtain rfl := List.inj_on_of_nodup_map hkeys hother hrange hkey
      exact ⟨bad.repr, by simp, haccepted⟩
    · refine ⟨(sample other).repr, ?_, (hsample other hother).accepts⟩
      simp only [List.mem_append, List.mem_map, List.mem_filter, decide_eq_true_iff]
      exact .inl (.inr ⟨other, ⟨hother, hkey⟩, rfl⟩)
  · obtain ⟨value, hvalue, hin⟩ := hasAttribute_tokenRows.mp (hmeets.2 range hrange)
    simp only [List.mem_append, List.mem_map, List.mem_filter, decide_eq_true_iff, List.mem_singleton,
      Prod.mk.injEq] at hvalue
    rcases hvalue with ((⟨filter, ⟨-, hkey⟩, hsame, -⟩ | ⟨filter, hfilter, -, rfl⟩) | ⟨other, ⟨-, hkey⟩, hsame, -⟩) |
      ⟨-, rfl⟩
    · exact hkey hsame
    · exact (hown filter hfilter).2.2 hin
    · exact hkey hsame
    · exact hbad hin

/-- The candidates of a request: no filter is lost, and over any attributes the tokens are those that meet the
filters, or are not restricted where there are no filters. -/
def CandidatesExact (filters normalized : List TraitFilter) (rangeFilters : List RequestedTraitRange)
    (ranges : List TraitRangeFilter) : Prop :=
  (∀ filter ∈ trimmedFilters filters, filter ∈ normalized) ∧
  ranges.map (fun range => (⟨range.key, range.fromValue.map (·.text), range.toValue.map (·.text)⟩ :
    RequestedTraitRange)) = rangeFilters.map trimmedRange ∧
  ∀ (rows : List TokenAttributeRow) (scope : CandidateScope),
    (resolveTraitFilterTokenCandidates rows scope (groupTraitFilters normalized) ranges = none ↔
      filters = [] ∧ rangeFilters = []) ∧
    ∀ tokenIds,
      resolveTraitFilterTokenCandidates rows scope (groupTraitFilters normalized) ranges = some tokenIds →
      ∀ tokenId, tokenId ∈ tokenIds ↔ MeetsFilters rows scope (trimmedFilters filters) ranges tokenId

/-- **The candidates are exact exactly when the joined texts of the filters differ and the cast decides the
ranges.** -/
theorem trait_candidates_exact_iff {filters normalized : List TraitFilter} {rangeFilters : List RequestedTraitRange}
    {ranges : SelectedTraitRanges} (hfilters : normalizeTraitFilters filters = .ok normalized)
    (hranges : normalizeTraitRangeFilters rangeFilters = .ok ranges) :
    CandidatesExact filters normalized rangeFilters ranges.ranges ↔ JoinedApart (trimmedFilters filters) ∧
        ∀ range ∈ ranges.ranges, Castable range ∨ DecidedByExact (trimmedFilters filters) range := by
  unfold CandidatesExact
  rw [normalized_keeps_iff hfilters]
  refine and_congr_right fun hapart => ?_
  have hmem : ∀ filter, filter ∈ normalized ↔ filter ∈ trimmedFilters filters := fun filter => by
    rw [normalizeTraitFilters_eq hfilters, Store.mem_dropSeen hapart]
    simp
  have hfound : ∀ rows scope tokenId, FoundFor rows scope normalized ranges.ranges tokenId ↔
      FoundFor rows scope (trimmedFilters filters) ranges.ranges tokenId := fun rows scope tokenId => by
    simp only [FoundFor, hmem]
  have hsame := normalizeTraitRangeFilters_eq hranges
  have hnone : normalized = [] ∧ ranges.ranges = [] ↔ filters = [] ∧ rangeFilters = [] := by
    refine and_congr ?_ ?_
    · rw [List.eq_nil_iff_forall_not_mem, ← @List.map_eq_nil_iff _ _ (fun filter : TraitFilter =>
        (⟨trim filter.key, trim filter.value⟩ : TraitFilter)) filters, List.eq_nil_iff_forall_not_mem]
      exact forall_congr' fun filter => not_congr (hmem filter)
    · rw [← @List.map_eq_nil_iff _ _ trimmedRange, ← hsame, List.map_eq_nil_iff]
  constructor
  · rintro ⟨-, hexact⟩ range hrange
    by_contra hneither
    obtain ⟨hcast, hdecided⟩ := not_or.mp hneither
    obtain ⟨rows, htaken, hmeets⟩ := exists_mistaken ranges.keys ranges.ordered hrange hcast hdecided
    obtain ⟨hresolved, hsome⟩ := resolve_found rows ⟨1, 1, none, none⟩ normalized ranges.keys
    cases hresolve : resolveTraitFilterTokenCandidates rows ⟨1, 1, none, none⟩ (groupTraitFilters normalized)
        ranges.ranges with
    | none => exact absurd (hresolved.mp hresolve).2 (List.ne_nil_of_mem hrange)
    | some tokenIds =>
      refine hmeets (((hexact rows ⟨1, 1, none, none⟩).2 tokenIds hresolve "1").mp ?_)
      exact (hsome tokenIds hresolve "1").mpr ((hfound ..).mpr htaken)
  · intro hdecided
    refine ⟨hsame, fun rows scope => ?_⟩
    obtain ⟨hresolved, hsome⟩ := resolve_found rows scope normalized ranges.keys
    refine ⟨hresolved.trans hnone, fun tokenIds hresolve tokenId => ?_⟩
    rw [hsome tokenIds hresolve tokenId, hfound]
    refine and_congr_right fun hexact => forall₂_congr fun range hrange => ?_
    constructor
    · intro htaken
      rcases hdecided range hrange with hcast | ⟨⟨filter, hfilter, hkey⟩, hvalues⟩
      · exact htaken.mono fun value => hcast.inRange
      · exact hkey ▸ (hexact filter hfilter).mono fun value hvalue => hvalues _ hvalue hkey
    · exact fun hin => hin.mono fun value => InRange.accepts

theorem trait_candidates_exact_levels :
    CandidatesExact [⟨" Eyes", "Blue"⟩] [⟨"Eyes", "Blue"⟩] [⟨"Level", some "1", some " 5"⟩]
      [⟨"Level", some ⟨"1", rfl⟩, some ⟨"5", rfl⟩⟩] := by
  refine (@trait_candidates_exact_iff [⟨" Eyes", "Blue"⟩] [⟨"Eyes", "Blue"⟩] [⟨"Level", some "1", some " 5"⟩]
    (.push .empty ⟨"Level", some ⟨"1", rfl⟩, some ⟨"5", rfl⟩⟩ List.not_mem_nil rfl) rfl rfl).mpr ⟨?_, ?_⟩
  · intro filter hfilter other hother _
    rw [List.mem_singleton.mp hfilter, List.mem_singleton.mp hother]
  intro range hrange
  rw [List.mem_singleton.mp hrange]
  refine .inl ⟨fun toValue hto => ?_, nofun⟩
  cases hto
  decide

theorem filter_lost_and_number_mistaken :
    normalizeTraitFilters [⟨"a", "b:c"⟩, ⟨"a:b", "c"⟩] = .ok [⟨"a", "b:c"⟩] ∧
    resolveTraitFilterTokenCandidates [⟨1, 1, "7", "a", "b:c"⟩] ⟨1, 1, none, none⟩
      (groupTraitFilters [⟨"a", "b:c"⟩]) [] = some ["7"] ∧
    resolveTraitFilterTokenCandidates [⟨1, 1, "7", "Level", "9223372036854775809"⟩] ⟨1, 1, none, none⟩ []
      [⟨"Level", none, some ⟨"9223372036854775808", rfl⟩⟩] = some ["7"] := by
  decide +kernel

end Artgod.ReadModels
