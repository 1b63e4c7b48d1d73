/-
# Token scopes

Collections that share a contract declare which token ids are their own.  `resolveTokenScopedCollectionId` finds
the collection of one token, by membership, and `splitRangeByCollectionScope` cuts a range of ids, by
intersections; they agree wherever the declarations do not overlap.
-/
import Artgod.Store.FirstByKey
import Artgod.Text.TokenId
import Mathlib.Data.Set.Disjoint
import Mathlib.Order.CompletePartialOrder

namespace Artgod.Collections

open Artgod.Text Js

/-! ## 1. The declared scope -/

/-- The ids from a first one on. -/
@[ext]
structure DeclaredRange where
  startTokenId : String
  tokenCount : Nat
  isTokenId : IsTokenId startTokenId
  positive : 0 < tokenCount
  safe : (tokenCount : Int) ≤ maxSafeInteger
  fits : tokenIdValue startTokenId + (tokenCount - 1) ≤ evmTokenIdMax

inductive CollectionTokenScope where
  | allContractTokens
  | explicitTokenIds
  | tokenRange (range : DeclaredRange)

structure ContinuousTokenRange where
  fromTokenId : String
  toTokenId : String

namespace CollectionTokenScope

def isExplicitTokenIdsScope : CollectionTokenScope → Bool
  | .explicitTokenIds => true
  | _ => false

def containsToken (scope : CollectionTokenScope) (tokenId : String) (hasExplicitToken : String → Bool) :
    Bool :=
  match normalizeEvmTokenId (.string tokenId) with
  | none => false
  | some normalized =>
    match scope with
    | .allContractTokens => true
    | .explicitTokenIds => hasExplicitToken normalized
    | .tokenRange range =>
      let start := tokenIdValue range.startTokenId
      let id := tokenIdValue normalized
      id ≥ start && id < start + range.tokenCount

def intersectContinuousRange (scope : CollectionTokenScope) (fromTokenId toTokenId : String) :
    Option ContinuousTokenRange :=
  match normalizeEvmTokenId (.string fromTokenId), normalizeEvmTokenId (.string toTokenId) with
  | some fromId, some toId =>
    if tokenIdValue fromId > tokenIdValue toId then none
    else
      match scope with
      | .explicitTokenIds => none
      | .allContractTokens => some ⟨fromId, toId⟩
      | .tokenRange range =>
        let start := tokenIdValue range.startTokenId
        let last := start + (range.tokenCount - 1)
        let lower := if tokenIdValue fromId > start then tokenIdValue fromId else start
        let upper := if tokenIdValue toId < last then tokenIdValue toId else last
        if lower > upper then none else some ⟨toString lower, toString upper⟩
  | _, _ => none

end CollectionTokenScope

/-! ## 2. The ids listed one by one -/

/-- A row of `collection_scope_tokens`. -/
structure ScopeTokenRow where
  chainId : Nat
  collectionId : Nat
  tokenId : String
  deriving DecidableEq

/-- The table `collection_scope_tokens`, whose key is all of its columns.  Its one writer has normalized the
ids. -/
structure CollectionScopeTokens where
  rows : List ScopeTokenRow
  keyed : rows.Nodup
  normalized : ∀ row ∈ rows, IsTokenId row.tokenId

namespace CollectionScopeTokens

def hasExplicitScopeToken (store : CollectionScopeTokens) (chainId collectionId : Nat) (tokenId : String) :
    Bool :=
  store.rows.any fun row =>
    row.chainId = chainId && row.collectionId = collectionId && row.tokenId = tokenId

def listExplicitScopeTokenIds (store : CollectionScopeTokens) (chainId collectionId : Nat) : List String :=
  ((store.rows.filter fun row => row.chainId = chainId && row.collectionId = collectionId).map
    (·.tokenId)).insertionSort (· ≤ ·)

end CollectionScopeTokens

/-! ## 3. Collections -/

/-- What attribution reads of a `CollectionRecord`. -/
structure CollectionRecord where
  id : Nat
  address : String
  scope : CollectionTokenScope

structure CollectionScopeRange where
  collectionId : Nat
  fromTokenId : String
  toTokenId : String

variable (p : Platform) (store : CollectionScopeTokens) (chainId : Nat)

variable (collections : List CollectionRecord)

/-- The collections of a contract. -/
def matchingCollections (contract : String) : List CollectionRecord :=
  collections.filter fun collection => toLowerCase p collection.address = toLowerCase p contract

/-- `containsTokenInScope`, with the ids of the collection. -/
def CollectionRecord.containsTokenInScope (collection : CollectionRecord) (tokenId : String) : Bool :=
  collection.scope.containsToken tokenId (store.hasExplicitScopeToken chainId collection.id)

def resolveTokenScopedCollectionId (contract tokenId : String) : Option Nat :=
  match (matchingCollections p collections contract).filter
      (·.containsTokenInScope store chainId tokenId) with
  | [collection] => some collection.id
  | _ => none

/-- The ranges that a collection adds. -/
def CollectionRecord.scopeRanges (collection : CollectionRecord) (fromTokenId toTokenId : String)
    (rangeStart rangeEnd : Int) : List CollectionScopeRange :=
  match collection.scope.intersectContinuousRange fromTokenId toTokenId with
  | some range => [⟨collection.id, range.fromTokenId, range.toTokenId⟩]
  | none =>
    if collection.scope.isExplicitTokenIdsScope then
      ((store.listExplicitScopeTokenIds chainId collection.id).filter fun tokenId =>
        (tokenIdValue tokenId : Int) ≥ rangeStart && (tokenIdValue tokenId : Int) ≤ rangeEnd).map
        fun tokenId => ⟨collection.id, tokenId, tokenId⟩
    else []

def splitRangeByCollectionScope
    (contract fromTokenId toTokenId : String) : Except String (List CollectionScopeRange) :=
  let matching := matchingCollections p collections contract
  if matching = [] then .ok []
  else
    match bigInt? fromTokenId, bigInt? toTokenId with
    | some rangeStart, some rangeEnd =>
      .ok (matching.flatMap fun collection =>
        collection.scopeRanges store chainId fromTokenId toTokenId rangeStart rangeEnd)
    | none, _ => .error s!"Cannot convert {fromTokenId} to a BigInt"
    | _, none => .error s!"Cannot convert {toTokenId} to a BigInt"

/-! ## 4. The ids that a collection declares -/

/-- The ids of a collection. -/
def CollectionRecord.tokens (collection : CollectionRecord) : Set Nat :=
  {n | n ≤ evmTokenIdMax ∧ match collection.scope with
    | .allContractTokens => True
    | .explicitTokenIds => ∃ row ∈ store.rows,
        row.chainId = chainId ∧ row.collectionId = collection.id ∧ tokenIdValue row.tokenId = n
    | .tokenRange range => tokenIdValue range.startTokenId ≤ n ∧
        n < tokenIdValue range.startTokenId + range.tokenCount}

/-- The id lies in the range. -/
def CollectionScopeRange.Holds (range : CollectionScopeRange) (n : Nat) : Prop :=
  tokenIdValue range.fromTokenId ≤ n ∧ n ≤ tokenIdValue range.toTokenId

variable {store chainId}

variable {collectionId : Nat} {text : String}

theorem CollectionScopeTokens.hasExplicitScopeToken_iff (h : IsTokenId text) :
    store.hasExplicitScopeToken chainId collectionId text = true ↔ ∃ row ∈ store.rows,
      row.chainId = chainId ∧ row.collectionId = collectionId ∧
        tokenIdValue row.tokenId = tokenIdValue text := by
  unfold hasExplicitScopeToken
  rw [List.any_eq_true]
  refine exists_congr fun row => and_congr_right fun hrow => ?_
  rw [Bool.and_eq_true, Bool.and_eq_true, decide_eq_true_iff, decide_eq_true_iff, decide_eq_true_iff,
    and_assoc]
  refine and_congr_right fun _ => and_congr_right fun _ => ⟨congrArg _, fun hvalue => ?_⟩
  exact (store.normalized row hrow).eq_of_value h hvalue

theorem CollectionScopeTokens.mem_listExplicitScopeTokenIds :
    text ∈ store.listExplicitScopeTokenIds chainId collectionId ↔ ∃ row ∈ store.rows,
      row.chainId = chainId ∧ row.collectionId = collectionId ∧ row.tokenId = text := by
  unfold listExplicitScopeTokenIds
  rw [(List.perm_insertionSort _ _).mem_iff, List.mem_map]
  refine exists_congr fun row => ?_
  rw [List.mem_filter, Bool.and_eq_true, decide_eq_true_iff, decide_eq_true_iff, and_assoc, and_assoc]

theorem CollectionScopeTokens.nodup_listExplicitScopeTokenIds :
    (store.listExplicitScopeTokenIds chainId collectionId).Nodup := by
  unfold listExplicitScopeTokenIds
  rw [(List.perm_insertionSort _ _).nodup_iff]
  refine List.Nodup.map_on (fun a ha b hb hab => ?_) (store.keyed.filter _)
  have hrow := (List.mem_filter.mp ha).2
  have hrow' := (List.mem_filter.mp hb).2
  rw [Bool.and_eq_true, decide_eq_true_iff, decide_eq_true_iff] at hrow hrow'
  cases a
  cases b
  simp_all

/-! ## 5. Both functions answer by the declared ids -/

theorem CollectionRecord.containsTokenInScope_iff {collection : CollectionRecord} {tokenId : String}
    (h : normalizeEvmTokenId (.string tokenId) = some text) :
    collection.containsTokenInScope store chainId tokenId = true ↔
      tokenIdValue text ∈ collection.tokens store chainId := by
  have htext := isTokenId_of_normalize h
  unfold containsTokenInScope CollectionTokenScope.containsToken tokens
  rw [h, Set.mem_ofPred_eq, and_iff_right htext.le]
  cases collection.scope with
  | allContractTokens => exact iff_of_true rfl trivial
  | explicitTokenIds => exact CollectionScopeTokens.hasExplicitScopeToken_iff htext
  | tokenRange range =>
    dsimp only
    rw [Bool.and_eq_true, decide_eq_true_iff, decide_eq_true_iff]

section Split

variable {fromTokenId toTokenId fromText toText : String}

variable {collection : CollectionRecord} {rangeEnd rangeStart : Int}

/-- **The intersection** with a continuous scope holds the ids of both. -/
theorem CollectionRecord.holds_intersectContinuousRange
    (hfrom : normalizeEvmTokenId (.string fromTokenId) = some fromText)
    (hto : normalizeEvmTokenId (.string toTokenId) = some toText)
    (hscope : collection.scope.isExplicitTokenIdsScope = false) {n : Nat} :
    (∃ r, collection.scope.intersectContinuousRange fromTokenId toTokenId = some r ∧
        tokenIdValue r.fromTokenId ≤ n ∧ n ≤ tokenIdValue r.toTokenId) ↔
      (tokenIdValue fromText ≤ n ∧ n ≤ tokenIdValue toText) ∧ n ∈ collection.tokens store chainId := by
  have hmax := (isTokenId_of_normalize hto).le
  unfold CollectionTokenScope.intersectContinuousRange tokens
  rw [hfrom, hto, Set.mem_ofPred_eq]
  dsimp only
  by_cases hempty : tokenIdValue fromText > tokenIdValue toText
  · rw [if_pos hempty]
    refine iff_of_false (fun ⟨_, hnone, _⟩ => nomatch hnone) fun hmem => ?_
    omega
  rw [if_neg hempty]
  cases hkind : collection.scope with
  | explicitTokenIds =>
    rw [hkind] at hscope
    cases hscope
  | allContractTokens =>
    dsimp only
    constructor
    · rintro ⟨r, hr, hlo, hhi⟩
      cases hr
      exact ⟨⟨hlo, hhi⟩, hhi.trans hmax, trivial⟩
    · rintro ⟨hrange, -⟩
      exact ⟨_, rfl, hrange⟩
  | tokenRange range =>
    have hpos := range.positive
    dsimp only
    constructor
    · rintro ⟨r, hr, hlo, hhi⟩
      obtain ⟨-, hr⟩ := Option.ite_none_left_eq_some.mp hr
      cases hr
      rw [tokenIdValue_toString] at hlo hhi
      -- the bounds are the larger lower end and the smaller upper end
      split at hlo <;> split at hhi <;> omega
    · rintro ⟨⟨hlo, hhi⟩, -, hstart, hend⟩
      rw [if_neg (by split <;> split <;> omega)]
      refine ⟨_, rfl, ?_, ?_⟩
      · rw [tokenIdValue_toString]
        split <;> omega
      · rw [tokenIdValue_toString]
        split <;> omega

theorem CollectionTokenScope.eq_explicitTokenIds {scope : CollectionTokenScope}
    (h : scope.isExplicitTokenIdsScope = true) : scope = .explicitTokenIds := by
  cases scope with
  | explicitTokenIds => rfl
  | allContractTokens => cases h
  | tokenRange range => cases h

theorem CollectionTokenScope.intersectContinuousRange_explicit :
    explicitTokenIds.intersectContinuousRange fromTokenId toTokenId = none := by
  unfold intersectContinuousRange
  split
  · split <;> rfl
  · rfl

theorem CollectionRecord.scopeRanges_continuous
    (hscope : collection.scope.isExplicitTokenIdsScope = false) :
    collection.scopeRanges store chainId fromTokenId toTokenId rangeStart rangeEnd =
      ((collection.scope.intersectContinuousRange fromTokenId toTokenId).map fun r =>
        (⟨collection.id, r.fromTokenId, r.toTokenId⟩ : CollectionScopeRange)).toList := by
  unfold scopeRanges
  cases collection.scope.intersectContinuousRange fromTokenId toTokenId with
  | some r => rfl
  | none => simp [hscope]

theorem CollectionRecord.scopeRanges_explicit (hscope : collection.scope.isExplicitTokenIdsScope = true) :
    collection.scopeRanges store chainId fromTokenId toTokenId rangeStart rangeEnd =
      ((store.listExplicitScopeTokenIds chainId collection.id).filter fun tokenId =>
        (tokenIdValue tokenId : Int) ≥ rangeStart && (tokenIdValue tokenId : Int) ≤ rangeEnd).map
        fun tokenId => ⟨collection.id, tokenId, tokenId⟩ := by
  have hnone : collection.scope.intersectContinuousRange fromTokenId toTokenId = none := by
    rw [CollectionTokenScope.eq_explicitTokenIds hscope]
    exact CollectionTokenScope.intersectContinuousRange_explicit
  unfold scopeRanges
  rw [hnone]
  exact if_pos hscope

theorem CollectionRecord.mem_scopeRanges_explicit
    (hscope : collection.scope.isExplicitTokenIdsScope = true) {r : CollectionScopeRange} :
    r ∈ collection.scopeRanges store chainId fromTokenId toTokenId rangeStart rangeEnd ↔
      ∃ tokenId ∈ store.listExplicitScopeTokenIds chainId collection.id,
        (rangeStart ≤ tokenIdValue tokenId ∧ (tokenIdValue tokenId : Int) ≤ rangeEnd) ∧
          r = ⟨collection.id, tokenId, tokenId⟩ := by
  rw [scopeRanges_explicit hscope, List.mem_map]
  refine exists_congr fun tokenId => ?_
  rw [List.mem_filter, Bool.and_eq_true, decide_eq_true_iff, decide_eq_true_iff, and_assoc, eq_comm (a := r)]

/-- **The ranges of a collection** hold the ids of the range that it declares. -/
theorem CollectionRecord.holds_scopeRanges
    (hfrom : normalizeEvmTokenId (.string fromTokenId) = some fromText)
    (hto : normalizeEvmTokenId (.string toTokenId) = some toText) {n : Nat} :
    (∃ r ∈ collection.scopeRanges store chainId fromTokenId toTokenId (tokenIdValue fromText)
        (tokenIdValue toText), r.Holds n) ↔
      (tokenIdValue fromText ≤ n ∧ n ≤ tokenIdValue toText) ∧ n ∈ collection.tokens store chainId := by
  cases hscope : collection.scope.isExplicitTokenIdsScope with
  | false =>
    rw [scopeRanges_continuous hscope, ← holds_intersectContinuousRange hfrom hto hscope]
    constructor
    · rintro ⟨r, hmem, hholds⟩
      rw [Option.mem_toList, Option.map_eq_some_iff] at hmem
      obtain ⟨range, hrange, rfl⟩ := hmem
      exact ⟨range, hrange, hholds⟩
    · rintro ⟨range, hrange, hholds⟩
      rw [hrange]
      exact ⟨_, List.mem_singleton.mpr rfl, hholds⟩
  | true =>
    have hmax := (isTokenId_of_normalize hto).le
    unfold tokens
    rw [CollectionTokenScope.eq_explicitTokenIds hscope]
    constructor
    · rintro ⟨r, hmem, hholds⟩
      obtain ⟨tokenId, hlisted, ⟨hlo, hhi⟩, rfl⟩ := (mem_scopeRanges_explicit hscope).mp hmem
      obtain ⟨row, hrow, hchain, hcollection, rfl⟩ :=
        CollectionScopeTokens.mem_listExplicitScopeTokenIds.mp hlisted
      have hvalue : tokenIdValue row.tokenId = n := Nat.le_antisymm hholds.1 hholds.2
      exact ⟨⟨by omega, by omega⟩, by omega, row, hrow, hchain, hcollection, hvalue⟩
    · rintro ⟨⟨hlo, hhi⟩, -, row, hrow, hchain, hcollection, hvalue⟩
      refine ⟨⟨collection.id, row.tokenId, row.tokenId⟩, (mem_scopeRanges_explicit hscope).mpr
        ⟨row.tokenId, ?_, ⟨by omega, by omega⟩, rfl⟩, hvalue.le, hvalue.ge⟩
      exact CollectionScopeTokens.mem_listExplicitScopeTokenIds.mpr ⟨row, hrow, hchain, hcollection, rfl⟩

theorem CollectionRecord.pairwise_scopeRanges :
    (collection.scopeRanges store chainId fromTokenId toTokenId rangeStart rangeEnd).Pairwise
      fun a b => ∀ n, ¬ (a.Holds n ∧ b.Holds n) := by
  cases hscope : collection.scope.isExplicitTokenIdsScope with
  | false =>
    rw [scopeRanges_continuous hscope]
    cases collection.scope.intersectContinuousRange fromTokenId toTokenId with
    | none => exact .nil
    | some range => exact List.pairwise_singleton _ _
  | true =>
    rw [scopeRanges_explicit hscope, List.pairwise_map]
    have hnodup : (store.listExplicitScopeTokenIds chainId collection.id).Nodup :=
      CollectionScopeTokens.nodup_listExplicitScopeTokenIds
    refine (hnodup.sublist List.filter_sublist).imp_of_mem fun {a b} ha hb hne n hboth => hne ?_
    obtain ⟨row, hrow, -, -, rfl⟩ :=
      CollectionScopeTokens.mem_listExplicitScopeTokenIds.mp (List.mem_filter.mp ha).1
    obtain ⟨row', hrow', -, -, rfl⟩ :=
      CollectionScopeTokens.mem_listExplicitScopeTokenIds.mp (List.mem_filter.mp hb).1
    refine (store.normalized row hrow).eq_of_value (store.normalized row' hrow') ?_
    exact (Nat.le_antisymm hboth.1.1 hboth.1.2).trans (Nat.le_antisymm hboth.2.2 hboth.2.1)

theorem CollectionRecord.collectionId_scopeRanges {r : CollectionScopeRange}
    (h : r ∈ collection.scopeRanges store chainId fromTokenId toTokenId rangeStart rangeEnd) :
    r.collectionId = collection.id := by
  cases hscope : collection.scope.isExplicitTokenIdsScope with
  | false =>
    rw [scopeRanges_continuous hscope, Option.mem_toList, Option.map_eq_some_iff] at h
    obtain ⟨range, -, rfl⟩ := h
    rfl
  | true =>
    obtain ⟨tokenId, -, -, rfl⟩ := (mem_scopeRanges_explicit hscope).mp h
    rfl

end Split

/-! ## 6. Attribution -/

theorem filter_eq_singleton {α : Type} {l : List α} {q : α → Bool} {a : α}
    (hapart : l.Pairwise fun a b => ¬ (q a = true ∧ q b = true)) (hmem : a ∈ l) (ha : q a = true) :
    l.filter q = [a] := by
  obtain ⟨before, after, rfl⟩ := List.append_of_mem hmem
  obtain ⟨-, hafter, hbefore⟩ := List.pairwise_append.mp hapart
  have hnone : before.filter q = [] :=
    List.filter_eq_nil_iff.mpr fun b hb hq => hbefore b hb a List.mem_cons_self ⟨hq, ha⟩
  have hnone' : after.filter q = [] :=
    List.filter_eq_nil_iff.mpr fun b hb hq => (List.pairwise_cons.mp hafter).1 b hb ⟨ha, hq⟩
  rw [List.filter_append, hnone, List.filter_cons_of_pos ha, hnone', List.nil_append]

/-- **A token is attributed to the collection that declares it**, where no two do. -/
theorem resolveTokenScopedCollectionId_eq_some {p : Platform} {collections : List CollectionRecord}
    {contract tokenId : String}
    (hdisjoint : (matchingCollections p collections contract).Pairwise fun a b =>
      Disjoint (a.tokens store chainId) (b.tokens store chainId))
    (h : normalizeEvmTokenId (.string tokenId) = some text) :
    resolveTokenScopedCollectionId p store chainId collections contract tokenId = some collectionId ↔
      ∃ collection ∈ matchingCollections p collections contract, collection.id = collectionId ∧
        tokenIdValue text ∈ collection.tokens store chainId := by
  have hapart : (matchingCollections p collections contract).Pairwise fun a b =>
      ¬ (a.containsTokenInScope store chainId tokenId = true ∧
        b.containsTokenInScope store chainId tokenId = true) := by
    refine hdisjoint.imp fun hab hboth => ?_
    exact Set.disjoint_left.mp hab ((CollectionRecord.containsTokenInScope_iff h).mp hboth.1)
      ((CollectionRecord.containsTokenInScope_iff h).mp hboth.2)
  unfold resolveTokenScopedCollectionId
  constructor
  · intro hresolve
    split at hresolve
    · next collection hfilter =>
      have hmem := List.mem_filter.mp (hfilter ▸ List.mem_singleton.mpr rfl : collection ∈ _)
      exact ⟨collection, hmem.1, Option.some.inj hresolve,
        (CollectionRecord.containsTokenInScope_iff h).mp hmem.2⟩
    · cases hresolve
  · rintro ⟨collection, hmem, rfl, htoken⟩
    rw [filter_eq_singleton hapart hmem ((CollectionRecord.containsTokenInScope_iff h).mpr htoken)]

/-- **Token attribution.**  Where the declared ids of a contract's collections do not overlap, the ranges that a
range of ids is split into do not overlap either, and a token of the range lies in a range of a collection
exactly when the token by itself is attributed to it. -/
theorem token_attribution_agrees {p : Platform} {store : CollectionScopeTokens} {chainId : Nat}
    {collections : List CollectionRecord} {contract fromTokenId toTokenId fromText toText : String}
    (hfrom : normalizeEvmTokenId (.string fromTokenId) = some fromText)
    (hto : normalizeEvmTokenId (.string toTokenId) = some toText)
    (hdisjoint : (matchingCollections p collections contract).Pairwise fun a b =>
      Disjoint (a.tokens store chainId) (b.tokens store chainId)) :
    ∃ ranges, splitRangeByCollectionScope p store chainId collections contract fromTokenId toTokenId =
        .ok ranges ∧
      ranges.Pairwise (fun a b => ∀ n, ¬ (a.Holds n ∧ b.Holds n)) ∧
      ∀ tokenId text, normalizeEvmTokenId (.string tokenId) = some text →
        tokenIdValue fromText ≤ tokenIdValue text → tokenIdValue text ≤ tokenIdValue toText →
        ∀ collectionId, (∃ r ∈ ranges, r.collectionId = collectionId ∧ r.Holds (tokenIdValue text)) ↔
            resolveTokenScopedCollectionId p store chainId collections contract tokenId =
              some collectionId := by
  let parts := fun collection : CollectionRecord => collection.scopeRanges store chainId fromTokenId toTokenId
    (tokenIdValue fromText) (tokenIdValue toText)
  have hsplit : splitRangeByCollectionScope p store chainId collections contract fromTokenId toTokenId =
      .ok ((matchingCollections p collections contract).flatMap parts) := by
    unfold splitRangeByCollectionScope
    rw [bigInt?_of_normalize hfrom, bigInt?_of_normalize hto]
    dsimp only
    split
    · next hnone => rw [hnone, List.flatMap_nil]
    · rfl
  refine ⟨_, hsplit, ?_, fun tokenId text htoken hlo hhi collectionId => ?_⟩
  · refine List.pairwise_flatMap.mpr ⟨fun collection _ => CollectionRecord.pairwise_scopeRanges,
      hdisjoint.imp fun hab r hr r' hr' n hboth => ?_⟩
    have hleft := (CollectionRecord.holds_scopeRanges hfrom hto).mp ⟨r, hr, hboth.1⟩
    have hright := (CollectionRecord.holds_scopeRanges hfrom hto).mp ⟨r', hr', hboth.2⟩
    exact Set.disjoint_left.mp hab hleft.2 hright.2
  · rw [resolveTokenScopedCollectionId_eq_some hdisjoint htoken]
    constructor
    · rintro ⟨r, hr, rfl, hholds⟩
      obtain ⟨collection, hmem, hr⟩ := List.mem_flatMap.mp hr
      exact ⟨collection, hmem, (CollectionRecord.collectionId_scopeRanges hr).symm,
        ((CollectionRecord.holds_scopeRanges hfrom hto).mp ⟨r, hr, hholds⟩).2⟩
    · rintro ⟨collection, hmem, rfl, hdeclared⟩
      obtain ⟨r, hr, hholds⟩ := (CollectionRecord.holds_scopeRanges hfrom hto).mpr ⟨⟨hlo, hhi⟩, hdeclared⟩
      exact ⟨r, List.mem_flatMap.mpr ⟨collection, hmem, hr⟩,
        CollectionRecord.collectionId_scopeRanges hr, hholds⟩

/-- Ten ids from the first on, and two listed ids, on one contract. -/
def sharedContract : List CollectionRecord :=
  [⟨1, "0xAB", .tokenRange ⟨"1", 10, by decide +kernel, by decide, by decide, by decide +kernel⟩⟩,
    ⟨2, "0xab", .explicitTokenIds⟩]

def sharedScopeTokens : CollectionScopeTokens :=
  ⟨[⟨1, 2, "30"⟩, ⟨1, 2, "35"⟩], by decide, by decide +kernel⟩

def asciiScopePlatform : Platform := ⟨fun c => [c], id⟩

theorem sharedContract_disjoint :
    (matchingCollections asciiScopePlatform sharedContract "0xab").Pairwise fun a b =>
      Disjoint (a.tokens sharedScopeTokens 1) (b.tokens sharedScopeTokens 1) := by
  refine List.Pairwise.sublist List.filter_sublist ?_
  refine List.pairwise_pair.mpr (Set.disjoint_left.mpr ?_)
  rintro n ⟨-, -, hlast⟩ ⟨-, row, hrow, -, -, rfl⟩
  have hlisted : ∀ row ∈ sharedScopeTokens.rows, 30 ≤ tokenIdValue row.tokenId := by decide +kernel
  have hfirst : tokenIdValue "1" = 1 := by decide +kernel
  have := hlisted row hrow
  dsimp only at hlast
  omega

theorem token_attribution_agrees_shared :
    ∃ ranges, splitRangeByCollectionScope asciiScopePlatform sharedScopeTokens 1 sharedContract "0xab"
        "5" " 035 " = .ok ranges ∧
      ∀ collectionId, (∃ r ∈ ranges, r.collectionId = collectionId ∧ r.Holds (tokenIdValue "35")) ↔
        resolveTokenScopedCollectionId asciiScopePlatform sharedScopeTokens 1 sharedContract "0xab" "35" =
          some collectionId := by
  obtain ⟨ranges, hsplit, -, hattributed⟩ := @token_attribution_agrees asciiScopePlatform sharedScopeTokens 1
    sharedContract "0xab" "5" " 035 " "5" "35" (by decide +kernel) (by decide +kernel) sharedContract_disjoint
  exact ⟨ranges, hsplit,
    hattributed "35" "35" (by decide +kernel) (by decide +kernel) (by decide +kernel)⟩

end Artgod.Collections
