/-
# Checks of a sync result

The checks a result has to pass before the writer stores any of it (`domain/sync-result.ts`), the
canonical-check policy (`domain/canonical-check.ts`) and the anchor rules of a collection
(`domain/collections.ts`).  Each check is a function of its arguments alone; the lemma after it
says what a result that passed is known to satisfy, and the store's proofs use nothing else.
-/
import Artgod.Indexer.Rows

namespace Artgod.Indexer

open Store

/-! ## 1. Headers -/

/-- The first loop of `assertSyncBlockHeaders`: collect the headers by number, refusing two
different headers for one height. -/
def collectHeaders (byNumber : List SyncBlockHeader) :
    List SyncBlockHeader → Except SyncError (List SyncBlockHeader)
  | [] => .ok byNumber
  | block :: rest =>
    if isSafeInteger block.number = false then
      .error (.chainSyncConflict "Sync returned an invalid block number")
    else
      match byNumber.find? (fun previous => previous.number = block.number) with
      | some previous =>
        if previous.hash ≠ block.hash ∨ previous.parentHash ≠ block.parentHash ∨
            previous.timestamp ≠ block.timestamp then
          .error (.chainSyncConflict
            s!"Sync returned conflicting headers for block {block.number}")
        else collectHeaders byNumber rest
      | none => collectHeaders (byNumber ++ [block]) rest

/-- The second loop: a header whose parent height was supplied must link to it. -/
def assertParentLinks (byNumber : List SyncBlockHeader) : List SyncBlockHeader → Except SyncError Unit
  | [] => .ok ()
  | block :: rest =>
    match byNumber.find? (fun parent => parent.number + 1 = block.number) with
    | some parent =>
      if block.parentHash ≠ parent.hash then
        .error (.chainSyncConflict
          s!"Sync returned a broken parent link at block {block.number}")
      else assertParentLinks byNumber rest
    | none => assertParentLinks byNumber rest

def assertSyncBlockHeaders (blocks : List SyncBlockHeader) : Except SyncError Unit := do
  let byNumber ← collectHeaders [] blocks
  assertParentLinks byNumber byNumber

/-- No two headers of the list disagree about a height. -/
def HeadersAgree (blocks : List SyncBlockHeader) : Prop :=
  ∀ a ∈ blocks, ∀ b ∈ blocks, a.number = b.number → a = b

theorem collectHeaders_agree :
    ∀ (blocks byNumber out : List SyncBlockHeader), collectHeaders byNumber blocks = .ok out →
      HeadersAgree byNumber → HeadersAgree out ∧ (∀ b ∈ byNumber, b ∈ out) ∧ ∀ b ∈ blocks, b ∈ out
  | [], byNumber, out, h, hagree => by
    simp only [collectHeaders, Except.ok.injEq] at h
    subst h
    exact ⟨hagree, fun b hb => hb, by simp⟩
  | block :: rest, byNumber, out, h, hagree => by
    rw [collectHeaders] at h
    split at h
    · exact absurd h (by simp)
    split at h
    · next previous hfind =>
      split at h
      · exact absurd h (by simp)
      next hsame =>
      -- the stored header of this height is the very same header
      have hmem : previous ∈ byNumber := List.mem_of_find?_eq_some hfind
      have hnum : previous.number = block.number := by simpa using List.find?_some hfind
      have heq : previous = block := by
        push Not at hsame
        cases previous
        cases block
        simp_all
      obtain ⟨ha, hold, hnew⟩ := collectHeaders_agree rest byNumber out h hagree
      refine ⟨ha, hold, ?_⟩
      intro b hb
      rcases List.mem_cons.mp hb with rfl | hb
      · exact heq ▸ hold previous hmem
      · exact hnew b hb
    · next hfind =>
      have hfresh : ∀ b ∈ byNumber, b.number ≠ block.number := by
        simpa using List.find?_eq_none.mp hfind
      have hagree' : HeadersAgree (byNumber ++ [block]) := by
        intro a ha b hb hab
        rcases List.mem_append.mp ha with ha | ha <;> rcases List.mem_append.mp hb with hb | hb
        · exact hagree a ha b hb hab
        · rw [List.mem_singleton.mp hb] at hab
          exact absurd hab (hfresh a ha)
        · rw [List.mem_singleton.mp ha] at hab
          exact absurd hab.symm (hfresh b hb)
        · rw [List.mem_singleton.mp ha, List.mem_singleton.mp hb]
      obtain ⟨ha, hold, hnew⟩ := collectHeaders_agree rest _ out h hagree'
      refine ⟨ha, fun b hb => hold b (by simp [hb]), ?_⟩
      intro b hb
      rcases List.mem_cons.mp hb with rfl | hb
      · exact hold b (by simp)
      · exact hnew b hb

variable {blocks : List SyncBlockHeader}

theorem assertSyncBlockHeaders_agree
    (h : assertSyncBlockHeaders blocks = .ok ()) : HeadersAgree blocks := by
  simp only [assertSyncBlockHeaders, bind, Except.bind] at h
  cases hc : collectHeaders [] blocks with
  | error e =>
    rw [hc] at h
    exact absurd h (by simp)
  | ok out =>
    obtain ⟨hagree, -, hmem⟩ := collectHeaders_agree blocks [] out hc (by simp [HeadersAgree])
    exact fun a ha b hb => hagree a (hmem a ha) b (hmem b hb)

/-! ## 2. Facts -/

/-- `new Map(blocks.map((block) => [block.number, block]))` read at a height: a map built from a
list keeps the last entry of a key. -/
def headerAt (blocks : List SyncBlockHeader) (number : Nat) : Option SyncBlockHeader :=
  blocks.reverse.find? (fun block => block.number = number)

theorem headerAt_some {n : Nat} {b : SyncBlockHeader}
    (h : headerAt blocks n = some b) : b ∈ blocks ∧ b.number = n :=
  ⟨List.mem_reverse.mp (List.mem_of_find?_eq_some h), by simpa using List.find?_some h⟩

theorem headerAt_isSome {b : SyncBlockHeader} (h : b ∈ blocks) :
    ∃ c, headerAt blocks b.number = some c := by
  rw [← Option.isSome_iff_exists, headerAt, List.find?_isSome]
  exact ⟨b, List.mem_reverse.mpr h, by simp⟩

def TransactionRecord.fact (r : TransactionRecord) : BlockFact := ⟨r.blockNumber, r.blockHash⟩
def NftTransferEvent.fact (e : NftTransferEvent) : BlockFact := ⟨e.blockNumber, e.blockHash⟩
def FillEvent.fact (e : FillEvent) : BlockFact := ⟨e.blockNumber, e.blockHash⟩
def CollectionExtensionEvent.fact (e : CollectionExtensionEvent) : BlockFact :=
  ⟨e.blockNumber, e.blockHash⟩
def CollectionExtensionEventMedia.fact (m : CollectionExtensionEventMedia) : BlockFact :=
  ⟨m.blockNumber, m.blockHash⟩

/-- Every fact of the result, persisted or not. -/
def OnChainData.facts (data : OnChainData) : List BlockFact :=
  data.transactions.map TransactionRecord.fact ++ data.nftTransferEvents.map NftTransferEvent.fact
    ++ data.fillEvents.map FillEvent.fact
    ++ data.collectionExtensionEvents.map CollectionExtensionEvent.fact
    ++ data.collectionExtensionEventMedia.map CollectionExtensionEventMedia.fact
    ++ data.hints

/-- The loop over the fact groups in `assertSyncResultMatchesBlocks`. -/
def assertFactsMatch (blocks : List SyncBlockHeader) : List BlockFact → Except SyncError Unit
  | [] => .ok ()
  | fact :: rest =>
    match headerAt blocks fact.blockNumber with
    | some block =>
      if fact.blockHash ≠ block.hash then
        .error (.chainSyncConflict
          s!"Sync fact does not match its header at block {fact.blockNumber}")
      else assertFactsMatch blocks rest
    | none =>
      .error (.chainSyncConflict
        s!"Sync fact does not match its header at block {fact.blockNumber}")

def assertSyncResultMatchesBlocks (blocks : List SyncBlockHeader) (data : OnChainData) :
    Except SyncError Unit := do
  assertSyncBlockHeaders blocks
  assertFactsMatch blocks data.facts

/-- A header of the list carries the fact's height and hash. -/
def FactMatches (blocks : List SyncBlockHeader) (fact : BlockFact) : Prop :=
  ∃ b ∈ blocks, b.number = fact.blockNumber ∧ b.hash = fact.blockHash

theorem assertFactsMatch_matches : ∀ {facts : List BlockFact}, assertFactsMatch blocks facts = .ok () →
      ∀ f ∈ facts, FactMatches blocks f
  | [], _ => by simp
  | fact :: rest, h => by
    rw [assertFactsMatch] at h
    split at h
    · next block hat =>
      split at h
      · exact absurd h (by simp)
      next hhash =>
      push Not at hhash
      obtain ⟨hmem, hnum⟩ := headerAt_some hat
      intro f hf
      rcases List.mem_cons.mp hf with rfl | hf
      · exact ⟨block, hmem, hnum, hhash.symm⟩
      · exact assertFactsMatch_matches h f hf
    · exact absurd h (by simp)

/-- What a result that passed `assertSyncResultMatchesBlocks` satisfies. -/
structure ResultMatches (blocks : List SyncBlockHeader) (data : OnChainData) : Prop where
  headers : HeadersAgree blocks
  facts : ∀ f ∈ data.facts, FactMatches blocks f

theorem assertSyncResultMatchesBlocks_ok {data : OnChainData}
    (h : assertSyncResultMatchesBlocks blocks data = .ok ()) : ResultMatches blocks data := by
  simp only [assertSyncResultMatchesBlocks, bind, Except.bind] at h
  cases hh : assertSyncBlockHeaders blocks with
  | error e =>
    rw [hh] at h
    exact absurd h (by simp)
  | ok u =>
    rw [hh] at h
    exact ⟨assertSyncBlockHeaders_agree hh, assertFactsMatch_matches h⟩

namespace ResultMatches

variable {blocks : List SyncBlockHeader} {data : OnChainData}

theorem transaction (h : ResultMatches blocks data) {r : TransactionRecord}
    (hr : r ∈ data.transactions) : FactMatches blocks r.fact := by
  have := List.mem_map_of_mem (f := TransactionRecord.fact) hr
  exact h.facts _ (by simp only [OnChainData.facts, List.mem_append]; tauto)

theorem transfer (h : ResultMatches blocks data) {e : NftTransferEvent}
    (he : e ∈ data.nftTransferEvents) : FactMatches blocks e.fact := by
  have := List.mem_map_of_mem (f := NftTransferEvent.fact) he
  exact h.facts _ (by simp only [OnChainData.facts, List.mem_append]; tauto)

theorem fill (h : ResultMatches blocks data) {e : FillEvent} (he : e ∈ data.fillEvents) :
    FactMatches blocks e.fact := by
  have := List.mem_map_of_mem (f := FillEvent.fact) he
  exact h.facts _ (by simp only [OnChainData.facts, List.mem_append]; tauto)

theorem extensionEvent (h : ResultMatches blocks data) {e : CollectionExtensionEvent}
    (he : e ∈ data.collectionExtensionEvents) : FactMatches blocks e.fact := by
  have := List.mem_map_of_mem (f := CollectionExtensionEvent.fact) he
  exact h.facts _ (by simp only [OnChainData.facts, List.mem_append]; tauto)

theorem extensionEventMedia (h : ResultMatches blocks data) {m : CollectionExtensionEventMedia}
    (hm : m ∈ data.collectionExtensionEventMedia) : FactMatches blocks m.fact := by
  have := List.mem_map_of_mem (f := CollectionExtensionEventMedia.fact) hm
  exact h.facts _ (by simp only [OnChainData.facts, List.mem_append]; tauto)

end ResultMatches

/-! ## 3. Follow-ups and ranges -/

/-- `SyncFollowUp`: a job the commit has to publish.  An event follow-up names the block it was
read from. -/
inductive SyncFollowUp where
  | range (job : JobEnvelope)
  | event (job : JobEnvelope) (block : BlockFact)

def SyncFollowUp.job : SyncFollowUp → JobEnvelope
  | .range job => job
  | .event job _ => job

def assertSyncFollowUpsMatchBlocks (blocks : List SyncBlockHeader)
    (collectionIds : List CollectionId) : List SyncFollowUp → Except SyncError Unit
  | [] => .ok ()
  | followUp :: rest =>
    if ∃ id ∈ followUp.job.collectionId, id ∉ collectionIds then
      .error (.chainSyncConflict "Sync follow-up has a different acquisition scope")
    else
      match followUp with
      | .range _ => assertSyncFollowUpsMatchBlocks blocks collectionIds rest
      | .event _ block =>
        if (headerAt blocks block.blockNumber).map (·.hash) ≠ some block.blockHash then
          .error (.chainSyncConflict "Sync follow-up does not match its canonical header")
        else assertSyncFollowUpsMatchBlocks blocks collectionIds rest

/-- `assertSyncBlocksCoverRange`: the headers are exactly those of the range, in order. -/
def assertSyncBlocksCoverRange (blocks : List SyncBlockHeader)
    (fromBlock toBlock : Nat) : Except SyncError Unit :=
  if blocks.length + fromBlock ≠ toBlock + 1 ∨
      blocks.map (·.number) ≠ List.range' fromBlock blocks.length then
    .error (.chainSyncConflict "Sync acquisition does not cover its completion range")
  else .ok ()

/-- **Headers that cover a range contain every height of it and no other.** -/
theorem assertSyncBlocksCoverRange_iff {fromBlock toBlock : Nat}
    (h : assertSyncBlocksCoverRange blocks fromBlock toBlock = .ok ()) (n : Nat) :
    (∃ b ∈ blocks, b.number = n) ↔ fromBlock ≤ n ∧ n ≤ toBlock := by
  simp only [assertSyncBlocksCoverRange] at h
  split at h
  · exact absurd h (by simp)
  next hc =>
  push Not at hc
  obtain ⟨hlen, hmap⟩ := hc
  have hmem : (∃ b ∈ blocks, b.number = n) ↔ n ∈ blocks.map (·.number) := by simp
  rw [hmem, hmap, List.mem_range'_1]
  constructor
  · rintro ⟨hlo, hhi⟩
    exact ⟨hlo, by omega⟩
  · rintro ⟨hlo, hhi⟩
    exact ⟨hlo, by omega⟩

/-! ## 4. The canonical-check policy -/

/-- `canonicalCheckUpperBound`: `Math.max(0, head - reorgDepth + 1)`. -/
def canonicalCheckUpperBound (head reorgDepth : Nat) : Nat := head + 1 - reorgDepth

def assertCanonicalCheckPolicy (policy : CanonicalCheckPolicy) : Except SyncError Unit :=
  if isSafeInteger policy.observedHeadBlock = false ∨ isSafeInteger policy.reorgDepth = false ∨
      policy.reorgDepth < 1 then
    .error (.error "Invalid canonical check policy")
  else .ok ()

/-- `needsDelayedCanonicalCheck`, of a policy that passed its check. -/
def needsDelayedCanonicalCheck (blockNumber : Nat) (policy : CanonicalCheckPolicy) : Bool :=
  canonicalCheckUpperBound policy.observedHeadBlock policy.reorgDepth < blockNumber

/-! ## 5. Anchors -/

def canRollbackFromBlock (anchor : Option Nat) (fromBlock : Nat) : Bool :=
  match anchor with
  | none => true
  | some a => a < fromBlock

/-- `CollectionRecord.canProjectCurrentStateAtBlock`, for an event that names its block. -/
def canProjectCurrentStateAtBlock (anchor : Option Nat) (blockNumber : Nat) : Bool :=
  match anchor with
  | none => false
  | some a => a < blockNumber

def CollectionRecord.canProjectCurrentStateAt (c : CollectionRecord) (blockNumber : Nat) : Bool :=
  canProjectCurrentStateAtBlock c.bootstrapAnchorBlock blockNumber

theorem CollectionRecord.canProjectCurrentStateAt_iff {c : CollectionRecord} {n : Nat} :
    c.canProjectCurrentStateAt n = true ↔ ∃ a, c.bootstrapAnchorBlock = some a ∧ a < n := by
  simp only [canProjectCurrentStateAt, canProjectCurrentStateAtBlock]
  cases c.bootstrapAnchorBlock <;> simp

/-- `gapRepairWindow`: the blocks from the anchor to the head, of a live collection. -/
def CollectionRecord.gapRepairWindow (c : CollectionRecord) (headBlock : Nat) : Option (Nat × Nat) :=
  match c.bootstrapAnchorBlock with
  | none => none
  | some anchor =>
    if c.status = .live ∧ isSafeInteger anchor = true ∧ 1 ≤ anchor ∧
        isSafeInteger headBlock = true ∧ anchor ≤ headBlock then
      some (anchor, headBlock)
    else none

theorem CollectionRecord.gapRepairWindow_some {c : CollectionRecord} {head : Nat}
    {w : Nat × Nat} (h : c.gapRepairWindow head = some w) :
    c.bootstrapAnchorBlock = some w.1 ∧ w.2 = head ∧ 1 ≤ w.1 ∧ w.1 ≤ head ∧ c.status = .live := by
  rw [gapRepairWindow] at h
  split at h
  · exact absurd h (by simp)
  next anchor hanchor =>
  split at h
  · next hc =>
    rw [Option.some.injEq] at h
    subst h
    exact ⟨hanchor, rfl, hc.2.2.1, hc.2.2.2.2, hc.1⟩
  · exact absurd h (by simp)

end Artgod.Indexer
