/-
# The common ancestor of a reorg

`proveReorgAncestor` (`domain/reorg-fork.ts`) compares the stored headers of a window with the canonical chain
over it, and answers the height that a rollback may keep.  The stored headers are sparse, so that a match alone
is no ancestor: it has to lie below every divergence, also one that shows only in the parent hash of the next
header.  The answer is the greatest `Ancestor`.
-/
import Artgod.Indexer.Recovery
import Artgod.Indexer.SyncResult

namespace Artgod.Indexer

open Store

/-! ## 1. The proof of the ancestor -/

/-- The first loop of `proveReorgAncestor`: no height from here on is known to be canonical. -/
def firstDivergence (canonicalBlocks : List SyncBlockHeader) : Nat → List SyncBlockHeader → Except SyncError Nat
  | first, [] => .ok first
  | first, stored :: rest =>
    match headerAt canonicalBlocks stored.number with
    | none => .error (.chainSyncConflict "Stored header is outside the ancestor window")
    | some current =>
      let first :=
        if stored.hash ≠ current.hash ∨ stored.timestamp ≠ current.timestamp then min first stored.number else first
      let first :=
        if 0 < stored.number ∧ stored.parentHash ≠ current.parentHash then min first (stored.number - 1) else first
      firstDivergence canonicalBlocks first rest

/-- The second loop: the highest stored header below the divergence that is canonical. -/
def selectFork (canonicalBlocks : List SyncBlockHeader) (first : Nat) :
    Option SyncBlockHeader → List SyncBlockHeader → Option SyncBlockHeader
  | fork, [] => fork
  | fork, stored :: rest =>
    match headerAt canonicalBlocks stored.number with
    | none => selectFork canonicalBlocks first fork rest
    | some current =>
      if stored.number < first ∧ stored.hash = current.hash ∧ stored.parentHash = current.parentHash ∧
          stored.timestamp = current.timestamp ∧ ∀ found ∈ fork, found.number < stored.number then
        selectFork canonicalBlocks first (some current) rest
      else selectFork canonicalBlocks first fork rest

def proveReorgAncestor (history : ReorgHistorySnapshot) (canonicalBlocks : List SyncBlockHeader) :
    Except SyncError (Option ReorgAncestorProof) := do
  assertSyncBlockHeaders canonicalBlocks
  if canonicalBlocks.length + history.fromBlock ≠ history.toBlock + 1 ∨
      canonicalBlocks.map (·.number) ≠ List.range' history.fromBlock canonicalBlocks.length then
    .error (.chainSyncConflict "Incomplete canonical ancestor window")
  else
    let first ← firstDivergence canonicalBlocks history.toBlock history.headers
    .ok ((selectFork canonicalBlocks first none history.headers).map fun fork => ⟨fork, history⟩)

/-! ## 2. Canonical chains -/

/-- A linked chain over a window. -/
structure CanonicalChain (fromBlock toBlock : Nat) (blocks : List SyncBlockHeader) : Prop where
  window : fromBlock ≤ toBlock + 1
  covers : blocks.map (·.number) = List.range' fromBlock (toBlock + 1 - fromBlock)
  linked : blocks.IsChain fun parent block => block.parentHash = parent.hash
  safe : ∀ block ∈ blocks, isSafeInteger block.number = true

section Chains

variable {fromBlock toBlock : Nat} {blocks : List SyncBlockHeader}

theorem CanonicalChain.length (h : CanonicalChain fromBlock toBlock blocks) :
    blocks.length + fromBlock = toBlock + 1 := by
  have hlength := congrArg List.length h.covers
  have hwindow := h.window
  rw [List.length_map, List.length_range'] at hlength
  omega

theorem CanonicalChain.agree (h : CanonicalChain fromBlock toBlock blocks) : HeadersAgree blocks := by
  intro a ha b hb hnumber
  refine List.inj_on_of_nodup_map ?_ ha hb hnumber
  rw [h.covers]
  exact List.nodup_range'

variable {n : Nat}

theorem CanonicalChain.headerAt_iff (h : CanonicalChain fromBlock toBlock blocks) {b : SyncBlockHeader} :
    headerAt blocks n = some b ↔ b ∈ blocks ∧ b.number = n := by
  refine ⟨headerAt_some, fun ⟨hmem, hnumber⟩ => ?_⟩
  obtain ⟨c, hc⟩ := headerAt_isSome hmem
  rw [hnumber] at hc
  obtain ⟨hother, hsame⟩ := headerAt_some hc
  rw [hc, h.agree c hother b hmem (hsame.trans hnumber.symm)]

theorem CanonicalChain.exists_header (h : CanonicalChain fromBlock toBlock blocks) (hfrom : fromBlock ≤ n)
    (hto : n ≤ toBlock) : ∃ b, headerAt blocks n = some b := by
  have hmem : n ∈ blocks.map (·.number) := by
    rw [h.covers, List.mem_range'_1]
    omega
  obtain ⟨b, hb, rfl⟩ := List.mem_map.mp hmem
  exact headerAt_isSome hb

theorem collectHeaders_fresh : ∀ {blocks byNumber : List SyncBlockHeader},
    ((byNumber ++ blocks).map (·.number)).Nodup → (∀ block ∈ blocks, isSafeInteger block.number = true) →
    collectHeaders byNumber blocks = .ok (byNumber ++ blocks)
  | [], byNumber, _, _ => by rw [collectHeaders, List.append_nil]
  | block :: rest, byNumber, hnodup, hsafe => by
    have hfresh : byNumber.find? (fun previous => previous.number = block.number) = none := by
      refine List.find?_eq_none.mpr fun previous hprevious => ?_
      rw [List.map_append, List.nodup_append] at hnodup
      simpa using hnodup.2.2 _ (List.mem_map_of_mem hprevious) _ (List.mem_map_of_mem List.mem_cons_self)
    rw [collectHeaders, hsafe block List.mem_cons_self, if_neg (by decide), hfresh]
    dsimp only
    have happend : byNumber ++ block :: rest = byNumber ++ [block] ++ rest := List.append_cons ..
    rw [happend] at hnodup ⊢
    exact collectHeaders_fresh hnodup fun b hb => hsafe b (List.mem_cons_of_mem block hb)

theorem number_of_covers {count : Nat} (hcovers : blocks.map (·.number) = List.range' fromBlock count) {i : Nat}
    {hi : i < blocks.length} : blocks[i].number = fromBlock + i := by
  have hget : (blocks.map (·.number))[i]? = some (fromBlock + i) := by
    have hlength := congrArg List.length hcovers
    rw [List.length_map, List.length_range'] at hlength
    rw [hcovers, List.getElem?_range' (by omega), Nat.one_mul]
  rw [List.getElem?_map, List.getElem?_eq_getElem hi] at hget
  exact Option.some.inj hget

theorem CanonicalChain.parent (h : CanonicalChain fromBlock toBlock blocks) {parent block : SyncBlockHeader}
    (hparent : parent ∈ blocks) (hblock : block ∈ blocks) (hnumber : parent.number + 1 = block.number) :
    block.parentHash = parent.hash := by
  obtain ⟨i, hi, rfl⟩ := List.mem_iff_getElem.mp hparent
  obtain ⟨j, hj, rfl⟩ := List.mem_iff_getElem.mp hblock
  rw [number_of_covers h.covers, number_of_covers h.covers] at hnumber
  obtain rfl : j = i + 1 := by omega
  exact List.isChain_iff_getElem.mp h.linked i hj

theorem assertParentLinks_accepts {byNumber : List SyncBlockHeader} : ∀ {rest : List SyncBlockHeader},
    (∀ parent ∈ byNumber, ∀ block ∈ rest, parent.number + 1 = block.number → block.parentHash = parent.hash) →
    assertParentLinks byNumber rest = .ok ()
  | [], _ => rfl
  | block :: rest, hlinked => by
    have hrest := @assertParentLinks_accepts byNumber rest
      fun parent hparent b hb => hlinked parent hparent b (List.mem_cons_of_mem block hb)
    rw [assertParentLinks]
    split
    · next parent hfind =>
      have hnumber : parent.number + 1 = block.number := by simpa using List.find?_some hfind
      rw [if_neg, hrest]
      exact not_not_intro (hlinked parent (List.mem_of_find?_eq_some hfind) block List.mem_cons_self hnumber)
    · exact hrest

theorem assertSyncBlockHeaders_accepts (h : CanonicalChain fromBlock toBlock blocks) :
    assertSyncBlockHeaders blocks = .ok () := by
  have hnodup : (([] ++ blocks).map SyncBlockHeader.number).Nodup := by
    rw [List.nil_append, h.covers]
    exact List.nodup_range'
  rw [assertSyncBlockHeaders, collectHeaders_fresh hnodup h.safe, List.nil_append]
  exact assertParentLinks_accepts fun parent hparent block hblock hnumber => h.parent hparent hblock hnumber

end Chains

/-! ## 3. The greatest ancestor -/

/-- The height is an ancestor: it is stored as it is on the canonical chain, nothing at or below it has diverged,
and the header right above it, if it is stored, names it. -/
structure Ancestor (history : ReorgHistorySnapshot) (canonicalBlocks : List SyncBlockHeader) (h : Nat) : Prop where
  stored : ∃ s ∈ history.headers, s.number = h ∧ s ∈ canonicalBlocks
  below : h < history.toBlock
  agree : ∀ s ∈ history.headers, s.number ≤ h → ∀ c ∈ canonicalBlocks, c.number = s.number →
    s.hash = c.hash ∧ s.timestamp = c.timestamp ∧ (0 < s.number → s.parentHash = c.parentHash)
  next : ∀ s ∈ history.headers, s.number = h + 1 → ∀ c ∈ canonicalBlocks, c.number = s.number →
    s.parentHash = c.parentHash

/-- What the first loop knows of a header: where it has diverged lies above the height. -/
def DivergesAbove (h : Nat) (stored current : SyncBlockHeader) : Prop :=
  (stored.hash ≠ current.hash ∨ stored.timestamp ≠ current.timestamp → h < stored.number) ∧
    (0 < stored.number ∧ stored.parentHash ≠ current.parentHash → h < stored.number - 1)

section Loops

variable {canonicalBlocks : List SyncBlockHeader}

theorem lt_ite_min {p : Prop} [Decidable p] {h m n : Nat} :
    h < (if p then min m n else m) ↔ h < m ∧ (p → h < n) := by
  by_cases hp : p
  · rw [if_pos hp, Nat.lt_min]
    exact and_congr_right fun _ => ⟨fun hlt _ => hlt, fun hlt => hlt hp⟩
  · rw [if_neg hp]
    exact ⟨fun hlt => ⟨hlt, fun hp' => absurd hp' hp⟩, fun hlt => hlt.1⟩

variable {headers : List SyncBlockHeader}

theorem firstDivergence_spec {first d : Nat}
    (hrun : firstDivergence canonicalBlocks first headers = .ok d) (h : Nat) :
    h < d ↔ h < first ∧ ∀ s ∈ headers, ∀ c, headerAt canonicalBlocks s.number = some c → DivergesAbove h s c := by
  induction headers generalizing first with
  | nil =>
    cases hrun
    exact ⟨fun hlt => ⟨hlt, nofun⟩, fun hlt => hlt.1⟩
  | cons stored rest ih =>
    rw [firstDivergence] at hrun
    split at hrun
    · cases hrun
    next current hcurrent =>
    rw [ih hrun, lt_ite_min, lt_ite_min, List.forall_mem_cons, and_assoc, and_assoc, ← and_assoc (a := _ → _)]
    refine and_congr_right fun _ => and_congr_left fun _ => ?_
    rw [hcurrent]
    exact ⟨fun habove c hc => Option.some.inj hc ▸ habove, fun habove => habove current rfl⟩

theorem firstDivergence_returns
    (hwindow : ∀ s ∈ headers, ∃ c, headerAt canonicalBlocks s.number = some c) (first : Nat) :
    ∃ d, firstDivergence canonicalBlocks first headers = .ok d := by
  induction headers generalizing first with
  | nil => exact ⟨first, rfl⟩
  | cons stored rest ih =>
    obtain ⟨current, hcurrent⟩ := hwindow stored List.mem_cons_self
    rw [firstDivergence, hcurrent]
    exact ih (fun s hs => hwindow s (List.mem_cons_of_mem stored hs)) _

/-- A header that the second loop can take. -/
def Matches (first : Nat) (stored current : SyncBlockHeader) : Prop :=
  stored.number < first ∧ stored.hash = current.hash ∧ stored.parentHash = current.parentHash ∧
    stored.timestamp = current.timestamp

/-- The second loop answers a header that it can take, or the one that it had, and no other is higher. -/
structure Selects (canonicalBlocks : List SyncBlockHeader) (first : Nat) (fork : Option SyncBlockHeader)
    (headers : List SyncBlockHeader) (answer : Option SyncBlockHeader) : Prop where
  found : ∀ c ∈ answer, c ∈ fork ∨ ∃ s ∈ headers, headerAt canonicalBlocks s.number = some c ∧ Matches first s c
  highest : ∀ s ∈ headers, ∀ c, headerAt canonicalBlocks s.number = some c → Matches first s c →
    ∃ a ∈ answer, s.number ≤ a.number
  kept : ∀ c ∈ fork, ∃ a ∈ answer, c.number ≤ a.number

theorem selectFork_spec (first : Nat) (fork : Option SyncBlockHeader) (headers : List SyncBlockHeader) :
    Selects canonicalBlocks first fork headers (selectFork canonicalBlocks first fork headers) := by
  induction headers generalizing fork with
  | nil => exact ⟨fun c hc => .inl hc, nofun, fun c hc => ⟨c, hc, Nat.le_refl _⟩⟩
  | cons stored rest ih =>
    rw [selectFork]
    split
    · next hnone =>
      obtain ⟨hfound, hhighest, hkept⟩ := ih fork
      refine ⟨fun c hc => (hfound c hc).imp_right fun ⟨s, hs, h⟩ => ⟨s, List.mem_cons_of_mem stored hs, h⟩,
        fun s hs c hc hmatch => ?_, hkept⟩
      rcases List.mem_cons.mp hs with rfl | hs
      · cases hnone.symm.trans hc
      · exact hhighest s hs c hc hmatch
    next current hcurrent =>
    have hnumber := (headerAt_some hcurrent).2
    split
    · next hmatches =>
      obtain ⟨hbelow, hhash, hparent, htime, hhigher⟩ := hmatches
      obtain ⟨hfound, hhighest, hkept⟩ := ih (some current)
      obtain ⟨a, ha, hle⟩ := hkept current rfl
      refine ⟨fun c hc => .inr ?_, fun s hs c hc hmatch => ?_, fun c hc => ⟨a, ha, ?_⟩⟩
      · rcases hfound c hc with hold | ⟨s, hs, h⟩
        · cases hold
          exact ⟨stored, List.mem_cons_self, hcurrent, hbelow, hhash, hparent, htime⟩
        · exact ⟨s, List.mem_cons_of_mem stored hs, h⟩
      · rcases List.mem_cons.mp hs with rfl | hs
        · exact ⟨a, ha, hnumber ▸ hle⟩
        · exact hhighest s hs c hc hmatch
      · have := hhigher c hc
        omega
    · next hother =>
      obtain ⟨hfound, hhighest, hkept⟩ := ih fork
      refine ⟨fun c hc => (hfound c hc).imp_right fun ⟨s, hs, h⟩ => ⟨s, List.mem_cons_of_mem stored hs, h⟩,
        fun s hs c hc hmatch => ?_, hkept⟩
      rcases List.mem_cons.mp hs with rfl | hs
      · -- It was passed over for one that is at least as high.
        cases hcurrent.symm.trans hc
        obtain ⟨hbelow, hhash, hparent, htime⟩ := hmatch
        have hnot : ¬ ∀ found ∈ fork, found.number < s.number := fun hall =>
          hother ⟨hbelow, hhash, hparent, htime, hall⟩
        push Not at hnot
        obtain ⟨found, hmem, hle⟩ := hnot
        obtain ⟨a, ha, hle'⟩ := hkept found hmem
        exact ⟨a, ha, hle.trans hle'⟩
      · exact hhighest s hs c hc hmatch

end Loops

section Answers

variable {history : ReorgHistorySnapshot} {canonicalBlocks : List SyncBlockHeader}

variable {d : Nat}

theorem lt_divergence_iff (hchain : CanonicalChain history.fromBlock history.toBlock canonicalBlocks)
    (hrun : firstDivergence canonicalBlocks history.toBlock history.headers = .ok d) {h : Nat} :
    h < d ↔ h < history.toBlock ∧
      (∀ s ∈ history.headers, s.number ≤ h → ∀ c ∈ canonicalBlocks, c.number = s.number →
        s.hash = c.hash ∧ s.timestamp = c.timestamp ∧ (0 < s.number → s.parentHash = c.parentHash)) ∧
      ∀ s ∈ history.headers, s.number = h + 1 → ∀ c ∈ canonicalBlocks, c.number = s.number →
        s.parentHash = c.parentHash := by
  rw [firstDivergence_spec hrun]
  refine and_congr_right fun _ => ⟨fun habove => ⟨fun s hs hle c hc hnumber => ?_, fun s hs hnext c hc hnumber => ?_⟩,
    fun ⟨hagree, hnext⟩ s hs c hc => ?_⟩
  · obtain ⟨hblock, hparent⟩ := habove s hs c (hchain.headerAt_iff.mpr ⟨hc, hnumber⟩)
    refine ⟨?_, ?_, fun hpos => ?_⟩
    · by_contra hne
      exact absurd (hblock (.inl hne)) (Nat.not_lt.mpr hle)
    · by_contra hne
      exact absurd (hblock (.inr hne)) (Nat.not_lt.mpr hle)
    · by_contra hne
      have := hparent ⟨hpos, hne⟩
      omega
  · obtain ⟨-, hparent⟩ := habove s hs c (hchain.headerAt_iff.mpr ⟨hc, hnumber⟩)
    by_contra hne
    have := hparent ⟨by omega, hne⟩
    omega
  · obtain ⟨hmem, hnumber⟩ := hchain.headerAt_iff.mp hc
    refine ⟨fun hne => ?_, fun ⟨hpos, hne⟩ => ?_⟩
    · by_contra hle
      obtain ⟨hhash, htime, -⟩ := hagree s hs (by omega) c hmem hnumber
      rcases hne with hne | hne
      · exact hne hhash
      · exact hne htime
    · by_contra hle
      by_cases hbelow : s.number ≤ h
      · exact hne ((hagree s hs hbelow c hmem hnumber).2.2 hpos)
      · exact hne (hnext s hs (by omega) c hmem hnumber)

/-- The answer is the greatest ancestor.  After a rollback to it nothing that is stored in the window diverges. -/
structure GreatestAncestor (history : ReorgHistorySnapshot) (canonicalBlocks : List SyncBlockHeader)
    (answer : Option ReorgAncestorProof) : Prop where
  proved : ∀ proof ∈ answer, proof.history = history ∧ proof.fork ∈ canonicalBlocks ∧
    Ancestor history canonicalBlocks proof.fork.number ∧
    ∀ h, Ancestor history canonicalBlocks h → h ≤ proof.fork.number
  none_iff : answer = none ↔ ∀ h, ¬ Ancestor history canonicalBlocks h
  cleaned : ∀ proof ∈ answer, ∀ db : Db,
    (captureReorgHistory db history.fromBlock history.toBlock).headers = history.headers →
    ∀ s ∈ (captureReorgHistory (deleteFromBlock (proof.fork.number + 1) db) history.fromBlock history.toBlock).headers,
    ∀ c ∈ canonicalBlocks, c.number = s.number →
      s.hash = c.hash ∧ s.timestamp = c.timestamp ∧ (0 < s.number → s.parentHash = c.parentHash)

theorem mem_captureReorgHistory_deleteFromBlock {db : Db} {fromBlock toBlock keep : Nat} {s : SyncBlockHeader}
    (h : s ∈ (captureReorgHistory (deleteFromBlock (keep + 1) db) fromBlock toBlock).headers) :
    s ∈ (captureReorgHistory db fromBlock toBlock).headers ∧ s.number ≤ keep := by
  simp only [captureReorgHistory, List.mem_insertionSort, List.mem_map, Table.mem_select, deleteFromBlock,
    Table.mem_deleteWhere] at h ⊢
  obtain ⟨row, ⟨⟨hrow, hkept⟩, hwindow⟩, rfl⟩ := h
  refine ⟨⟨row, ⟨hrow, hwindow⟩, rfl⟩, ?_⟩
  simpa [BlockRow.header, Nat.lt_succ_iff] using hkept

theorem selectFork_greatest (hchain : CanonicalChain history.fromBlock history.toBlock canonicalBlocks)
    (hrun : firstDivergence canonicalBlocks history.toBlock history.headers = .ok d) :
    GreatestAncestor history canonicalBlocks
      ((selectFork canonicalBlocks d none history.headers).map fun fork => ⟨fork, history⟩) := by
  have hselects := @selectFork_spec canonicalBlocks d none history.headers
  -- An ancestor is a header that the second loop can take.
  have hancestor : ∀ {h}, Ancestor history canonicalBlocks h ↔
      ∃ s ∈ history.headers, s.number = h ∧ ∃ c, headerAt canonicalBlocks s.number = some c ∧ Matches d s c := by
    intro h
    constructor
    · intro hanc
      obtain ⟨s, hs, rfl, hmem⟩ := hanc.stored
      exact ⟨s, hs, rfl, s, hchain.headerAt_iff.mpr ⟨hmem, rfl⟩,
        (lt_divergence_iff hchain hrun).mpr ⟨hanc.below, hanc.agree, hanc.next⟩, rfl, rfl, rfl⟩
    · rintro ⟨s, hs, rfl, c, hc, hbelow, hhash, hparent, htime⟩
      obtain ⟨hmem, hnumber⟩ := hchain.headerAt_iff.mp hc
      obtain ⟨hto, hagree, hnext⟩ := (lt_divergence_iff hchain hrun).mp hbelow
      have hsame : s = c := by
        cases s
        cases c
        simp_all
      exact ⟨⟨s, hs, rfl, hsame ▸ hmem⟩, hto, hagree, hnext⟩
  have hproved : ∀ fork ∈ selectFork canonicalBlocks d none history.headers, fork ∈ canonicalBlocks ∧
      Ancestor history canonicalBlocks fork.number ∧ ∀ h, Ancestor history canonicalBlocks h → h ≤ fork.number := by
    intro fork hfork
    rcases hselects.found fork hfork with hnone | ⟨s, hs, hc, hmatch⟩
    · cases hnone
    obtain ⟨hmem, hnumber⟩ := headerAt_some hc
    refine ⟨hmem, hancestor.mpr ⟨s, hs, hnumber.symm, fork, hc, hmatch⟩, fun h hanc => ?_⟩
    obtain ⟨t, ht, rfl, c, hc', hmatch'⟩ := hancestor.mp hanc
    obtain ⟨a, ha, hle⟩ := hselects.highest t ht c hc' hmatch'
    cases Option.mem_unique ha hfork
    exact hle
  refine ⟨fun proof hproof => ?_, ?_, fun proof hproof db hdb s hs => ?_⟩
  · obtain ⟨fork, hfork, rfl⟩ := Option.map_eq_some_iff.mp hproof
    exact ⟨rfl, hproved fork hfork⟩
  · rw [Option.map_eq_none_iff]
    constructor
    · intro hnone h hanc
      obtain ⟨s, hs, -, c, hc, hmatch⟩ := hancestor.mp hanc
      obtain ⟨a, ha, -⟩ := hselects.highest s hs c hc hmatch
      rw [hnone] at ha
      cases ha
    · intro hnot
      cases hfork : selectFork canonicalBlocks d none history.headers with
      | none => rfl
      | some fork => exact absurd (hproved fork hfork).2.1 (hnot fork.number)
  · obtain ⟨fork, hfork, rfl⟩ := Option.map_eq_some_iff.mp hproof
    obtain ⟨hmem, hle⟩ := mem_captureReorgHistory_deleteFromBlock hs
    exact (hproved fork hfork).2.1.agree s (hdb ▸ hmem) hle

/-- **The answer is the greatest ancestor of the window**, for every canonical chain over it. -/
theorem proveReorgAncestor_greatest (hchain : CanonicalChain history.fromBlock history.toBlock canonicalBlocks)
    (hwindow : ∀ s ∈ history.headers, history.fromBlock ≤ s.number ∧ s.number ≤ history.toBlock) :
    ∃ answer, proveReorgAncestor history canonicalBlocks = .ok answer ∧
      GreatestAncestor history canonicalBlocks answer := by
  have hstored : ∀ s ∈ history.headers, ∃ c, headerAt canonicalBlocks s.number = some c := fun s hs =>
    hchain.exists_header (hwindow s hs).1 (hwindow s hs).2
  obtain ⟨d, hrun⟩ := firstDivergence_returns hstored history.toBlock
  refine ⟨_, ?_, selectFork_greatest hchain hrun⟩
  have hlength := hchain.length
  have hcovers : canonicalBlocks.map (·.number) = List.range' history.fromBlock canonicalBlocks.length := by
    rw [hchain.covers]
    congr 1
    have := hchain.window
    omega
  rw [proveReorgAncestor, assertSyncBlockHeaders_accepts hchain]
  simp only [bind, Except.bind]
  rw [if_neg (by push Not; exact ⟨hlength, hcovers⟩), hrun]

end Answers

/-! ## 4. A parent hash at height 0 -/

/-- Block 0 is stored with another parent hash, and block 1 as it is. -/
def genesisHistory : ReorgHistorySnapshot := ⟨⟨0⟩, 0, 2, [⟨0, 10, 7, 100⟩, ⟨1, 11, 10, 101⟩]⟩

def genesisChain : List SyncBlockHeader := [⟨0, 10, 0, 100⟩, ⟨1, 11, 10, 101⟩, ⟨2, 12, 11, 102⟩]

/-- **A height that is answered although a header below it disagrees.** -/
theorem genesis_parent_passed_over :
    proveReorgAncestor genesisHistory genesisChain = .ok (some ⟨⟨1, 11, 10, 101⟩, genesisHistory⟩) ∧
      CanonicalChain 0 2 genesisChain ∧
      (∀ s ∈ genesisHistory.headers, genesisHistory.fromBlock ≤ s.number ∧ s.number ≤ genesisHistory.toBlock) ∧
      ∃ s ∈ genesisHistory.headers, s.number ≤ 1 ∧ ∃ c ∈ genesisChain, c.number = s.number ∧
        s.parentHash ≠ c.parentHash :=
  ⟨by decide +kernel, ⟨by decide, by decide, by decide, by decide⟩, by decide, by decide⟩

theorem proveReorgAncestor_greatest_sample :
    ∃ answer, proveReorgAncestor ⟨⟨0⟩, 0, 3, [⟨0, 10, 0, 100⟩, ⟨1, 21, 10, 101⟩, ⟨2, 12, 11, 102⟩]⟩
        [⟨0, 10, 0, 100⟩, ⟨1, 11, 10, 101⟩, ⟨2, 12, 11, 102⟩, ⟨3, 13, 12, 103⟩] = .ok answer ∧
      GreatestAncestor ⟨⟨0⟩, 0, 3, [⟨0, 10, 0, 100⟩, ⟨1, 21, 10, 101⟩, ⟨2, 12, 11, 102⟩]⟩
        [⟨0, 10, 0, 100⟩, ⟨1, 11, 10, 101⟩, ⟨2, 12, 11, 102⟩, ⟨3, 13, 12, 103⟩] answer :=
  proveReorgAncestor_greatest ⟨by decide, by decide, by decide, by decide⟩ (by decide)

end Artgod.Indexer
