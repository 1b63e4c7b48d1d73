/-
# Storing the facts of a sync result

The statements of `SqliteStorage` that write headers, coverage, transactions, transfers and
extension facts (`sqlite.ts`, `persistBlocks` to `persistCollectionExtensionEventMedia`).

Transactions, transfers and extension events are immutable: they are inserted once and a
duplicate key is ignored, which is one function, `insertFacts`, with the row each kind builds.
It returns what was really inserted; only these transfers are projected into balances.
-/
import Artgod.Indexer.Fills

namespace Artgod.Indexer

open Store

/-! ## 1. Headers -/

/-- `insertBlock`: a conflict rewrites the header and never the canonical-check columns. -/
def insertBlock (canonicalCheck : Option CanonicalCheckPolicy) (blocks : Table BlockRow.number)
    (block : SyncBlockHeader) : Table BlockRow.number :=
  blocks.upsert
    { number := block.number
      hash := block.hash
      parentHash := block.parentHash
      timestamp := block.timestamp
      canonicalCheckPending := canonicalCheck.any (needsDelayedCanonicalCheck block.number)
      canonicalCheckRetryAt := 0 }
    (fun stored =>
      { stored with
        hash := block.hash, parentHash := block.parentHash, timestamp := block.timestamp })
    (fun _ => rfl)

def persistBlocks (canonicalCheck : Option CanonicalCheckPolicy)
    (headers : List SyncBlockHeader) (blocks : Table BlockRow.number) : Table BlockRow.number :=
  headers.foldl (insertBlock canonicalCheck) blocks

variable {policy : Option CanonicalCheckPolicy} {n : Nat} {r : CoverageRow}

theorem get?_insertBlock {blocks : Table BlockRow.number}
    {b : SyncBlockHeader} :
    (insertBlock policy blocks b).get? n =
      if b.number = n then
        some
          { number := n
            hash := b.hash
            parentHash := b.parentHash
            timestamp := b.timestamp
            canonicalCheckPending :=
              (blocks.get? n).elim (policy.any (needsDelayedCanonicalCheck n))
                (·.canonicalCheckPending)
            canonicalCheckRetryAt := (blocks.get? n).elim 0 (·.canonicalCheckRetryAt) }
      else blocks.get? n := by
  rw [insertBlock, Table.get?_upsert]
  split
  · next hn =>
    change b.number = n at hn
    subst hn
    cases hg : blocks.get? b.number with
    | none => rfl
    | some old =>
      have hk : old.number = b.number := (Table.get?_eq_some.mp hg).2
      simp [hk]
  · rfl

theorem persistBlocks_check :
    ∀ (headers : List SyncBlockHeader) {blocks : Table BlockRow.number} {row : BlockRow},
      (persistBlocks policy headers blocks).get? n = some row →
      (row.canonicalCheckPending =
          (blocks.get? n).elim (policy.any (needsDelayedCanonicalCheck n))
            (·.canonicalCheckPending)) ∧
        row.canonicalCheckRetryAt = (blocks.get? n).elim 0 (·.canonicalCheckRetryAt)
  | [], blocks, row, h => by
    rw [show persistBlocks policy [] blocks = blocks from rfl] at h
    simp [h]
  | b :: rest, blocks, row, h => by
    obtain ⟨h₁, h₂⟩ := persistBlocks_check rest h
    rw [h₁, h₂, get?_insertBlock]
    split <;> simp

/-- The header of the row a list of headers leaves at height `n`: the stored one when the list
does not mention `n`, else one of the list's. -/
theorem persistBlocks_header :
    ∀ (headers : List SyncBlockHeader) {blocks : Table BlockRow.number} {row : BlockRow},
      (persistBlocks policy headers blocks).get? n = some row →
      (∃ b ∈ headers, b.number = n ∧ row.hash = b.hash) ∨
        ((∀ b ∈ headers, b.number ≠ n) ∧ blocks.get? n = some row)
  | [], blocks, row, h => Or.inr ⟨by simp, h⟩
  | b :: rest, blocks, row, h => by
    rcases persistBlocks_header rest h with ⟨c, hc, hn⟩ | ⟨hne, hget⟩
    · exact Or.inl ⟨c, by simp [hc], hn⟩
    rw [get?_insertBlock] at hget
    split at hget
    · next hb =>
      rw [Option.some.injEq] at hget
      exact Or.inl ⟨b, by simp, hb, by rw [← hget]⟩
    · next hb =>
      refine Or.inr ⟨?_, hget⟩
      intro c hc
      rcases List.mem_cons.mp hc with rfl | hc
      · exact hb
      · exact hne c hc

theorem persistBlocks_isSome :
    ∀ (headers : List SyncBlockHeader) {blocks : Table BlockRow.number},
      ((persistBlocks policy headers blocks).get? n).isSome = true ↔
        (blocks.get? n).isSome = true ∨ ∃ b ∈ headers, b.number = n
  | [], blocks => by simp [persistBlocks]
  | b :: rest, blocks => by
    rw [show persistBlocks policy (b :: rest) blocks =
      persistBlocks policy rest (insertBlock policy blocks b) from rfl,
      persistBlocks_isSome rest, get?_insertBlock]
    split
    · next hb => simp [hb]
    · next hb => simp [hb]

/-! ## 2. Coverage -/

/-- `persistCollectionSyncBlocks`: every block of the range, for every collection the job
targeted. -/
def persistCollectionSyncBlocks (headers : List SyncBlockHeader)
    (collections : List CollectionRecord) (coverage : Table (id : CoverageRow → CoverageRow)) :
    Table (id : CoverageRow → CoverageRow) :=
  collections.foldl (fun t collection =>
    headers.foldl (fun t block => t.insertOrIgnore ⟨collection.id, block.number⟩) t) coverage

theorem mem_coverage_insert {t : Table (id : CoverageRow → CoverageRow)} {s : CoverageRow} :
    r ∈ t.insertOrIgnore s ↔ r ∈ t ∨ r = s := by
  rw [Table.mem_insertOrIgnore]
  constructor
  · rintro (h | ⟨h, -⟩)
    · exact Or.inl h
    · exact Or.inr h
  · rintro (h | rfl)
    · exact Or.inl h
    cases hh : t.has (id r) with
    | true =>
      obtain ⟨s, hs, hsr⟩ := Table.has_iff.mp hh
      have heq : s = r := hsr
      exact Or.inl (heq ▸ hs)
    | false => exact Or.inr ⟨rfl, rfl⟩

theorem mem_coverage_blocks {c : CollectionId} :
    ∀ (headers : List SyncBlockHeader) {t : Table (id : CoverageRow → CoverageRow)},
      r ∈ headers.foldl (fun t block => t.insertOrIgnore ⟨c, block.number⟩) t ↔
        r ∈ t ∨ ∃ b ∈ headers, r = ⟨c, b.number⟩
  | [], t => by simp
  | b :: rest, t => by
    rw [List.foldl_cons, mem_coverage_blocks rest, mem_coverage_insert]
    simp only [List.mem_cons, exists_eq_or_imp]
    tauto

theorem mem_persistCollectionSyncBlocks {headers : List SyncBlockHeader} :
    ∀ (collections : List CollectionRecord) {t : Table (id : CoverageRow → CoverageRow)},
      r ∈ persistCollectionSyncBlocks headers collections t ↔
        r ∈ t ∨ ∃ c ∈ collections, ∃ b ∈ headers, r = ⟨c.id, b.number⟩
  | [], t => by simp [persistCollectionSyncBlocks]
  | c :: rest, t => by
    rw [show persistCollectionSyncBlocks headers (c :: rest) t =
      persistCollectionSyncBlocks headers rest
        (headers.foldl (fun t block => t.insertOrIgnore ⟨c.id, block.number⟩) t) from rfl,
      mem_persistCollectionSyncBlocks rest, mem_coverage_blocks, or_assoc]
    simp only [List.mem_cons, exists_eq_or_imp]

/-! ## 3. Immutable facts -/

section Facts

variable {α ρ κ : Type} [DecidableEq κ] {key : ρ → κ}

/-- One row for each fact whose key is not taken; the facts that were inserted are returned. -/
def insertFacts (headers : List SyncBlockHeader) (number : α → Nat) (row : α → Nat → ρ) :
    Table key → List α → Except SyncError (Table key × List α)
  | t, [] => .ok (t, [])
  | t, fact :: rest => do
    let blockTimestamp ← resolveBlockTimestamp headers (number fact)
    let out ← insertFacts headers number row (t.insertOrIgnore (row fact blockTimestamp)) rest
    return (out.1, if t.has (key (row fact blockTimestamp)) then out.2 else fact :: out.2)

variable {headers : List SyncBlockHeader} {number : α → Nat} {row : α → Nat → ρ}

theorem insertFacts_cons {t t' : Table key} {fact : α} {rest inserted : List α}
    (h : insertFacts headers number row t (fact :: rest) = .ok (t', inserted)) :
    ∃ ts inserted',
      insertFacts headers number row (t.insertOrIgnore (row fact ts)) rest = .ok (t', inserted') ∧
        inserted = if t.has (key (row fact ts)) then inserted' else fact :: inserted' := by
  simp only [insertFacts, bind, Except.bind] at h
  split at h
  · exact absurd h (by simp)
  next ts _ =>
  split at h
  · exact absurd h (by simp)
  · next out hout =>
    simp only [pure, Except.pure, Except.ok.injEq, Prod.mk.injEq] at h
    exact ⟨ts, out.2, by rw [hout, ← h.1], h.2.symm⟩

/-- **A fact table keeps its rows and gains only rows of the inserted facts.** -/
theorem insertFacts_mem :
    ∀ {facts : List α} {t t' : Table key} {inserted : List α},
      insertFacts headers number row t facts = .ok (t', inserted) →
      (∀ r ∈ t, r ∈ t') ∧ ∀ r ∈ t', r ∈ t ∨ ∃ a ∈ inserted, a ∈ facts ∧ ∃ ts, r = row a ts
  | [], t, t', inserted, h => by
    simp only [insertFacts, Except.ok.injEq, Prod.mk.injEq] at h
    obtain ⟨rfl, rfl⟩ := h
    exact ⟨fun r hr => hr, fun r hr => Or.inl hr⟩
  | fact :: rest, t, t', inserted, h => by
    obtain ⟨ts, inserted', hrest, hins⟩ := insertFacts_cons h
    obtain ⟨hkept, hnew⟩ := insertFacts_mem hrest
    refine ⟨fun r hr => hkept r (Table.mem_insertOrIgnore_of_mem hr), ?_⟩
    intro r hr
    rcases hnew r hr with hr | ⟨a, ha, haf, ts', rfl⟩
    · rcases Table.mem_insertOrIgnore.mp hr with hr | ⟨rfl, hfresh⟩
      · exact Or.inl hr
      · refine Or.inr ⟨fact, ?_, by simp, ts, rfl⟩
        rw [hins, hfresh]
        simp
    · refine Or.inr ⟨a, ?_, by simp [haf], ts', rfl⟩
      rw [hins]
      split
      · exact ha
      · simp [ha]

theorem insertFacts_rows :
    ∀ {facts : List α} {t t' : Table key} {inserted : List α},
      insertFacts headers number row t facts = .ok (t', inserted) →
      inserted.Sublist facts ∧ ∃ new, t'.rows = t.rows ++ new ∧
        List.Forall₂ (fun a r => ∃ ts, r = row a ts) inserted new
  | [], t, t', inserted, h => by
    simp only [insertFacts, Except.ok.injEq, Prod.mk.injEq] at h
    obtain ⟨rfl, rfl⟩ := h
    exact ⟨List.Sublist.refl _, [], by simp, .nil⟩
  | fact :: rest, t, t', inserted, h => by
    obtain ⟨ts, inserted', hrest, hins⟩ := insertFacts_cons h
    obtain ⟨hsub, new, hrows, hnew⟩ := insertFacts_rows hrest
    rw [hins]
    split
    · next htaken =>
      rw [Table.insertOrIgnore_of_has htaken] at hrows
      exact ⟨hsub.cons fact, new, hrows, hnew⟩
    · next hfresh =>
      rw [Table.rows_insertOrIgnore_of_not_has (by simpa using hfresh), List.append_assoc] at hrows
      exact ⟨hsub.cons_cons fact, _, hrows, .cons ⟨ts, rfl⟩ hnew⟩

theorem insertFacts_has (hkey : ∀ a ts ts', key (row a ts) = key (row a ts')) :
    ∀ {facts : List α} {t t' : Table key} {inserted : List α},
      insertFacts headers number row t facts = .ok (t', inserted) →
      ∀ a ∈ facts, ∀ ts, t'.has (key (row a ts)) = true
  | [], t, t', inserted, h, a, ha, ts => absurd ha (by simp)
  | fact :: rest, t, t', inserted, h, a, ha, ts => by
    obtain ⟨ts₀, inserted', hrest, -⟩ := insertFacts_cons h
    rcases List.mem_cons.mp ha with rfl | ha
    · have hhas : (t.insertOrIgnore (row a ts₀)).has (key (row a ts₀)) = true := by
        rw [Table.has, Table.get?_insertOrIgnore]
        cases t.get? (key (row a ts₀)) <;> simp
      obtain ⟨r, hr, hrkey⟩ := Table.has_iff.mp hhas
      rw [hkey a ts ts₀]
      exact Table.has_iff.mpr ⟨r, (insertFacts_mem hrest).1 r hr, hrkey⟩
    · exact insertFacts_has hkey hrest a ha ts

end Facts

section

variable (headers : List SyncBlockHeader)

def persistTransactions (transactions : List TransactionRecord) :
    StoreM Unit := do
  let db ← get
  let out ← Tx.check (insertFacts headers TransactionRecord.blockNumber TransactionRow.mk
    db.transactions transactions)
  set { db with transactions := out.1 }

/-- `persistTransfers`: the events whose row was inserted. -/
def persistTransfers (data : OnChainData) :
    StoreM (List NftTransferEvent) := do
  let db ← get
  let out ← Tx.check (insertFacts headers NftTransferEvent.blockNumber TransferRow.mk
    db.transfers data.nftTransferEvents)
  set { db with transfers := out.1 }
  return out.2

def persistCollectionExtensionEvents (data : OnChainData) :
    StoreM Unit := do
  let db ← get
  let out ← Tx.check (insertFacts headers CollectionExtensionEvent.blockNumber
    ExtensionEventRow.mk db.extensionEvents data.collectionExtensionEvents)
  set { db with extensionEvents := out.1 }

/-- `upsertCollectionExtensionEventMedia`: a conflict rewrites everything but the key. -/
def upsertEventMedia (t : Table EventMediaRow.key) (row : EventMediaRow) :
    Table EventMediaRow.key :=
  t.upsert row
    (fun stored =>
      { media :=
          { row.media with
            collectionId := stored.media.collectionId
            extensionKey := stored.media.extensionKey
            eventKey := stored.media.eventKey
            txHash := stored.media.txHash
            logIndex := stored.media.logIndex
            tokenId := stored.media.tokenId
            mediaRef := stored.media.mediaRef }
        blockTimestamp := row.blockTimestamp })
    (fun _ => rfl)

/-- The loop of `persistCollectionExtensionEventMedia`. -/
def upsertAllEventMedia (headers : List SyncBlockHeader) :
    Table EventMediaRow.key → List CollectionExtensionEventMedia →
      Except SyncError (Table EventMediaRow.key)
  | t, [] => .ok t
  | t, media :: rest => do
    let blockTimestamp ← resolveBlockTimestamp headers media.blockNumber
    upsertAllEventMedia headers (upsertEventMedia t ⟨media, blockTimestamp⟩) rest

def persistCollectionExtensionEventMedia (data : OnChainData) :
    StoreM Unit := do
  let db ← get
  let media ← Tx.check (upsertAllEventMedia headers db.eventMedia
    data.collectionExtensionEventMedia)
  set { db with eventMedia := media }

end

theorem upsertAllEventMedia_mem {headers : List SyncBlockHeader} :
    ∀ {media : List CollectionExtensionEventMedia} {t t' : Table EventMediaRow.key},
      upsertAllEventMedia headers t media = .ok t' →
      ∀ r ∈ t', r ∈ t ∨ ∃ m ∈ media, r.media.blockNumber = m.blockNumber ∧
        r.media.blockHash = m.blockHash
  | [], t, t', h => by
    simp only [upsertAllEventMedia, Except.ok.injEq] at h
    subst h
    exact fun r hr => Or.inl hr
  | m :: rest, t, t', h => by
    simp only [upsertAllEventMedia, bind, Except.bind] at h
    split at h
    · exact absurd h (by simp)
    next ts _ =>
    intro r hr
    rcases upsertAllEventMedia_mem h r hr with hr | ⟨m', hm', heq⟩
    · rcases Table.mem_upsert.mp hr with ⟨hr, -⟩ | rfl
      · exact Or.inl hr
      · refine Or.inr ⟨m, by simp, ?_⟩
        cases t.get? _ <;> exact ⟨rfl, rfl⟩
    · exact Or.inr ⟨m', by simp [hm'], heq⟩

end Artgod.Indexer
