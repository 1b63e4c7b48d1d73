/-
# Matching Seaport fills with the transfers of a transaction

`matchAndCanonicalizeTokenFills` (`indexer/src/application/fills/seaport.ts`) pairs the fill candidates of one
token in a transaction with its transfers.  The search `walk` keeps its picks in one list and the used transfers
in one set, changed and restored around every recursive call; its leaves are the partial transversals of the
options (`Search.transversals`), and it ends with a best one.
-/
import Artgod.Search.Transversals
import Artgod.Js.Grouping
import Artgod.Indexer.Erc1155
import Mathlib.Data.List.Sort

namespace Artgod.Indexer

open Search

/-! ## 1. Candidates and scores -/

/-- `SeaportFillCandidate`: decoding sets its amount; amounts and prices are decimal texts of bigints. -/
structure SeaportFillCandidate where
  orderId : Option OrderId
  kind : Option String
  orderSide : Option OrderSide
  maker : Option Address
  taker : Option Address
  contract : Address
  tokenId : TokenId
  amount : Nat
  price : Option Nat
  currency : Option Address
  execution : FillExecution
  executionItemIndex : Nat
  blockNumber : Nat
  blockHash : Hash
  txHash : Hash
  logIndex : Nat

/-- `EnhancedTransaction`: its hash, its sender and its decoded transfers. -/
structure EnhancedTransaction where
  txHash : Hash
  fromAddress : Address
  events : List EnhancedEvent

structure CandidateTransferMatch where
  fill : SeaportFillCandidate
  transfer : EnhancedEvent
  score : Int

/-- The key of `usedTransfers` and of `byTransfer`. -/
def CandidateTransferMatch.transferKey (m : CandidateTransferMatch) : Nat := m.transfer.logIndex

def isGrossBidCandidate (buy sell : SeaportFillCandidate) : Bool :=
  match buy.price, sell.price with
  | some buyPrice, some sellPrice => buyPrice > sellPrice
  | _, _ => false

def compareGrossBidCandidate (left right : SeaportFillCandidate) : Int :=
  if left.orderSide = right.orderSide then 0
  else if left.currency ≠ right.currency then 0
  else
    let buy := if left.orderSide = some .buy then left else right
    let sell := if left.orderSide = some .sell then left else right
    if isGrossBidCandidate buy sell = false then 0
    else if left.orderSide = some .buy then 1 else -1

def compareTransferMatchSets (left right : List CandidateTransferMatch) : Int :=
  left.foldl (fun score leftMatch =>
    match right.find? fun m => m.transferKey = leftMatch.transferKey with
    | none => score
    | some rightMatch => score + compareGrossBidCandidate leftMatch.fill rightMatch.fill) 0

/-- `scoreCandidateTransfer`: how well the maker's side of the order fits the transfer. -/
def scoreCandidateTransfer (tx : EnhancedTransaction) (fill : SeaportFillCandidate)
    (transfer : EnhancedEvent) : Option Int :=
  match fill.maker with
  | none => none
  | some maker =>
    let score : Option Int :=
      if fill.orderSide = some .sell ∧ transfer.fromAddress = maker then some 100
      else if fill.orderSide = some .buy ∧ transfer.toAddress = maker then some 100
      else if fill.orderSide = some .buy ∧ transfer.fromAddress = maker then some 90
      else none
    score.map fun score =>
      -- the direction of the transaction's sender selects the taker's side
      let score := if fill.orderSide = some .buy ∧ transfer.fromAddress = tx.fromAddress then score + 25
        else score
      let score := if fill.orderSide = some .sell ∧ transfer.toAddress = tx.fromAddress then score + 25
        else score
      if fill.orderSide = some .sell ∧ transfer.fromAddress = tx.fromAddress then score - 25 else score

def applyTransferTaker (tx : EnhancedTransaction) (fill : SeaportFillCandidate)
    (transfer : EnhancedEvent) : SeaportFillCandidate :=
  { fill with
    taker :=
      if fill.orderSide = some .sell then some transfer.toAddress
      else if some transfer.fromAddress = fill.maker then some tx.fromAddress
      else some transfer.fromAddress }

/-! ## 2. The search -/

/-- `options` of one candidate: its scored transfers, the best first. -/
def transferOptions (tx : EnhancedTransaction) (transfers : List EnhancedEvent)
    (fill : SeaportFillCandidate) : List CandidateTransferMatch :=
  (transfers.flatMap fun transfer =>
    match scoreCandidateTransfer tx fill transfer with
    | none => []
    | some score => [⟨fill, transfer, score⟩]).insertionSort fun a b => b.score ≤ a.score

/-- What `walk` changes: the arguments it shares with its recursive calls, and the best matching so far;
`none` is `Number.NEGATIVE_INFINITY`. -/
structure WalkState where
  usedTransfers : List Nat
  picked : List CandidateTransferMatch
  best : List CandidateTransferMatch
  bestScore : Option Int

namespace WalkState

/-- `usedTransfers.add` and `picked.push`. -/
def pick (s : WalkState) (option : CandidateTransferMatch) : WalkState :=
  { s with usedTransfers := s.usedTransfers ++ [option.transferKey], picked := s.picked ++ [option] }

/-- `picked.pop` and `usedTransfers.delete`. -/
def unpick (s : WalkState) (option : CandidateTransferMatch) : WalkState :=
  { s with
    usedTransfers := s.usedTransfers.filter fun key => key ≠ option.transferKey
    picked := s.picked.dropLast }

/-- The condition on which a complete `picked` replaces `best`. -/
def improves (s : WalkState) (score : Int) : Prop :=
  s.picked.length > s.best.length ∨ (s.picked.length = s.best.length ∧
      (s.bestScore.all (fun bestScore => score > bestScore) = true ∨
        (some score = s.bestScore ∧ compareTransferMatchSets s.picked s.best > 0)))

instance (s : WalkState) (score : Int) : Decidable (s.improves score) :=
  inferInstanceAs (Decidable (_ ∨ _))

/-- The end of a branch. -/
def complete (s : WalkState) (score : Int) : WalkState :=
  if s.improves score then { s with best := s.picked, bestScore := some score } else s

end WalkState

/-- `walk`, on the options of the candidates from `index` on. -/
def walk : List (List CandidateTransferMatch) → Int → WalkState → WalkState
  | [], score, s => s.complete score
  | options :: rest, score, s =>
    -- skipping a candidate lets matched-order mirror logs lose to the real transfer hop
    options.foldl (fun s option =>
      if option.transferKey ∈ s.usedTransfers then s
      else (walk rest (score + option.score) (s.pick option)).unpick option) (walk rest score s)

def chooseBestTransferMatches (tx : EnhancedTransaction) (fills : List SeaportFillCandidate)
    (transfers : List EnhancedEvent) : List CandidateTransferMatch :=
  (walk (fills.map (transferOptions tx transfers)) 0 ⟨[], [], [], none⟩).best.map fun m =>
    { m with fill := applyTransferTaker tx m.fill m.transfer }

/-! ## 3. Every undo is right -/

section Search

/-- The total score of a matching. -/
def totalScore (l : List CandidateTransferMatch) : Int := (l.map CandidateTransferMatch.score).sum

namespace WalkState

/-- A state with another best matching. -/
def withBest (s : WalkState) (b : List CandidateTransferMatch × Option Int) : WalkState :=
  { s with best := b.1, bestScore := b.2 }

/-- The best matching and its score. -/
def found (s : WalkState) : List CandidateTransferMatch × Option Int := (s.best, s.bestScore)

/-- The better of the best matching so far and a complete one. -/
def keepBetter (b : List CandidateTransferMatch × Option Int) (leaf : List CandidateTransferMatch × Int) :
    List CandidateTransferMatch × Option Int :=
  ((⟨[], leaf.1, b.1, b.2⟩ : WalkState).complete leaf.2).found

@[simp] theorem withBest_usedTransfers (s : WalkState) (b) : (s.withBest b).usedTransfers = s.usedTransfers := rfl
@[simp] theorem withBest_picked (s : WalkState) (b) : (s.withBest b).picked = s.picked := rfl
@[simp] theorem found_withBest (s : WalkState) (b) : (s.withBest b).found = b := rfl
@[simp] theorem withBest_found (s : WalkState) : s.withBest s.found = s := rfl
@[simp] theorem withBest_withBest (s : WalkState) (b b') : (s.withBest b).withBest b' = s.withBest b' := rfl
@[simp] theorem found_pick (s : WalkState) (o) : (s.pick o).found = s.found := rfl

theorem complete_eq (s : WalkState) (score : Int) :
    s.complete score = s.withBest (keepBetter s.found (s.picked, score)) := by
  let leaf : WalkState := ⟨[], s.picked, s.best, s.bestScore⟩
  have hleaf : keepBetter s.found (s.picked, score) = (leaf.complete score).found := rfl
  have himproves : leaf.improves score ↔ s.improves score := Iff.rfl
  rw [hleaf, complete, complete]
  by_cases h : s.improves score
  · rw [if_pos h, if_pos (himproves.mpr h)]
    rfl
  · rw [if_neg h, if_neg (fun h' => h (himproves.mp h'))]
    rfl

/-- **Popping and deleting restore what pushing and adding changed.** -/
theorem unpick_pick_withBest {s : WalkState} {option : CandidateTransferMatch}
    (hfree : option.transferKey ∉ s.usedTransfers) (b) :
    ((s.pick option).withBest b).unpick option = s.withBest b := by
  have hused : (s.usedTransfers ++ [option.transferKey]).filter (fun key => key ≠ option.transferKey) =
      s.usedTransfers := by
    rw [List.filter_append, List.filter_cons_of_neg (by simp), List.filter_nil, List.append_nil]
    exact List.filter_eq_self.mpr fun key hkey => decide_eq_true fun heq => hfree (heq ▸ hkey)
  unfold unpick pick withBest
  dsimp only
  rw [hused, List.dropLast_concat]

end WalkState

open WalkState

/-- The complete matching at the end of a branch, with its score. -/
def leafOf (picked : List CandidateTransferMatch) (score : Int) (l : List CandidateTransferMatch) :
    List CandidateTransferMatch × Int :=
  (picked ++ l, score + totalScore l)

/-- **`walk` changes the best matching only**, to the best of it and of its leaves: the partial transversals
of the remaining options that use no used transfer. -/
theorem walk_eq : ∀ (options : List (List CandidateTransferMatch)) (score : Int) (s : WalkState),
    walk options score s =
      s.withBest (((transversals CandidateTransferMatch.transferKey options s.usedTransfers).map
        (leafOf s.picked score)).foldl keepBetter s.found) := by
  intro options
  induction options with
  | nil =>
    intro score s
    have hleaf : leafOf s.picked score [] = (s.picked, score) := by
      rw [leafOf, List.append_nil]
      exact congrArg _ (Int.add_zero score)
    rw [walk, transversals, List.map_singleton, List.foldl_cons, List.foldl_nil, hleaf]
    exact complete_eq s score
  | cons row rest ih =>
    intro score s
    -- the loop over the options of one candidate, from any best matching
    have hrow : ∀ (row : List CandidateTransferMatch) (b : List CandidateTransferMatch × Option Int),
        row.foldl (fun s option =>
          if option.transferKey ∈ s.usedTransfers then s
          else (walk rest (score + option.score) (s.pick option)).unpick option) (s.withBest b) =
        s.withBest (((row.flatMap fun o =>
          if o.transferKey ∈ s.usedTransfers then []
          else (transversals CandidateTransferMatch.transferKey rest
            (s.usedTransfers ++ [o.transferKey])).map (o :: ·)).map (leafOf s.picked score)).foldl
              keepBetter b) := by
      intro row
      induction row with
      | nil => exact fun b => rfl
      | cons o row ihrow =>
        intro b
        rw [List.foldl_cons, List.flatMap_cons, List.map_append, List.foldl_append, withBest_usedTransfers]
        by_cases hused : o.transferKey ∈ s.usedTransfers
        · rw [if_pos hused, if_pos hused, ihrow b]
          rfl
        rw [if_neg hused, if_neg hused, ih]
        have hpick : (s.withBest b).pick o = (s.pick o).withBest b := rfl
        have hleaf : ∀ l : List CandidateTransferMatch,
            leafOf (s.pick o).picked (score + o.score) l = leafOf s.picked score (o :: l) := by
          intro l
          have htotal : totalScore (o :: l) = o.score + totalScore l := List.sum_cons
          have hpicked : (s.pick o).picked ++ l = s.picked ++ o :: l := List.append_assoc _ _ _
          rw [leafOf, leafOf, htotal, hpicked, Int.add_assoc]
        rw [hpick, withBest_usedTransfers, withBest_picked, found_withBest, withBest_withBest,
          unpick_pick_withBest hused, ihrow, List.map_map]
        refine congrArg (fun leaves => s.withBest (List.foldl keepBetter
          (List.foldl keepBetter b leaves) _)) (List.map_congr_left fun l _ => hleaf l)
    rw [walk, ih, hrow, transversals, List.map_append, List.foldl_append]

/-! ## 4. The search ends with a best matching -/

/-- A best score, as a number or minus infinity. -/
def scoreRank : Option Int → WithBot Int
  | none => ⊥
  | some score => score

/-- The length of a matching found, then its score. -/
def foundRank (b : List CandidateTransferMatch × Option Int) : Nat ×ₗ WithBot Int :=
  toLex (b.1.length, scoreRank b.2)

/-- A complete matching and its score. -/
def leafFound (leaf : List CandidateTransferMatch × Int) : List CandidateTransferMatch × Option Int :=
  (leaf.1, some leaf.2)

theorem beats_iff {score : Int} {bestScore : Option Int} :
    bestScore.all (fun b => score > b) = true ↔ scoreRank bestScore < scoreRank (some score) := by
  cases bestScore with
  | none => exact ⟨fun _ => WithBot.bot_lt_coe score, fun _ => rfl⟩
  | some b => exact decide_eq_true_iff.trans WithBot.coe_lt_coe.symm

theorem keepBetter_spec (b : List CandidateTransferMatch × Option Int)
    (leaf : List CandidateTransferMatch × Int) :
    (keepBetter b leaf = b ∨ keepBetter b leaf = leafFound leaf) ∧
      foundRank b ≤ foundRank (keepBetter b leaf) ∧
        foundRank (leafFound leaf) ≤ foundRank (keepBetter b leaf) := by
  let s : WalkState := ⟨[], leaf.1, b.1, b.2⟩
  have hkeep : keepBetter b leaf = (s.complete leaf.2).found := rfl
  rw [hkeep, complete]
  by_cases h : s.improves leaf.2
  · rw [if_pos h]
    refine ⟨Or.inr rfl, Prod.Lex.toLex_le_toLex.mpr ?_, le_refl _⟩
    rcases h with hlonger | ⟨hlength, hscore | ⟨hscore, -⟩⟩
    · exact Or.inl hlonger
    · exact Or.inr ⟨hlength.symm, le_of_lt (beats_iff.mp hscore)⟩
    · exact Or.inr ⟨hlength.symm, le_of_eq (congrArg scoreRank hscore.symm)⟩
  · rw [if_neg h]
    refine ⟨Or.inl rfl, le_refl _, Prod.Lex.toLex_le_toLex.mpr ?_⟩
    have hshort : leaf.1.length ≤ b.1.length := Nat.le_of_not_lt fun hlt => h (Or.inl hlt)
    rcases Nat.lt_or_eq_of_le hshort with hlt | heq
    · exact Or.inl hlt
    · refine Or.inr ⟨heq, le_of_not_gt fun hlt => h (Or.inr ⟨heq, Or.inl (beats_iff.mpr hlt)⟩)⟩

/-- **The search ends with a partial transversal of the options than which none ranks higher.** -/
theorem walk_best (options : List (List CandidateTransferMatch)) :
    ∃ l ∈ transversals CandidateTransferMatch.transferKey options [],
      (walk options 0 ⟨[], [], [], none⟩).best = l ∧
        ∀ l' ∈ transversals CandidateTransferMatch.transferKey options [],
          rank CandidateTransferMatch.score l' ≤ rank CandidateTransferMatch.score l := by
  let leaves := (transversals CandidateTransferMatch.transferKey options []).map (leafOf [] 0)
  have hwalk : (walk options 0 ⟨[], [], [], none⟩).found = leaves.foldl keepBetter ([], none) := by
    rw [walk_eq]
    rfl
  obtain ⟨hfrom, -, hbest⟩ := foldl_keep_best keepBetter_spec leaves ([], none)
  rw [← hwalk] at hfrom hbest
  have hmem : ∀ l' ∈ transversals CandidateTransferMatch.transferKey options [],
      leafOf [] 0 l' ∈ leaves := fun l' hl' => List.mem_map.mpr ⟨l', hl', rfl⟩
  rcases hfrom with hnone | ⟨leaf, hleaf, hfound⟩
  · -- some branch was completed, and any score is above `none`
    obtain ⟨l', hl', -⟩ := mem_transversals_of_picks
      (IsTransversal.nil : IsTransversal CandidateTransferMatch.transferKey options [] [])
    have hrank := Prod.Lex.toLex_le_toLex.mp (hnone ▸ hbest _ (hmem l' hl'))
    rcases hrank with hlt | ⟨-, hle⟩
    · exact absurd hlt (Nat.not_lt_zero _)
    · exact absurd hle (not_le_of_gt (WithBot.bot_lt_coe _))
  · obtain ⟨l, hl, rfl⟩ := List.mem_map.mp hleaf
    refine ⟨l, hl, congrArg Prod.fst hfound, fun l' hl' => rank_le_iff.mpr ?_⟩
    have hrank := Prod.Lex.toLex_le_toLex.mp (hfound ▸ hbest _ (hmem l' hl'))
    refine hrank.imp id (And.imp_right fun hle => ?_)
    have hscore : 0 + totalScore l' ≤ 0 + totalScore l := WithBot.coe_le_coe.mp hle
    rwa [Int.zero_add, Int.zero_add] at hscore

end Search

/-- Pairs of a candidate, named by its place, and a transfer: each scored, no candidate and no transfer log
twice. -/
structure TransferMatching (tx : EnhancedTransaction) (fills : List SeaportFillCandidate)
    (transfers : List EnhancedEvent) where
  pairs : List (Nat × CandidateTransferMatch)
  candidate : ∀ p ∈ pairs, fills[p.1]? = some p.2.fill
  transfer : ∀ p ∈ pairs, p.2.transfer ∈ transfers
  scored : ∀ p ∈ pairs, scoreCandidateTransfer tx p.2.fill p.2.transfer = some p.2.score
  candidates_once : (pairs.map Prod.fst).Nodup
  logs_once : (pairs.map fun p => p.2.transfer.logIndex).Nodup

namespace TransferMatching

variable {tx : EnhancedTransaction} {fills : List SeaportFillCandidate} {transfers : List EnhancedEvent}

variable (m : TransferMatching tx fills transfers)

def size : Nat := m.pairs.length

def total : Int := (m.pairs.map fun p => p.2.score).sum

/-- The pairs with the taker that the transfer shows. -/
def taken : List CandidateTransferMatch :=
  m.pairs.map fun p => { p.2 with fill := applyTransferTaker tx p.2.fill p.2.transfer }

end TransferMatching

theorem mem_transferOptions {tx : EnhancedTransaction} {transfers : List EnhancedEvent}
    {fill : SeaportFillCandidate} {o : CandidateTransferMatch} :
    o ∈ transferOptions tx transfers fill ↔ o.fill = fill ∧ o.transfer ∈ transfers ∧
      scoreCandidateTransfer tx o.fill o.transfer = some o.score := by
  rw [transferOptions, List.mem_insertionSort, List.mem_flatMap]
  constructor
  · rintro ⟨transfer, hmem, ho⟩
    cases hscore : scoreCandidateTransfer tx fill transfer with
    | none =>
      rw [hscore] at ho
      cases ho
    | some score =>
      rw [hscore] at ho
      cases List.mem_singleton.mp ho
      exact ⟨rfl, hmem, hscore⟩
  · rintro ⟨rfl, hmem, hscore⟩
    exact ⟨o.transfer, hmem, by rw [hscore]; exact List.mem_singleton.mpr rfl⟩

section Matching

variable {tx : EnhancedTransaction} {fills : List SeaportFillCandidate} {transfers : List EnhancedEvent}

theorem mem_row_iff {p : Nat × CandidateTransferMatch} :
    (∃ row, (fills.map (transferOptions tx transfers))[p.1]? = some row ∧ p.2 ∈ row) ↔
      fills[p.1]? = some p.2.fill ∧ p.2.transfer ∈ transfers ∧
        scoreCandidateTransfer tx p.2.fill p.2.transfer = some p.2.score := by
  constructor
  · rintro ⟨row, hrow, hmem⟩
    rw [List.getElem?_map] at hrow
    obtain ⟨fill, hfill, rfl⟩ := Option.map_eq_some_iff.mp hrow
    obtain ⟨rfl, hscored⟩ := mem_transferOptions.mp hmem
    exact ⟨hfill, hscored⟩
  · rintro ⟨hfill, hmem⟩
    exact ⟨_, by rw [List.getElem?_map, hfill]; rfl, mem_transferOptions.mpr ⟨rfl, hmem⟩⟩

theorem TransferMatching.isTransversal (m : TransferMatching tx fills transfers) :
    IsTransversal CandidateTransferMatch.transferKey (fills.map (transferOptions tx transfers)) [] m.pairs where
  mem_row p hp := mem_row_iff.mpr ⟨m.candidate p hp, m.transfer p hp, m.scored p hp⟩
  rows_once := m.candidates_once
  keys_once := m.logs_once
  keys_free _ _ := List.not_mem_nil

/-- The matching of the picks of a partial transversal of the options. -/
def matchingOf {picks : List (Nat × CandidateTransferMatch)}
    (h : IsTransversal CandidateTransferMatch.transferKey (fills.map (transferOptions tx transfers)) [] picks) :
    TransferMatching tx fills transfers where
  pairs := picks
  candidate p hp := (mem_row_iff.mp (h.mem_row p hp)).1
  transfer p hp := (mem_row_iff.mp (h.mem_row p hp)).2.1
  scored p hp := (mem_row_iff.mp (h.mem_row p hp)).2.2
  candidates_once := h.rows_once
  logs_once := h.keys_once

theorem TransferMatching.rank_eq (m : TransferMatching tx fills transfers) :
    rank CandidateTransferMatch.score (m.pairs.map Prod.snd) = toLex (m.size, m.total) := by
  rw [rank, List.length_map, List.map_map]
  rfl

/-- `best` has the most pairs of all matchings, and the greatest total score among those of its size. -/
def TransferMatching.IsBest (best : TransferMatching tx fills transfers) : Prop :=
  ∀ other : TransferMatching tx fills transfers,
    other.size ≤ best.size ∧ (other.size = best.size → other.total ≤ best.total)

theorem chooseBestTransferMatches_best (tx : EnhancedTransaction) (fills : List SeaportFillCandidate)
    (transfers : List EnhancedEvent) :
    ∃ best : TransferMatching tx fills transfers,
      chooseBestTransferMatches tx fills transfers = best.taken ∧ best.IsBest := by
  obtain ⟨l, hl, hwalk, hbest⟩ := walk_best (fills.map (transferOptions tx transfers))
  obtain ⟨picks, hpicks, rfl⟩ := picks_of_mem_transversals hl
  refine ⟨matchingOf hpicks, ?_, fun other => ?_⟩
  · rw [chooseBestTransferMatches, hwalk, List.map_map]
    rfl
  obtain ⟨l', hl', hperm⟩ := mem_transversals_of_picks other.isTransversal
  have hrank := hbest l' hl'
  have hpicked : rank CandidateTransferMatch.score (picks.map Prod.snd) = _ := (matchingOf hpicks).rank_eq
  rw [rank_perm hperm, other.rank_eq, hpicked] at hrank
  rcases Prod.Lex.toLex_le_toLex.mp hrank with hlt | ⟨heq, hle⟩
  · exact ⟨Nat.le_of_lt hlt, fun h => absurd h (Nat.ne_of_lt hlt)⟩
  · exact ⟨Nat.le_of_eq heq, fun _ => hle⟩

end Matching

/-! ## 5. The canonical fills of a token -/

/-- The key of `byExecution`: one log, on one side. -/
def SeaportFillCandidate.executionKey (fill : SeaportFillCandidate) : Nat × Option OrderSide :=
  (fill.logIndex, fill.orderSide)

def getMatchingTransfers (events : List EnhancedEvent) (nft : SeaportFillCandidate) : List EnhancedEvent :=
  events.filter fun event => event.contract = nft.contract ∧ event.tokenId = nft.tokenId

/-- One candidate for the items of an execution: the first, with the amount of all. -/
def executionCandidate : List SeaportFillCandidate → Option SeaportFillCandidate
  | [] => none
  | first :: rest => some { first with amount := ((first :: rest).map (·.amount)).sum }

inductive TransferDirection where
  | «from»
  | to

section

variable (tx : EnhancedTransaction)

def resolveTxFromTransferDirection (m : CandidateTransferMatch) : Option TransferDirection :=
  if m.transfer.fromAddress = tx.fromAddress then some .from
  else if m.transfer.toAddress = tx.fromAddress then some .to
  else none

def TransferDirection.expectedSide : TransferDirection → OrderSide
  | .from => .buy
  | .to => .sell

def resolveGrossBidTieBreak (group : List SeaportFillCandidate) : Option SeaportFillCandidate :=
  match group.filter (·.orderSide = some .buy), group.filter (·.orderSide = some .sell) with
  | [buy], [sell] => if buy.currency = sell.currency ∧ isGrossBidCandidate buy sell = true then some buy else none
  | _, _ => none

/-- The fill that the direction of the transaction's sender selects. -/
def fillOfDirection (ms : List CandidateTransferMatch) : Option SeaportFillCandidate := do
  let direction ← resolveTxFromTransferDirection tx (← ms.head?)
  match (ms.map (·.fill)).filter (·.orderSide = some direction.expectedSide) with
  | [fill] => some fill
  | _ => none

def chooseCanonicalTransferFills (ms : List CandidateTransferMatch) : List SeaportFillCandidate :=
  let group := ms.map (·.fill)
  let hasBuy : Bool := group.any (·.orderSide = some .buy)
  let hasSell : Bool := group.any (·.orderSide = some .sell)
  if group.length ≤ 1 ∨ hasBuy = false ∨ hasSell = false then group
  else
    match fillOfDirection tx ms with
    | some fill => [fill]
    | none => (resolveGrossBidTieBreak group).toList

/-- The transfers of the token of a candidate, in log order. -/
def tokenTransfers (first : SeaportFillCandidate) : List EnhancedEvent :=
  (getMatchingTransfers tx.events first).insertionSort fun a b => a.logIndex ≤ b.logIndex

/-- The candidates of a token, one for each execution. -/
def executionCandidates (group : List SeaportFillCandidate) : List SeaportFillCandidate :=
  (Js.OrderedMap.group SeaportFillCandidate.executionKey group).values.filterMap executionCandidate

def matchAndCanonicalizeTokenFills (group : List SeaportFillCandidate) : List SeaportFillCandidate :=
  match group with
  | [] => []
  | first :: _ =>
    let byExecution := Js.OrderedMap.group SeaportFillCandidate.executionKey group
    let best := chooseBestTransferMatches tx (executionCandidates group) (tokenTransfers tx first)
    if best = [] then []
    else
      let byTransfer := Js.OrderedMap.group CandidateTransferMatch.transferKey best
      byTransfer.values.flatMap fun transferMatches =>
        (chooseCanonicalTransferFills tx transferMatches).flatMap fun canonical =>
          ((byExecution.get canonical.executionKey).getD []).map fun item =>
            { item with taker := canonical.taker }

end

/-- The fills of the execution of a match, with the taker of the match. -/
def attributedFills (group : List SeaportFillCandidate) (m : CandidateTransferMatch) :
    List SeaportFillCandidate :=
  (Js.OrderedMap.groupOf SeaportFillCandidate.executionKey group m.fill.executionKey).map fun item =>
    { item with taker := m.fill.taker }

theorem map_filterMap_of_forall {α β γ : Type} {f : α → Option β} {g : β → γ} {h : α → γ} :
    ∀ {l : List α}, (∀ a ∈ l, ∃ b, f a = some b ∧ g b = h a) → (l.filterMap f).map g = l.map h := by
  intro l
  induction l with
  | nil => exact fun _ => rfl
  | cons a rest ih =>
    intro hall
    obtain ⟨⟨b, hb, hg⟩, hrest⟩ := List.forall_mem_cons.mp hall
    rw [List.filterMap_cons_some hb, List.map_cons, List.map_cons, hg, ih hrest]

theorem executionCandidate_of_mem {group : List SeaportFillCandidate} {e : (Nat × Option OrderSide) × _}
    (he : e ∈ (Js.OrderedMap.group SeaportFillCandidate.executionKey group).entries) :
    ∃ first rest, e.2 = first :: rest ∧ first ∈ group ∧ first.executionKey = e.1 ∧
      executionCandidate e.2 = some { first with amount := ((first :: rest).map (·.amount)).sum } := by
  obtain ⟨hne, hgroup⟩ := Js.OrderedMap.mem_entries_group.mp (show (e.1, e.2) ∈ _ from he)
  obtain ⟨first, rest, hfirst⟩ := List.exists_cons_of_ne_nil hne
  have hmem := Js.OrderedMap.mem_groupOf.mp (hgroup ▸ hfirst ▸ List.mem_cons_self : first ∈ _)
  exact ⟨first, rest, hfirst, hmem.1, hmem.2, by rw [hfirst]; rfl⟩

theorem executionCandidates_nodup (group : List SeaportFillCandidate) :
    ((executionCandidates group).map SeaportFillCandidate.executionKey).Nodup := by
  have hkeys : (executionCandidates group).map SeaportFillCandidate.executionKey =
      (Js.OrderedMap.group SeaportFillCandidate.executionKey group).entries.map Prod.fst := by
    rw [executionCandidates, Js.OrderedMap.values, List.filterMap_map]
    refine map_filterMap_of_forall fun e he => ?_
    obtain ⟨first, rest, -, -, hkey, hcandidate⟩ := executionCandidate_of_mem he
    exact ⟨_, hcandidate, hkey⟩
  rw [hkeys]
  exact Js.OrderedMap.keys_group_nodup

section Canonical

variable {tx : EnhancedTransaction} {group : List SeaportFillCandidate} {transfers : List EnhancedEvent}

variable {log : Nat} {fills rest : List SeaportFillCandidate} {fill first : SeaportFillCandidate}
  {t : EnhancedEvent}

theorem TransferMatching.taken_logs_nodup (m : TransferMatching tx fills transfers) :
    (m.taken.map CandidateTransferMatch.transferKey).Nodup := by
  rw [TransferMatching.taken, List.map_map]
  exact m.logs_once

theorem TransferMatching.taken_executions_nodup
    (m : TransferMatching tx (executionCandidates group) transfers) :
    (m.taken.map fun t => t.fill.executionKey).Nodup := by
  have hplace : ∀ p ∈ m.pairs, ((executionCandidates group).map SeaportFillCandidate.executionKey)[p.1]? =
      some p.2.fill.executionKey := by
    intro p hp
    rw [List.getElem?_map, m.candidate p hp]
    rfl
  rw [TransferMatching.taken, List.map_map]
  refine (List.nodup_map_iff_inj_on (List.Nodup.of_map Prod.fst m.candidates_once)).mpr
    fun p hp q hq hkey => ?_
  have hsame := (hplace p hp).trans ((congrArg some hkey).trans (hplace q hq).symm)
  have hlt := (List.getElem?_eq_some_iff.mp (hplace p hp)).1
  exact List.inj_on_of_nodup_map m.candidates_once hp hq
    ((List.getElem?_inj hlt (executionCandidates_nodup group)).mp hsame)

/-- **A transfer log has one match**, so that nothing is left to choose for it. -/
theorem canonical_of_nodup {ms : List CandidateTransferMatch}
    (h : (ms.map CandidateTransferMatch.transferKey).Nodup) :
    ((Js.OrderedMap.group CandidateTransferMatch.transferKey ms).values.flatMap fun transferMatches =>
      (chooseCanonicalTransferFills tx transferMatches).flatMap fun canonical =>
        (((Js.OrderedMap.group SeaportFillCandidate.executionKey group).get canonical.executionKey).getD
          []).map fun item => { item with taker := canonical.taker }) = ms.flatMap (attributedFills group) := by
  rw [Js.OrderedMap.values_group_of_nodup h, List.flatMap_map]
  refine List.flatMap_congr fun m _ => ?_
  have hone : chooseCanonicalTransferFills tx [m] = [m.fill] := by
    rw [chooseCanonicalTransferFills]
    exact if_pos (Or.inl (Nat.le_refl 1))
  rw [hone, List.flatMap_singleton, Js.OrderedMap.get_group, attributedFills]
  by_cases hnil : Js.OrderedMap.groupOf SeaportFillCandidate.executionKey group m.fill.executionKey = []
  · rw [if_pos hnil, hnil]
    rfl
  · rw [if_neg hnil]
    rfl

theorem matchAndCanonicalizeTokenFills_eq
    {best : TransferMatching tx (executionCandidates (first :: rest)) (tokenTransfers tx first)}
    (h : chooseBestTransferMatches tx (executionCandidates (first :: rest)) (tokenTransfers tx first) =
      best.taken) :
    matchAndCanonicalizeTokenFills tx (first :: rest) =
      best.taken.flatMap (attributedFills (first :: rest)) := by
  rw [matchAndCanonicalizeTokenFills]
  dsimp only
  rw [h]
  by_cases hnil : best.taken = []
  · rw [if_pos hnil, hnil]
    rfl
  · rw [if_neg hnil]
    exact canonical_of_nodup best.taken_logs_nodup

/-! ## 6. One transfer behind several orders -/

/-- The fills of a list are all of one token. -/
def OneToken (group : List SeaportFillCandidate) : Prop :=
  ∀ a ∈ group, ∀ b ∈ group, a.contract = b.contract ∧ a.tokenId = b.tokenId

instance (group : List SeaportFillCandidate) : Decidable (OneToken group) :=
  inferInstanceAs (Decidable (∀ a ∈ group, ∀ b ∈ group, _ ∧ _))

/-- One pair is a matching. -/
def TransferMatching.single {fills : List SeaportFillCandidate} {i : Nat} {m : CandidateTransferMatch}
    (hfill : fills[i]? = some m.fill) (htransfer : m.transfer ∈ transfers)
    (hscore : scoreCandidateTransfer tx m.fill m.transfer = some m.score) :
    TransferMatching tx fills transfers where
  pairs := [(i, m)]
  candidate := List.forall_mem_singleton.mpr hfill
  transfer := List.forall_mem_singleton.mpr htransfer
  scored := List.forall_mem_singleton.mpr hscore
  candidates_once := List.nodup_singleton i
  logs_once := List.nodup_singleton m.transfer.logIndex

/-- **Transfers of one log are matched once**, when a candidate has a score for one of them. -/
theorem TransferMatching.pairs_of_one_log {best : TransferMatching tx fills transfers} (hbest : best.IsBest)
    (hlog : ∀ t ∈ transfers, t.logIndex = log)
    (hfill : fill ∈ fills) (ht : t ∈ transfers) (hscore : (scoreCandidateTransfer tx fill t).isSome) :
    ∃ p, best.pairs = [p] := by
  obtain ⟨i, hi⟩ := List.mem_iff_getElem?.mp hfill
  obtain ⟨score, hscore⟩ := Option.isSome_iff_exists.mp hscore
  let one : TransferMatching tx fills transfers :=
    TransferMatching.single (m := ⟨fill, t, score⟩) hi ht hscore
  have hatLeast : 1 ≤ best.pairs.length := (hbest one).1
  have hlogs : best.pairs.map (fun p => p.2.transfer.logIndex) = List.replicate best.pairs.length log := by
    refine List.eq_replicate_iff.mpr ⟨List.length_map _, fun n hn => ?_⟩
    obtain ⟨p, hp, rfl⟩ := List.mem_map.mp hn
    exact hlog _ (best.transfer p hp)
  have hatMost : best.pairs.length ≤ 1 := List.nodup_replicate.mp (hlogs ▸ best.logs_once)
  exact List.length_eq_one_iff.mp (Nat.le_antisymm hatMost hatLeast)

/-- A candidate with a transfer, as the search returns them. -/
def takenMatch (tx : EnhancedTransaction) (m : CandidateTransferMatch) : CandidateTransferMatch :=
  { m with fill := applyTransferTaker tx m.fill m.transfer }

/-- **Orders of one token behind one transfer log leave the fills of one execution.** -/
theorem canonical_of_one_log
    (hlog : ∀ t ∈ getMatchingTransfers tx.events first, t.logIndex = log) {c : SeaportFillCandidate}
    (hc : c ∈ executionCandidates (first :: rest))
    (ht : t ∈ getMatchingTransfers tx.events first) (hscore : (scoreCandidateTransfer tx c t).isSome) :
    ∃ m : CandidateTransferMatch, m.fill ∈ executionCandidates (first :: rest) ∧
      m.transfer ∈ getMatchingTransfers tx.events first ∧
      matchAndCanonicalizeTokenFills tx (first :: rest) = attributedFills (first :: rest) (takenMatch tx m) := by
  obtain ⟨best, hchosen, hbest⟩ :=
    chooseBestTransferMatches_best tx (executionCandidates (first :: rest)) (tokenTransfers tx first)
  have hsorted : ∀ t, t ∈ tokenTransfers tx first ↔ t ∈ getMatchingTransfers tx.events first :=
    fun t => List.mem_insertionSort _
  obtain ⟨p, hp⟩ := TransferMatching.pairs_of_one_log hbest (fun t ht => hlog t ((hsorted t).mp ht)) hc
    ((hsorted t).mpr ht) hscore
  have hmem : p ∈ best.pairs := hp ▸ List.mem_singleton.mpr rfl
  refine ⟨p.2, List.mem_of_getElem? (best.candidate p hmem), (hsorted _).mp (best.transfer p hmem), ?_⟩
  rw [matchAndCanonicalizeTokenFills_eq hchosen, TransferMatching.taken, hp, List.map_singleton,
    List.flatMap_singleton, takenMatch]

theorem executionCandidates_of_nodup (h : (group.map SeaportFillCandidate.executionKey).Nodup) :
    executionCandidates group = group := by
  rw [executionCandidates, Js.OrderedMap.values_group_of_nodup h, List.filterMap_map]
  exact (List.filterMap_congr fun fill _ => rfl).trans List.filterMap_some

theorem attributedFills_of_nodup {m : CandidateTransferMatch}
    (h : (group.map SeaportFillCandidate.executionKey).Nodup) (hfill : fill ∈ group)
    (hkey : m.fill.executionKey = fill.executionKey) :
    attributedFills group m = [{ fill with taker := m.fill.taker }] := by
  have hentry : (fill.executionKey, [fill]) ∈
      (Js.OrderedMap.group SeaportFillCandidate.executionKey group).entries := by
    rw [Js.OrderedMap.entries_group_of_nodup h]
    exact List.mem_map.mpr ⟨fill, hfill, rfl⟩
  rw [attributedFills, hkey, (Js.OrderedMap.mem_entries_group.mp hentry).2, List.map_singleton]

/-- **A buy and a sell of one token behind one transfer log leave one fill.** -/
theorem canonical_of_matched_pair {buy sell : SeaportFillCandidate} (hbuy : buy.orderSide = some .buy)
    (hsell : sell.orderSide = some .sell) (hgroup : group.Perm [buy, sell]) (htoken : OneToken group)
    (hlog : ∀ t ∈ getMatchingTransfers tx.events buy, t.logIndex = log)
    (hscore : ∃ t ∈ getMatchingTransfers tx.events buy,
      (scoreCandidateTransfer tx buy t).isSome ∨ (scoreCandidateTransfer tx sell t).isSome) :
    ∃ fill ∈ group, ∃ t ∈ getMatchingTransfers tx.events buy,
      matchAndCanonicalizeTokenFills tx group = [applyTransferTaker tx fill t] := by
  have hsides : buy.executionKey ≠ sell.executionKey := by
    intro h
    have hside : buy.orderSide = sell.orderSide := congrArg Prod.snd h
    rw [hbuy, hsell] at hside
    cases hside
  have hnodup : (group.map SeaportFillCandidate.executionKey).Nodup := by
    refine (hgroup.map _).nodup_iff.mpr (List.nodup_cons.mpr ⟨?_, List.nodup_singleton _⟩)
    exact fun h => hsides (List.mem_singleton.mp h)
  have hbuyMem : buy ∈ group := hgroup.mem_iff.mpr List.mem_cons_self
  have hsellMem : sell ∈ group := hgroup.mem_iff.mpr (List.mem_cons_of_mem _ List.mem_cons_self)
  cases hcases : group with
  | nil =>
    rw [hcases] at hbuyMem
    cases hbuyMem
  | cons first rest =>
    rw [hcases] at hnodup hbuyMem hsellMem htoken
    have htransfers : getMatchingTransfers tx.events first = getMatchingTransfers tx.events buy := by
      obtain ⟨hcontract, htokenId⟩ := htoken first List.mem_cons_self buy hbuyMem
      rw [getMatchingTransfers, getMatchingTransfers, hcontract, htokenId]
    obtain ⟨t, ht, hscored⟩ := hscore
    have hcandidate : ∃ c ∈ executionCandidates (first :: rest), (scoreCandidateTransfer tx c t).isSome := by
      rw [executionCandidates_of_nodup hnodup]
      rcases hscored with h | h
      · exact ⟨buy, hbuyMem, h⟩
      · exact ⟨sell, hsellMem, h⟩
    obtain ⟨c, hc, hscored⟩ := hcandidate
    rw [← htransfers] at hlog ht ⊢
    obtain ⟨m, hm, hmt, hfills⟩ := canonical_of_one_log hlog hc ht hscored
    rw [executionCandidates_of_nodup hnodup] at hm
    refine ⟨m.fill, hm, m.transfer, hmt, ?_⟩
    exact hfills.trans (attributedFills_of_nodup hnodup hm rfl)

/-- **Seaport transfer matching is an optimal injective matching**, for the candidates and transfers of one
token; the canonical fills are those of its executions, each with its own transfer log, and a buy and a sell
behind one transfer log leave one fill. -/
theorem seaport_transfer_matching_optimal (tx : EnhancedTransaction) :
    (∀ (fills : List SeaportFillCandidate) (transfers : List EnhancedEvent),
      ∃ best : TransferMatching tx fills transfers,
        chooseBestTransferMatches tx fills transfers = best.taken ∧ best.IsBest) ∧
    (∀ (first : SeaportFillCandidate) (rest : List SeaportFillCandidate),
      ∃ best : TransferMatching tx (executionCandidates (first :: rest)) (tokenTransfers tx first),
        best.IsBest ∧ matchAndCanonicalizeTokenFills tx (first :: rest) =
            best.taken.flatMap (attributedFills (first :: rest)) ∧
          (best.taken.map fun m => m.transfer.logIndex).Nodup ∧
          (best.taken.map fun m => m.fill.executionKey).Nodup) ∧
    (∀ (buy sell : SeaportFillCandidate) (group : List SeaportFillCandidate) (log : Nat),
      buy.orderSide = some .buy → sell.orderSide = some .sell → group.Perm [buy, sell] → OneToken group →
      (∀ t ∈ getMatchingTransfers tx.events buy, t.logIndex = log) →
      (∃ t ∈ getMatchingTransfers tx.events buy,
        (scoreCandidateTransfer tx buy t).isSome ∨ (scoreCandidateTransfer tx sell t).isSome) →
      ∃ fill ∈ group, ∃ t ∈ getMatchingTransfers tx.events buy,
        matchAndCanonicalizeTokenFills tx group = [applyTransferTaker tx fill t]) := by
  refine ⟨chooseBestTransferMatches_best tx, fun first rest => ?_, ?_⟩
  · obtain ⟨best, hchosen, hbest⟩ :=
      chooseBestTransferMatches_best tx (executionCandidates (first :: rest)) (tokenTransfers tx first)
    exact ⟨best, hbest, matchAndCanonicalizeTokenFills_eq hchosen, best.taken_logs_nodup,
      best.taken_executions_nodup⟩
  · intro buy sell group log hbuy hsell hgroup htoken hlog hscore
    exact canonical_of_matched_pair hbuy hsell hgroup htoken hlog hscore

end Canonical

/-- An accepted bid matched with the seller's own order: one transfer from the seller, who sends the
transaction, to the bidder, and two logs. -/
def mirroredTransfer : EnhancedEvent := ⟨7, 1, 1, 1, 3, 0, .erc721, 20, 10, "5", 1⟩

def mirroredTx : EnhancedTransaction := ⟨1, 20, [mirroredTransfer]⟩

def mirroredBuy : SeaportFillCandidate :=
  ⟨some "bid", some "seaport", some .buy, some 10, some 20, 7, "5", 1, some 100, none, ⟨1, []⟩, 0, 1, 1, 1, 1⟩

def mirroredSell : SeaportFillCandidate :=
  ⟨some "ask", some "seaport", some .sell, some 20, some 20, 7, "5", 1, some 95, none, ⟨1, []⟩, 0, 1, 1, 1, 2⟩

theorem seaport_transfer_matching_optimal_mirrored :
    ∃ fill ∈ [mirroredSell, mirroredBuy], ∃ t ∈ getMatchingTransfers mirroredTx.events mirroredBuy,
      matchAndCanonicalizeTokenFills mirroredTx [mirroredSell, mirroredBuy] =
        [applyTransferTaker mirroredTx fill t] := by
  refine (seaport_transfer_matching_optimal mirroredTx).2.2 mirroredBuy mirroredSell
    [mirroredSell, mirroredBuy] 3 rfl rfl (List.Perm.swap _ _ _) ?_ ?_ ?_
  · exact by decide +kernel
  · exact by decide +kernel
  · exact ⟨mirroredTransfer, by decide +kernel, Or.inl (by decide +kernel)⟩

/-- Both orders fit the transfer; the bid is the one that is kept. -/
example : (matchAndCanonicalizeTokenFills mirroredTx [mirroredSell, mirroredBuy]).map (·.orderId) =
    [some "bid"] := by decide +kernel

end Artgod.Indexer
