/-
# Sharing the payment of a fill

Each sold NFT item of an execution carries the number of units sold before it, and `allocateFillPayment`
(`shared/market-data/fills.ts`) shares the total payment by that offset alone.  §2 reads a checked item as its
numbers, §3 finds the sold leg, §4 the priced executions and §5 the stored rows.
-/
import Artgod.Flow.Shares
import Artgod.Indexer.Fills
import Mathlib.Algebra.BigOperators.Ring.Finset

namespace Artgod.Indexer

open Flow Store

/-! ## 1. The share of an item -/

inductive FillPriceBasis where
  | unit
  | bundleAverage

structure ExactUnitPrice where
  numeratorWei : Int
  denominator : Int

structure FillAllocation where
  unitPrice : ExactUnitPrice
  attributedPrice : Int
  priceBasis : FillPriceBasis

def allocateFillPayment (total count units offset : Int) : Except SyncError FillAllocation :=
  if total < 0 ∨ count ≤ 0 ∨ units ≤ 0 ∨ offset < 0 ∨ offset + units > count then
    .error (.error "Invalid fill allocation")
  else
    let remainder := total.tmod count
    let extra := if remainder ≤ offset then 0
      else if remainder ≥ offset + units then units else remainder - offset
    .ok {
      unitPrice := ⟨total, count⟩
      attributedPrice := units * total.tdiv count + extra
      priceBasis := if count = units then .unit else .bundleAverage }

variable {items : List FillExecutionItem} {side : FillItemSide} {item : FillExecutionItem}
  {nftSide : Option FillItemSide} {db db' : Db} {index n offset : Nat} {payment : FillPayment}
  {rows : List FillExecutionItemRow} {w : FillExecutionWrite} {events : List FillEvent}

theorem allocateFillPayment_eq {total count units : Nat} (hpos : 0 < units)
    (hle : offset + units ≤ count) :
    ∃ allocation, allocateFillPayment total count units offset = .ok allocation ∧
      allocation.attributedPrice = (share total count offset units : Int) := by
  have hguard : ¬ ((total : Int) < 0 ∨ (count : Int) ≤ 0 ∨ (units : Int) ≤ 0 ∨ (offset : Int) < 0 ∨
      (offset : Int) + units > count) := by omega
  unfold allocateFillPayment
  rw [if_neg hguard]
  refine ⟨_, rfl, ?_⟩
  have hmod : (total : Int).tmod count = (total % count : Nat) := by
    rw [Int.tmod_eq_emod_of_nonneg (Int.natCast_nonneg _), Int.natCast_mod]
  have hdiv : (total : Int).tdiv count = (total / count : Nat) := by
    rw [Int.tdiv_eq_ediv_of_nonneg (Int.natCast_nonneg _), Int.natCast_div]
  dsimp only
  rw [hmod, hdiv]
  unfold share extra
  generalize total / count = quotient
  generalize total % count = remainder
  push_cast
  congr 1
  split
  · omega
  · split <;> omega

/-! ## 2. Checked items -/

/-- The units of a checked item. -/
def itemUnits (item : FillExecutionItem) : Nat := digitsValue item.amount.toList

/-- The texts of the item pass `unsignedAmount`. -/
structure ValidItem (item : FillExecutionItem) : Prop where
  identifier : unsignedAmount item.identifier = .ok (digitsValue item.identifier.toList)
  amount : unsignedAmount item.amount = .ok (itemUnits item)

theorem unsignedAmount_eq_ok {value : String} (h : unsignedAmount value = .ok n) :
    n = digitsValue value.toList := by
  unfold unsignedAmount at h
  dsimp only at h
  split at h
  · exact (Except.ok.inj h).symm
  · cases h

/-- The identity of a checked NFT item. -/
def nftIdentity (item : FillExecutionItem) : Int × Address × Nat × Nat :=
  (item.itemType, item.contract, digitsValue item.identifier.toList, itemUnits item)

theorem ValidItem.concreteNftIdentity (h : ValidItem item) :
    concreteNftIdentity item = .ok (nftIdentity item) := by
  unfold Indexer.concreteNftIdentity
  rw [h.identifier, h.amount]
  rfl

theorem validItem_of_concreteNftIdentity {key : Int × Address × Nat × Nat}
    (h : concreteNftIdentity item = .ok key) : ValidItem item := by
  unfold Indexer.concreteNftIdentity at h
  cases hid : unsignedAmount item.identifier with
  | error e =>
    rw [hid] at h
    cases h
  | ok identifier =>
    cases hamount : unsignedAmount item.amount with
    | error e =>
      rw [hid, hamount] at h
      cases h
    | ok amount =>
      exact ⟨by rw [hid, unsignedAmount_eq_ok hid], by rw [hamount, unsignedAmount_eq_ok hamount]; rfl⟩

theorem ValidItem.positiveQuantity (h : ValidItem item) : positiveQuantity item.amount =
      if itemUnits item = 0 then .error (.error "Invalid fill quantity") else .ok (itemUnits item) := by
  unfold Indexer.positiveQuantity
  rw [h.amount]
  rfl

theorem sumAmounts_unsigned (h : ∀ i ∈ items, ValidItem i) :
    sumAmounts unsignedAmount items = .ok (items.map itemUnits).sum := by
  have hfold : ∀ n, items.foldlM (fun n item => do return n + (← unsignedAmount item.amount)) n =
      (.ok (n + (items.map itemUnits).sum) : Except SyncError Nat) := by
    induction items with
    | nil => intro n; rfl
    | cons item rest ih =>
      intro n
      rw [List.foldlM_cons, (h item List.mem_cons_self).amount]
      refine (ih (fun i hi => h i (List.mem_cons_of_mem item hi)) _).trans ?_
      rw [List.map_cons, List.sum_cons, Nat.add_assoc]
  rw [sumAmounts, hfold, Nat.zero_add]

theorem sumAmounts_positive (h : ∀ i ∈ items, ValidItem i) : sumAmounts positiveQuantity items = .ok n ↔
      (∀ i ∈ items, 0 < itemUnits i) ∧ n = (items.map itemUnits).sum := by
  have hfold : ∀ k, items.foldlM (fun n item => do return n + (← positiveQuantity item.amount)) k =
      (.ok n : Except SyncError Nat) ↔
        (∀ i ∈ items, 0 < itemUnits i) ∧ n = k + (items.map itemUnits).sum := by
    induction items with
    | nil =>
      intro k
      exact ⟨fun hk => ⟨List.forall_mem_nil _, (Except.ok.inj hk).symm⟩, fun hk => congrArg _ hk.2.symm⟩
    | cons item rest ih =>
      intro k
      have hrest := ih fun i hi => h i (List.mem_cons_of_mem item hi)
      rw [List.foldlM_cons, (h item List.mem_cons_self).positiveQuantity, List.forall_mem_cons,
        List.map_cons, List.sum_cons, ← Nat.add_assoc]
      split
      · next hzero =>
        refine iff_of_false (fun herror => nomatch herror) fun hboth => ?_
        have hpos := hboth.1.1
        omega
      · next hne =>
        refine (hrest _).trans ?_
        rw [and_iff_right (Nat.pos_of_ne_zero hne : 0 < itemUnits item)]
  rw [sumAmounts, hfold, Nat.zero_add]

/-! ## 3. Items up to order and numbering -/

/-- The item without its number. -/
def unindexed (item : FillExecutionItem) : FillExecutionItem := { item with index := 0 }

/-- The lists hold the same items, in any order and under any numbers. -/
def SameItems (l l' : List FillExecutionItem) : Prop := (l.map unindexed).Perm (l'.map unindexed)

/-- The items numbered anew from `index` on. -/
def renumber : Nat → List FillExecutionItem → List FillExecutionItem
  | _, [] => []
  | index, item :: rest => { item with index := index } :: renumber (index + 1) rest

theorem map_unindexed_renumber (index : Nat) (l : List FillExecutionItem) :
    (renumber index l).map unindexed = l.map unindexed := by
  induction l generalizing index with
  | nil => rfl
  | cons item rest ih =>
    rw [renumber, List.map_cons, List.map_cons, ih]
    rfl

variable {l money rest : List FillExecutionItem} {nftQuantity : Nat} {α : Type}
  {execution : FillExecution} {u : Unit}

theorem sameItems_renumber {l' : List FillExecutionItem} (h : l.Perm l') :
    SameItems (renumber 0 l) l' := by
  unfold SameItems
  rw [map_unindexed_renumber]
  exact h.map _

namespace SameItems

variable {l l' : List FillExecutionItem} {β : Type}

theorem symm (h : SameItems l l') : SameItems l' l := List.Perm.symm h

variable {q : FillExecutionItem → Bool}

theorem filter (h : SameItems l l') (hq : ∀ i, q (unindexed i) = q i) :
    SameItems (l.filter q) (l'.filter q) := by
  have hfilter : ∀ l : List FillExecutionItem, (l.filter q).map unindexed = (l.map unindexed).filter q := by
    intro l
    rw [List.filter_map]
    exact congrArg _ (List.filter_congr fun i _ => (hq i).symm)
  unfold SameItems
  rw [hfilter, hfilter]
  exact List.Perm.filter q h

theorem map (h : SameItems l l') {f : FillExecutionItem → β} (hf : ∀ i, f (unindexed i) = f i) :
    (l.map f).Perm (l'.map f) := by
  have hmap : ∀ l : List FillExecutionItem, l.map f = (l.map unindexed).map f := by
    intro l
    rw [List.map_map]
    exact List.map_congr_left fun i _ => (hf i).symm
  rw [hmap, hmap l']
  exact List.Perm.map f h

theorem eq_nil_iff (h : SameItems l l') : l = [] ↔ l' = [] := by
  rw [← List.length_eq_zero_iff, ← List.length_eq_zero_iff, ← List.length_map (f := unindexed), h.length_eq,
    List.length_map]

theorem forall_iff (h : SameItems l l') {q : FillExecutionItem → Prop} (hq : ∀ i, q (unindexed i) ↔ q i) :
    (∀ i ∈ l, q i) ↔ ∀ i ∈ l', q i := by
  have hforall : ∀ l : List FillExecutionItem, (∀ i ∈ l, q i) ↔ ∀ i ∈ l.map unindexed, q i := by
    intro l
    rw [List.forall_mem_map]
    exact forall₂_congr fun i _ => (hq i).symm
  rw [hforall, hforall l']
  exact forall_congr' fun i => imp_congr_left (List.Perm.mem_iff h)

theorem exists_iff (h : SameItems l l') {q : FillExecutionItem → Prop} (hq : ∀ i, q (unindexed i) ↔ q i) :
    (∃ i ∈ l, q i) ↔ ∃ i ∈ l', q i := by
  have hnone := h.forall_iff (q := fun i => ¬ q i) fun i => not_congr (hq i)
  have hnot : ∀ l : List FillExecutionItem, (∃ i ∈ l, q i) ↔ ¬ ∀ i ∈ l, ¬ q i := by
    intro l
    push Not
    rfl
  rw [hnot, hnot l', hnone]

theorem sum_itemUnits (h : SameItems l l') (hq : ∀ i, q (unindexed i) = q i) :
    ((l.filter q).map itemUnits).sum = ((l'.filter q).map itemUnits).sum :=
  ((h.filter hq).map fun _ => rfl).sum_eq

end SameItems

/-! ## 4. The sold leg -/

def otherSide : FillItemSide → FillItemSide
  | .offer => .consideration
  | .consideration => .offer

/-- The NFT items of a leg. -/
def nftsOn (side : FillItemSide) (items : List FillExecutionItem) : List FillExecutionItem :=
  items.filter fun i => isFillNftItem i && i.side = side

/-- Some money stands on the leg. -/
def PaysOn (side : FillItemSide) (items : List FillExecutionItem) : Prop :=
  ∃ i ∈ items, (i.itemType = 0 ∨ i.itemType = 1) ∧ i.side = side

/-- The legs carry the same concrete NFTs. -/
def Forwards (items : List FillExecutionItem) : Prop :=
  (∀ i ∈ items, isFillNftItem i = true → i.itemType ≤ 3) ∧
    ((nftsOn .offer items).map nftIdentity).Perm ((nftsOn .consideration items).map nftIdentity)

/-- **The leg that carries the sold units**: the only leg with NFTs, or, where each leg forwards the other's, the
one that no money stands on. -/
inductive SoldOn (items : List FillExecutionItem) (side : FillItemSide) : Prop where
  | alone : nftsOn side items ≠ [] → nftsOn (otherSide side) items = [] → SoldOn items side
  | forwarded : nftsOn side items ≠ [] → nftsOn (otherSide side) items ≠ [] → Forwards items →
      PaysOn (otherSide side) items → ¬ PaysOn side items → SoldOn items side

theorem matchOffered_eq {unmatched : List (Int × Address × Nat × Nat)} {offered : List FillExecutionItem}
    (hvalid : ∀ i ∈ offered, ValidItem i) (hlength : offered.length = unmatched.length) :
    matchOffered unmatched offered = .ok (decide ((offered.map nftIdentity).Perm unmatched)) := by
  induction offered generalizing unmatched with
  | nil =>
    cases List.eq_nil_of_length_eq_zero hlength.symm
    rfl
  | cons item rest ih =>
    have hitem := (hvalid item List.mem_cons_self).concreteNftIdentity
    have hrest : ∀ i ∈ rest, ValidItem i := fun i hi => hvalid i (List.mem_cons_of_mem item hi)
    unfold matchOffered
    rw [hitem]
    change (if nftIdentity item ∈ unmatched then matchOffered (unmatched.erase (nftIdentity item)) rest
      else .ok false) = _
    rw [List.map_cons]
    split
    · next hmem =>
      have hlength' : rest.length = (unmatched.erase (nftIdentity item)).length := by
        rw [List.length_erase_of_mem hmem, ← hlength]
        rfl
      rw [ih hrest hlength']
      refine congrArg Except.ok (decide_eq_decide.mpr ?_)
      rw [List.cons_perm_iff_perm_erase, and_iff_right hmem]
    · next hnot =>
      exact congrArg Except.ok (decide_eq_false fun h => hnot (List.cons_perm_iff_perm_erase.mp h).1).symm

theorem mapM_concreteNftIdentity (hvalid : ∀ i ∈ items, ValidItem i) :
    items.mapM concreteNftIdentity = .ok (items.map nftIdentity) := by
  induction items with
  | nil => rfl
  | cons item rest ih =>
    rw [List.mapM_cons, (hvalid item List.mem_cons_self).concreteNftIdentity,
      ih fun i hi => hvalid i (List.mem_cons_of_mem item hi)]
    rfl

theorem haveSameConcreteNfts_eq (hvalid : ∀ i ∈ items, ValidItem i) :
    ∃ same, haveSameConcreteNfts (nftsOn .offer items) (nftsOn .consideration items) = .ok same ∧
      (same = true ↔ Forwards items) := by
  have hon : ∀ side, ∀ i ∈ nftsOn side items, ValidItem i := fun side i hi => hvalid i (List.mem_filter.mp hi).1
  have htypes : (∀ i ∈ items, isFillNftItem i = true → i.itemType ≤ 3) ↔
      ((nftsOn .offer items ++ nftsOn .consideration items).any fun i => 3 < i.itemType) = false := by
    rw [List.any_eq_false]
    constructor
    · intro h i hi
      rw [decide_eq_true_iff]
      refine Int.not_lt.mpr ?_
      rcases List.mem_append.mp hi with hi | hi
      · exact h i (List.mem_filter.mp hi).1 (Bool.and_eq_true_iff.mp (List.mem_filter.mp hi).2).1
      · exact h i (List.mem_filter.mp hi).1 (Bool.and_eq_true_iff.mp (List.mem_filter.mp hi).2).1
    · intro h i hi hnft
      refine Int.not_lt.mp fun hlt => h i (List.mem_append.mpr ?_) (decide_eq_true hlt)
      cases hside : i.side with
      | offer => exact .inl (List.mem_filter.mpr ⟨hi, by simp [hnft, hside]⟩)
      | consideration => exact .inr (List.mem_filter.mpr ⟨hi, by simp [hnft, hside]⟩)
  unfold haveSameConcreteNfts Forwards
  split
  · next hdiffer =>
    refine ⟨false, rfl, iff_of_false Bool.false_ne_true ?_⟩
    rintro ⟨htype, hperm⟩
    rcases hdiffer with hlength | hcriteria
    · exact hlength (by simpa using hperm.length_eq)
    · rw [htypes.mp htype] at hcriteria
      cases hcriteria
  · next hsame =>
    obtain ⟨hlength, hcriteria⟩ := not_or.mp hsame
    have hlength' : (nftsOn .offer items).length = ((nftsOn .consideration items).map nftIdentity).length := by
      rw [List.length_map]
      exact not_not.mp hlength
    rw [mapM_concreteNftIdentity (hon _)]
    refine ⟨_, matchOffered_eq (hon _) hlength', ?_⟩
    rw [decide_eq_true_iff]
    exact (and_iff_right (htypes.mpr (Bool.eq_false_iff.mpr hcriteria))).symm

theorem dedup_sides {l : List FillItemSide} :
    ∃ nftSide, (if l.dedup.length ≠ 1 then .ok none
        else if FillItemSide.offer ∈ l.dedup then .ok (some .consideration)
        else .ok (some .offer) : Except SyncError (Option FillItemSide)) = .ok nftSide ∧
      ∀ side, nftSide = some side ↔ otherSide side ∈ l ∧ side ∉ l := by
  have hperm : ∀ m : List FillItemSide, m.Nodup → (∀ side, side ∈ l ↔ side ∈ m) → l.dedup.Perm m :=
    fun m hm hmem => (List.perm_ext_iff_of_nodup (List.nodup_dedup l) hm).mpr fun side =>
      List.mem_dedup.trans (hmem side)
  by_cases hoffer : FillItemSide.offer ∈ l <;> by_cases hconsideration : FillItemSide.consideration ∈ l
  · have hboth := hperm [.offer, .consideration] (by decide) fun side => by
      cases side <;> simp [hoffer, hconsideration]
    refine ⟨none, by simp [hboth.length_eq], fun side => ?_⟩
    cases side <;> simp [hoffer, hconsideration]
  · have hone := hperm [.offer] (by decide) fun side => by
      cases side <;> simp [hoffer, hconsideration]
    refine ⟨some .consideration, by simp [hone.length_eq, hoffer], fun side => ?_⟩
    cases side <;> simp [otherSide, hoffer, hconsideration]
  · have hone := hperm [.consideration] (by decide) fun side => by
      cases side <;> simp [hoffer, hconsideration]
    refine ⟨some .offer, by simp [hone.length_eq, hoffer], fun side => ?_⟩
    cases side <;> simp [otherSide, hoffer, hconsideration]
  · have hnone := hperm [] (by decide) fun side => by
      cases side <;> simp [hoffer, hconsideration]
    refine ⟨none, by simp [hnone.length_eq], fun side => ?_⟩
    cases side <;> simp [otherSide, hoffer, hconsideration]

/-- The legs of the money items. -/
def moneySides (items : List FillExecutionItem) : List FillItemSide :=
  (items.filter fun i => i.itemType = 0 || i.itemType = 1).map (·.side)

theorem mem_moneySides : side ∈ moneySides items ↔ PaysOn side items := by
  rw [moneySides, List.mem_map]
  refine exists_congr fun i => ?_
  rw [List.mem_filter, Bool.or_eq_true, decide_eq_true_iff, decide_eq_true_iff, and_assoc]

theorem SoldOn.nfts (h : SoldOn items side) : nftsOn side items ≠ [] := by
  cases h with
  | alone hsold _ => exact hsold
  | forwarded hsold _ _ _ _ => exact hsold

theorem soldOn_iff_of_both (hsold : nftsOn side items ≠ []) (hother : nftsOn (otherSide side) items ≠ []) :
    SoldOn items side ↔ Forwards items ∧ PaysOn (otherSide side) items ∧ ¬ PaysOn side items := by
  constructor
  · intro h
    cases h with
    | alone _ hnone => exact absurd hnone hother
    | forwarded _ _ hforwards hpays hfree => exact ⟨hforwards, hpays, hfree⟩
  · rintro ⟨hforwards, hpays, hfree⟩
    exact .forwarded hsold hother hforwards hpays hfree

theorem resolveFillNftSide_def (items : List FillExecutionItem) : resolveFillNftSide items =
      if nftsOn .offer items = [] ∧ nftsOn .consideration items = [] then .ok none
      else if nftsOn .consideration items = [] then .ok (some .offer)
      else if nftsOn .offer items = [] then .ok (some .consideration)
      else (haveSameConcreteNfts (nftsOn .offer items) (nftsOn .consideration items)).bind fun same =>
        if same = false then .ok none
        else if (moneySides items).dedup.length ≠ 1 then .ok none
        else if FillItemSide.offer ∈ (moneySides items).dedup then .ok (some .consideration)
        else .ok (some .offer) := rfl

theorem resolveFillNftSide_eq (hvalid : ∀ i ∈ items, ValidItem i) :
    ∃ nftSide, resolveFillNftSide items = .ok nftSide ∧ ∀ side, nftSide = some side ↔ SoldOn items side := by
  obtain ⟨same, hsame, hforwards⟩ := haveSameConcreteNfts_eq hvalid
  rw [resolveFillNftSide_def]
  by_cases hoffer : nftsOn .offer items = [] <;> by_cases hconsideration : nftsOn .consideration items = []
  · rw [if_pos ⟨hoffer, hconsideration⟩]
    refine ⟨none, rfl, fun side => iff_of_false (fun h => nomatch h) fun h => ?_⟩
    cases side with
    | offer => exact h.nfts hoffer
    | consideration => exact h.nfts hconsideration
  · rw [if_neg fun h => hconsideration h.2, if_neg hconsideration, if_pos hoffer]
    refine ⟨some .consideration, rfl, fun side => ?_⟩
    cases side with
    | offer => exact iff_of_false (fun h => nomatch h) fun h => h.nfts hoffer
    | consideration => exact iff_of_true rfl (.alone hconsideration hoffer)
  · rw [if_neg fun h => hoffer h.1, if_pos hconsideration]
    refine ⟨some .offer, rfl, fun side => ?_⟩
    cases side with
    | offer => exact iff_of_true rfl (.alone hoffer hconsideration)
    | consideration => exact iff_of_false (fun h => nomatch h) fun h => h.nfts hconsideration
  · have hboth : ∀ side, SoldOn items side ↔
        Forwards items ∧ PaysOn (otherSide side) items ∧ ¬ PaysOn side items := by
      intro side
      cases side with
      | offer => exact soldOn_iff_of_both hoffer hconsideration
      | consideration => exact soldOn_iff_of_both hconsideration hoffer
    rw [if_neg fun h => hoffer h.1, if_neg hconsideration, if_neg hoffer, hsame]
    dsimp only [Except.bind]
    cases same with
    | false =>
      refine ⟨none, rfl, fun side => iff_of_false (fun h => nomatch h) fun h => ?_⟩
      exact Bool.false_ne_true (hforwards.mpr ((hboth side).mp h).1)
    | true =>
      obtain ⟨nftSide, heq, hside⟩ := @dedup_sides (moneySides items)
      refine ⟨nftSide, (if_neg Bool.noConfusion).trans heq, fun side => ?_⟩
      rw [hside, hboth, mem_moneySides, mem_moneySides, and_iff_right (hforwards.mp rfl)]

/-! ## 5. Priced executions -/

/-- The money items of an execution. -/
def moneyOf (items : List FillExecutionItem) : List FillExecutionItem := items.filter fun i => !isFillNftItem i

theorem mem_moneyOf {i : FillExecutionItem} :
    i ∈ moneyOf items ↔ i ∈ items ∧ isFillNftItem i = false := by
  rw [moneyOf, List.mem_filter, Bool.not_eq_true']

/-- The last part of `summarizeFillPayment`, once the sold leg is known. -/
def chargedPayment (side : FillItemSide) (nftQuantity : Nat) (money : List FillExecutionItem) :
    Except SyncError FillPayment :=
  match money with
  | [] => .ok ⟨some .noPayment, none, none, nftQuantity⟩
  | first :: _ =>
    if (money.map (·.contract)).dedup.length ≠ 1 then .ok ⟨some .mixedPayment, none, none, nftQuantity⟩
    else if money.filter (fun i => i.side ≠ side) = [] then .ok ⟨some .noPayment, none, none, nftQuantity⟩
    else (sumAmounts unsignedAmount (money.filter fun i => i.side ≠ side)).bind fun total =>
      if money.filter (fun i => i.side = side) ≠ [] then
        if side = .offer then .ok ⟨some .mixedPayment, none, none, nftQuantity⟩
        else (sumAmounts unsignedAmount (money.filter fun i => i.side = side)).bind fun returned =>
          if total < returned then .ok ⟨some .mixedPayment, none, none, nftQuantity⟩
          else .ok ⟨none, some total, some first.contract, nftQuantity⟩
      else .ok ⟨none, some total, some first.contract, nftQuantity⟩

/-- An item that is no protocol item of a kind the fills know. -/
def isUnsupported (i : FillExecutionItem) : Bool := i.itemType < 0 || 3 < i.itemType

theorem summarizeFillPayment_sold (hresolve : resolveFillNftSide items = .ok (some side))
    (hquantity : sumAmounts positiveQuantity (items.filter (isSoldNft (some side))) = .ok nftQuantity)
    (hsupported : ¬ items.any isUnsupported = true) :
    summarizeFillPayment items = chargedPayment side nftQuantity (moneyOf items) := by
  unfold summarizeFillPayment
  rw [hresolve]
  change (sumAmounts positiveQuantity (items.filter (isSoldNft (some side))) >>= _) = _
  rw [hquantity]
  refine (if_neg hsupported).trans ?_
  unfold moneyOf
  dsimp only
  generalize items.filter (fun i => !isFillNftItem i) = money
  cases money with
  | nil => rfl
  | cons first rest => rfl

/-- **A charge**: all money is of one currency, and what of it stands on the other leg is the total.  Only a
bid returns some of its payment, and no more than that. -/
structure Charged (side : FillItemSide) (payment : FillPayment) (money : List FillExecutionItem) : Prop where
  included : payment.exclusion = none
  currency : ∀ i ∈ money, some i.contract = payment.currency
  paid : ∃ i ∈ money, i.side ≠ side
  total : payment.totalPrice = some ((money.filter fun i => i.side ≠ side).map itemUnits).sum
  returned : (∃ i ∈ money, i.side = side) → side = .consideration ∧
    ((money.filter fun i => i.side = side).map itemUnits).sum ≤
      ((money.filter fun i => i.side ≠ side).map itemUnits).sum

theorem contracts_dedup_iff {first : FillExecutionItem} :
    ((first :: rest).map (·.contract)).dedup.length = 1 ↔
      ∀ i ∈ first :: rest, i.contract = first.contract := by
  constructor
  · intro h i hi
    obtain ⟨c, hc⟩ := List.length_eq_one_iff.mp h
    have hmem : ∀ i ∈ first :: rest, i.contract = c := by
      intro i hi
      have hdedup : i.contract ∈ ((first :: rest).map (·.contract)).dedup :=
        List.mem_dedup.mpr (List.mem_map_of_mem hi)
      rw [hc] at hdedup
      exact List.mem_singleton.mp hdedup
    rw [hmem i hi, hmem first List.mem_cons_self]
  · intro h
    have hperm : ((first :: rest).map (·.contract)).dedup.Perm [first.contract] := by
      refine (List.perm_ext_iff_of_nodup (List.nodup_dedup _) (List.nodup_singleton _)).mpr fun c => ?_
      rw [List.mem_dedup, List.mem_map, List.mem_singleton]
      constructor
      · rintro ⟨i, hi, rfl⟩
        exact h i hi
      · rintro rfl
        exact ⟨first, List.mem_cons_self, rfl⟩
    rw [hperm.length_eq]
    rfl

theorem filter_ne_nil_iff {q : FillExecutionItem → Prop} [DecidablePred q] :
    l.filter (fun i => q i) ≠ [] ↔ ∃ i ∈ l, q i := by
  rw [ne_eq, List.filter_eq_nil_iff]
  push Not
  exact exists_congr fun i => and_congr_right fun _ => decide_eq_true_iff

theorem charged_of_chargedPayment (hvalid : ∀ i ∈ money, ValidItem i)
    (h : chargedPayment side nftQuantity money = .ok payment) (hincluded : payment.exclusion = none) :
    payment.nftQuantity = nftQuantity ∧ Charged side payment money := by
  have hsum : ∀ q : FillExecutionItem → Bool,
      sumAmounts unsignedAmount (money.filter q) = .ok ((money.filter q).map itemUnits).sum :=
    fun q => sumAmounts_unsigned fun i hi => hvalid i (List.mem_filter.mp hi).1
  unfold chargedPayment at h
  split at h
  · cases h
    cases hincluded
  next first rest =>
  simp only [hsum, Except.bind] at h
  split at h
  · cases h
    cases hincluded
  next hcurrency =>
  have hone := contracts_dedup_iff.mp (not_not.mp hcurrency)
  split at h
  · cases h
    cases hincluded
  next hpaid =>
  have hpaid' := filter_ne_nil_iff.mp hpaid
  split at h
  · split at h
    · cases h
      cases hincluded
    next hoffer =>
    split at h
    · cases h
      cases hincluded
    next hle =>
    cases h
    refine ⟨rfl, rfl, fun i hi => congrArg some (hone i hi), hpaid', rfl, fun _ => ⟨?_, Nat.le_of_not_lt hle⟩⟩
    cases side with
    | offer => exact absurd rfl hoffer
    | consideration => rfl
  · next hnone =>
    cases h
    exact ⟨rfl, rfl, fun i hi => congrArg some (hone i hi), hpaid', rfl,
      fun hreturned => absurd (filter_ne_nil_iff.mpr hreturned) hnone⟩

theorem chargedPayment_of_charged (hvalid : ∀ i ∈ money, ValidItem i) (h : Charged side payment money) :
    chargedPayment side payment.nftQuantity money = .ok payment := by
  have hsum : ∀ q : FillExecutionItem → Bool,
      sumAmounts unsignedAmount (money.filter q) = .ok ((money.filter q).map itemUnits).sum :=
    fun q => sumAmounts_unsigned fun i hi => hvalid i (List.mem_filter.mp hi).1
  obtain ⟨i, hi, hpaid⟩ := h.paid
  cases money with
  | nil => cases hi
  | cons first rest =>
    have hone : ∀ i ∈ first :: rest, i.contract = first.contract := fun i hi =>
      Option.some.inj ((h.currency i hi).trans (h.currency first List.mem_cons_self).symm)
    have hpayment : payment = ⟨none,
        some (((first :: rest).filter fun i => i.side ≠ side).map itemUnits).sum,
        some first.contract, payment.nftQuantity⟩ := by
      rw [← h.total, h.currency first List.mem_cons_self, ← h.included]
    have hnotone : ¬ ((first :: rest).map (·.contract)).dedup.length ≠ 1 :=
      not_not.mpr (contracts_dedup_iff.mpr hone)
    unfold chargedPayment
    dsimp only
    rw [if_neg hnotone, if_neg (filter_ne_nil_iff.mpr ⟨i, hi, hpaid⟩), hsum, hsum]
    dsimp only [Except.bind]
    split
    · next hreturned =>
      obtain ⟨hside, hle⟩ := h.returned (filter_ne_nil_iff.mp hreturned)
      rw [if_neg (by rw [hside]; exact FillItemSide.noConfusion), if_neg (Nat.not_lt_of_le hle)]
      exact congrArg Except.ok hpayment.symm
    · exact congrArg Except.ok hpayment.symm

/-- **A priced execution**: one leg sells NFTs, a positive number of each, and the money charges it. -/
structure Priced (items : List FillExecutionItem) (side : FillItemSide) (payment : FillPayment) : Prop where
  sold : SoldOn items side
  positive : ∀ i ∈ items, isSoldNft (some side) i = true → 0 < itemUnits i
  quantity : payment.nftQuantity = ((items.filter (isSoldNft (some side))).map itemUnits).sum
  supported : ∀ i ∈ items, isUnsupported i = false
  money : Charged side payment (moneyOf items)

theorem soldQuantity_iff (hvalid : ∀ i ∈ items, ValidItem i) :
    sumAmounts positiveQuantity (items.filter (isSoldNft nftSide)) = .ok n ↔
      (∀ i ∈ items, isSoldNft nftSide i = true → 0 < itemUnits i) ∧
        n = ((items.filter (isSoldNft nftSide)).map itemUnits).sum := by
  rw [sumAmounts_positive fun i hi => hvalid i (List.mem_filter.mp hi).1]
  simp only [List.mem_filter, and_imp]

theorem any_isUnsupported_iff :
    ¬ items.any isUnsupported = true ↔ ∀ i ∈ items, isUnsupported i = false := by
  rw [Bool.not_eq_true, List.any_eq_false]
  simp only [Bool.not_eq_true]

theorem check_bind_eq_ok {β : Type} {x : Except SyncError α} {f : α → Except SyncError β} {b : β} :
    (x >>= f) = .ok b ↔ ∃ a, x = .ok a ∧ f a = .ok b := by
  cases x with
  | error e => exact ⟨fun h => (nomatch h), fun ⟨_, h, _⟩ => (nomatch h)⟩
  | ok a =>
    refine ⟨fun h => ⟨a, rfl, h⟩, fun ⟨_, h, hf⟩ => ?_⟩
    cases h
    exact hf

theorem summarizeFillPayment_iff (hvalid : ∀ i ∈ items, ValidItem i) :
    summarizeFillPayment items = .ok payment ∧ payment.exclusion = none ↔
      ∃ side, resolveFillNftSide items = .ok (some side) ∧ Priced items side payment := by
  obtain ⟨nftSide, hresolve, hside⟩ := resolveFillNftSide_eq hvalid
  have hmoney : ∀ i ∈ moneyOf items, ValidItem i := fun i hi => hvalid i (List.mem_filter.mp hi).1
  constructor
  · rintro ⟨h, hincluded⟩
    have hsummary := h
    unfold summarizeFillPayment at h
    dsimp only at h
    obtain ⟨_, hresolve', h⟩ := check_bind_eq_ok.mp h
    cases hresolve.symm.trans hresolve'
    obtain ⟨quantity, hquantity, h⟩ := check_bind_eq_ok.mp h
    obtain ⟨hpositive, hsum⟩ := (soldQuantity_iff hvalid).mp hquantity
    split at h
    · cases h
      cases hincluded
    next hsupported =>
    cases nftSide with
    | none =>
      cases h
      cases hincluded
    | some side =>
      rw [summarizeFillPayment_sold hresolve hquantity hsupported] at hsummary
      obtain ⟨hcount, hcharged⟩ := charged_of_chargedPayment hmoney hsummary hincluded
      exact ⟨side, hresolve, (hside side).mp rfl, hpositive, hcount.trans hsum,
        any_isUnsupported_iff.mp hsupported, hcharged⟩
  · rintro ⟨side, hresolve', hpriced⟩
    refine ⟨?_, hpriced.money.included⟩
    have hquantity := (soldQuantity_iff hvalid).mpr ⟨hpriced.positive, hpriced.quantity⟩
    rw [summarizeFillPayment_sold hresolve' hquantity (any_isUnsupported_iff.mpr hpriced.supported)]
    exact chargedPayment_of_charged hmoney hpriced.money

theorem summarizeFillPayment_swap (hvalid : ∀ i ∈ items, ValidItem i)
    (hresolve : resolveFillNftSide items = .ok none) (hsupported : ∀ i ∈ items, isUnsupported i = false)
    (hpositive : ∀ i ∈ items, isSoldNft none i = true → 0 < itemUnits i) :
    ∃ payment, summarizeFillPayment items = .ok payment ∧ payment.totalPrice = none := by
  have hquantity := (soldQuantity_iff hvalid).mpr ⟨hpositive, rfl⟩
  unfold summarizeFillPayment
  rw [hresolve]
  change ∃ payment, (sumAmounts positiveQuantity (items.filter (isSoldNft none)) >>= _) = _ ∧ _
  rw [hquantity]
  exact ⟨_, if_neg (any_isUnsupported_iff.mpr hsupported), rfl⟩

/-! ## 6. The same items are priced the same -/

namespace SameItems

variable {l l' : List FillExecutionItem} {side : FillItemSide} {payment : FillPayment}

theorem nftsOn (h : SameItems l l') (side : FillItemSide) : SameItems (nftsOn side l) (nftsOn side l') :=
  h.filter fun _ => rfl

theorem forwards (h : SameItems l l') (hl : Forwards l) : Forwards l' :=
  ⟨(h.forall_iff fun _ => .rfl).mp hl.1,
    (((h.nftsOn .offer).map fun _ => rfl).symm.trans hl.2).trans ((h.nftsOn .consideration).map fun _ => rfl)⟩

theorem soldOn (h : SameItems l l') (hl : SoldOn l side) : SoldOn l' side := by
  have hnfts : ∀ side, Indexer.nftsOn side l = [] ↔ Indexer.nftsOn side l' = [] :=
    fun side => (h.nftsOn side).eq_nil_iff
  have hpays : ∀ side, PaysOn side l ↔ PaysOn side l' := fun side => h.exists_iff fun _ => .rfl
  cases hl with
  | alone hsold hother => exact .alone (mt (hnfts _).mpr hsold) ((hnfts _).mp hother)
  | forwarded hsold hother hforwards hpaid hfree =>
    exact .forwarded (mt (hnfts _).mpr hsold) (mt (hnfts _).mpr hother) (h.forwards hforwards)
      ((hpays _).mp hpaid) (mt (hpays _).mpr hfree)

theorem charged (h : SameItems l l') (hl : Charged side payment l) : Charged side payment l' := by
  have hpaid := h.sum_itemUnits (q := fun i => i.side ≠ side) fun _ => rfl
  have hreturned := h.sum_itemUnits (q := fun i => i.side = side) fun _ => rfl
  refine ⟨hl.included, (h.forall_iff fun _ => .rfl).mp hl.currency, (h.exists_iff fun _ => .rfl).mp hl.paid,
    hl.total.trans (congrArg some hpaid), fun hsome => ?_⟩
  rw [← hpaid, ← hreturned]
  exact hl.returned ((h.exists_iff fun _ => .rfl).mpr hsome)

theorem priced (h : SameItems l l') (hl : Priced l side payment) : Priced l' side payment where
  sold := h.soldOn hl.sold
  positive := (h.forall_iff fun _ => .rfl).mp hl.positive
  quantity := hl.quantity.trans (h.sum_itemUnits fun _ => rfl)
  supported := (h.forall_iff fun _ => .rfl).mp hl.supported
  money := (h.filter fun _ => rfl).charged hl.money

end SameItems

/-! ## 7. The prepared rows -/

/-- The units that an item adds to the offset. -/
def soldUnits (nftSide : Option FillItemSide) (item : FillExecutionItem) : Nat :=
  if isSoldNft nftSide item then itemUnits item else 0

/-- The items with the units sold before each. -/
def unitRows (nftSide : Option FillItemSide) : Nat → List FillExecutionItem → List FillExecutionItemRow
  | _, [] => []
  | offset, item :: rest => ⟨item, offset⟩ :: unitRows nftSide (offset + soldUnits nftSide item) rest

/-- The items carry their numbers. -/
def Numbered : Nat → List FillExecutionItem → Prop
  | _, [] => True
  | index, item :: rest => item.index = index ∧ Numbered (index + 1) rest

theorem numbered_renumber (index : Nat) (l : List FillExecutionItem) : Numbered index (renumber index l) := by
  induction l generalizing index with
  | nil => trivial
  | cons item rest ih => exact ⟨rfl, ih (index + 1)⟩

theorem soldUnits_check (h : ValidItem item) {f : Nat → Except SyncError α} {a : α} :
    (if isSoldNft nftSide item then positiveQuantity item.amount >>= f else f 0) = .ok a ↔
      (isSoldNft nftSide item = true → 0 < itemUnits item) ∧ f (soldUnits nftSide item) = .ok a := by
  unfold soldUnits
  split
  · next hsold =>
    rw [h.positiveQuantity, imp_iff_right hsold]
    split
    · next hzero => exact iff_of_false (fun herror => nomatch herror) fun hpos => by omega
    · next hne => rw [and_iff_right (Nat.pos_of_ne_zero hne)]; rfl
  · next hother => rw [and_iff_right fun hsold => absurd hsold hother]

theorem prepareItems_cons : prepareItems nftSide index offset (item :: rest) = .ok rows ↔
      item.index = index ∧ ValidItem item ∧ (isSoldNft nftSide item = true → 0 < itemUnits item) ∧
        ∃ rows', prepareItems nftSide (index + 1) (offset + soldUnits nftSide item) rest = .ok rows' ∧
          rows = ⟨item, offset⟩ :: rows' := by
  have hrest : ∀ units, (do
      let rows ← prepareItems nftSide (index + 1) (offset + units) rest
      return ⟨item, offset⟩ :: rows : Except SyncError (List FillExecutionItemRow)) = .ok rows ↔
      ∃ rows', prepareItems nftSide (index + 1) (offset + units) rest = .ok rows' ∧
          rows = ⟨item, offset⟩ :: rows' := by
    intro units
    rw [check_bind_eq_ok]
    exact exists_congr fun rows' => and_congr_right fun _ =>
      ⟨fun h => (Except.ok.inj h).symm, fun h => congrArg _ h.symm⟩
  rw [prepareItems]
  by_cases hindex : item.index = index
  · rw [if_neg (not_not.mpr hindex), and_iff_right hindex]
    constructor
    · intro h
      obtain ⟨identifier, hidentifier, h⟩ := check_bind_eq_ok.mp h
      obtain ⟨amount, hamount, h⟩ := check_bind_eq_ok.mp h
      have hvalid : ValidItem item :=
        ⟨by rw [hidentifier, unsignedAmount_eq_ok hidentifier], by rw [hamount, unsignedAmount_eq_ok hamount]; rfl⟩
      obtain ⟨hpositive, h⟩ := (soldUnits_check hvalid).mp h
      exact ⟨hvalid, hpositive, (hrest _).mp h⟩
    · rintro ⟨hvalid, hpositive, h⟩
      refine check_bind_eq_ok.mpr ⟨_, hvalid.identifier, check_bind_eq_ok.mpr ⟨_, hvalid.amount, ?_⟩⟩
      exact (soldUnits_check hvalid).mpr ⟨hpositive, (hrest _).mpr h⟩
  · rw [if_pos hindex]
    exact iff_of_false (fun h => nomatch h) fun h => hindex h.1

theorem prepareItems_iff : prepareItems nftSide index offset items = .ok rows ↔
      Numbered index items ∧ (∀ i ∈ items, ValidItem i) ∧
        (∀ i ∈ items, isSoldNft nftSide i = true → 0 < itemUnits i) ∧
        rows = unitRows nftSide offset items := by
  induction items generalizing index offset rows with
  | nil =>
    refine ⟨fun h => ⟨trivial, List.forall_mem_nil _, List.forall_mem_nil _, (Except.ok.inj h).symm⟩, ?_⟩
    rintro ⟨-, -, -, rfl⟩
    rfl
  | cons item rest ih =>
    rw [prepareItems_cons]
    simp only [ih, List.forall_mem_cons, Numbered, unitRows]
    constructor
    · rintro ⟨hindex, hvalid, hpositive, rows', ⟨hnumbered, hvalids, hpositives, rfl⟩, rfl⟩
      exact ⟨⟨hindex, hnumbered⟩, ⟨hvalid, hvalids⟩, ⟨hpositive, hpositives⟩, rfl⟩
    · rintro ⟨⟨hindex, hnumbered⟩, ⟨hvalid, hvalids⟩, ⟨hpositive, hpositives⟩, rfl⟩
      exact ⟨hindex, hvalid, hpositive, _, ⟨hnumbered, hvalids, hpositives, rfl⟩, rfl⟩

theorem tiles_unitRows (hpositive : ∀ i ∈ items, isSoldNft nftSide i = true → 0 < itemUnits i) :
    Tiles (·.unitOffset) (fun r => itemUnits r.item) offset
      (offset + ((items.filter (isSoldNft nftSide)).map itemUnits).sum)
      ((unitRows nftSide offset items).filter fun r => isSoldNft nftSide r.item) := by
  induction items generalizing offset with
  | nil => exact rfl
  | cons item rest ih =>
    have hrest := @ih (offset + soldUnits nftSide item) fun i hi => hpositive i (List.mem_cons_of_mem item hi)
    have hrow : isSoldNft nftSide (⟨item, offset⟩ : FillExecutionItemRow).item = isSoldNft nftSide item := rfl
    rw [unitRows, List.filter_cons, List.filter_cons, hrow]
    by_cases hsold : isSoldNft nftSide item = true
    · rw [if_pos hsold, if_pos hsold, List.map_cons, List.sum_cons, ← Nat.add_assoc]
      rw [soldUnits, if_pos hsold] at hrest
      exact ⟨rfl, hpositive item List.mem_cons_self hsold, by rwa [soldUnits, if_pos hsold]⟩
    · rw [if_neg hsold, if_neg hsold, soldUnits, if_neg hsold]
      rw [soldUnits, if_neg hsold] at hrest
      exact hrest

theorem prepareFillExecution_iff :
    prepareFillExecution execution = .ok (payment, rows) ∧ payment.exclusion = none ↔
      Numbered 0 execution.items ∧ (∀ i ∈ execution.items, ValidItem i) ∧
        ∃ side, resolveFillNftSide execution.items = .ok (some side) ∧
          Priced execution.items side payment ∧ rows = unitRows (some side) 0 execution.items := by
  constructor
  · rintro ⟨h, hincluded⟩
    obtain ⟨nftSide, hresolve, h⟩ := check_bind_eq_ok.mp h
    obtain ⟨rows', hrows, h⟩ := check_bind_eq_ok.mp h
    obtain ⟨payment', hpayment, h⟩ := check_bind_eq_ok.mp h
    cases h
    obtain ⟨hnumbered, hvalid, -, rfl⟩ := prepareItems_iff.mp hrows
    obtain ⟨side, hside, hpriced⟩ := (summarizeFillPayment_iff hvalid).mp ⟨hpayment, hincluded⟩
    cases hresolve.symm.trans hside
    exact ⟨hnumbered, hvalid, side, hside, hpriced, rfl⟩
  · rintro ⟨hnumbered, hvalid, side, hside, hpriced, rfl⟩
    refine ⟨?_, hpriced.money.included⟩
    refine check_bind_eq_ok.mpr ⟨_, hside, check_bind_eq_ok.mpr ⟨_, ?_, check_bind_eq_ok.mpr ⟨payment, ?_, rfl⟩⟩⟩
    · exact prepareItems_iff.mpr ⟨hnumbered, hvalid, hpriced.positive, rfl⟩
    · exact ((summarizeFillPayment_iff hvalid).mpr ⟨side, hside, hpriced⟩).1

/-! ## 8. Permuted and forwarded items -/

section Forwarding

variable {items forwarded l : List FillExecutionItem} {side : FillItemSide} {payment : FillPayment}

theorem resolveFillNftSide_of_soldOn (hvalid : ∀ i ∈ items, ValidItem i) (h : SoldOn items side) :
    resolveFillNftSide items = .ok (some side) := by
  obtain ⟨nftSide, hresolve, hside⟩ := resolveFillNftSide_eq hvalid
  rw [hresolve, (hside side).mpr h]

theorem SameItems.validItem (h : SameItems l items) (hvalid : ∀ i ∈ items, ValidItem i) :
    ∀ i ∈ l, ValidItem i :=
  (h.forall_iff (q := ValidItem) fun _ => ⟨fun hi => ⟨hi.identifier, hi.amount⟩,
    fun hi => ⟨hi.identifier, hi.amount⟩⟩).mpr hvalid

theorem prepareFillExecution_renumber {protocolAddress : Address} (hvalid : ∀ i ∈ items, ValidItem i)
    (hpriced : Priced items side payment) (hperm : l.Perm items) :
    ∃ rows, prepareFillExecution ⟨protocolAddress, renumber 0 l⟩ = .ok (payment, rows) := by
  have hsame : SameItems (renumber 0 l) items := sameItems_renumber hperm
  have hpriced' := hsame.symm.priced hpriced
  have hvalid' := hsame.validItem hvalid
  refine ⟨_, (prepareFillExecution_iff.mpr ⟨numbered_renumber 0 l, hvalid', side, ?_, hpriced', rfl⟩).1⟩
  exact resolveFillNftSide_of_soldOn hvalid' hpriced'.sold

/-- The items hand the sold NFTs on, on the other leg. -/
structure ForwardsSold (items : List FillExecutionItem) (side : FillItemSide)
    (forwarded : List FillExecutionItem) : Prop where
  nfts : ∀ i ∈ forwarded, isFillNftItem i = true ∧ i.side = otherSide side
  same : (forwarded.map concreteNftIdentity).Perm ((nftsOn side items).map concreteNftIdentity)

theorem side_eq_or (s side : FillItemSide) : s = side ∨ s = otherSide side := by
  cases side <;> cases s <;> simp [otherSide]

theorem otherSide_otherSide (side : FillItemSide) : otherSide (otherSide side) = side := by
  cases side <;> rfl

theorem otherSide_ne (side : FillItemSide) : otherSide side ≠ side := by
  cases side <;> simp [otherSide]

theorem isSoldNft_some (i : FillExecutionItem) :
    isSoldNft (some side) i = (isFillNftItem i && decide (i.side = side)) := by
  simp [isSoldNft]

theorem filter_isSoldNft : items.filter (isSoldNft (some side)) = nftsOn side items :=
  List.filter_congr fun i _ => isSoldNft_some i

namespace ForwardsSold

variable (hvalid : ∀ i ∈ items, ValidItem i) (hpriced : Priced items side payment)
  (h : ForwardsSold items side forwarded)

include hvalid h in
theorem exists_sold {i : FillExecutionItem} (hi : i ∈ forwarded) :
    ValidItem i ∧ ∃ j ∈ nftsOn side items, nftIdentity i = nftIdentity j := by
  have hmem : concreteNftIdentity i ∈ (nftsOn side items).map concreteNftIdentity :=
    h.same.mem_iff.mp (List.mem_map_of_mem hi)
  obtain ⟨j, hj, hidentity⟩ := List.mem_map.mp hmem
  have hsold := (hvalid j (List.mem_filter.mp hj).1).concreteNftIdentity
  rw [hsold] at hidentity
  have hchecked := validItem_of_concreteNftIdentity hidentity.symm
  exact ⟨hchecked, j, hj, Except.ok.inj (hchecked.concreteNftIdentity.symm.trans hidentity.symm)⟩

include hvalid h in
theorem valid : ∀ i ∈ items ++ forwarded, ValidItem i := by
  intro i hi
  rcases List.mem_append.mp hi with hi | hi
  · exact hvalid i hi
  · exact (h.exists_sold hvalid hi).1

include hvalid h in
theorem identities : (forwarded.map nftIdentity).Perm ((nftsOn side items).map nftIdentity) := by
  have hok : ∀ l : List FillExecutionItem, (∀ i ∈ l, ValidItem i) →
      l.map concreteNftIdentity = (l.map nftIdentity).map .ok := by
    intro l hl
    rw [List.map_map]
    exact List.map_congr_left fun i hi => (hl i hi).concreteNftIdentity
  have hsame := h.same
  rw [hok forwarded fun i hi => (h.exists_sold hvalid hi).1,
    hok (nftsOn side items) fun i hi => hvalid i (List.mem_filter.mp hi).1] at hsame
  exact (List.map_perm_map_iff fun _ _ => Except.ok.inj).mp hsame

include h in
theorem nftsOn_side : nftsOn side (items ++ forwarded) = nftsOn side items := by
  have hnone : nftsOn side forwarded = [] := List.filter_eq_nil_iff.mpr fun i hi => by
    simp [(h.nfts i hi).2, otherSide_ne]
  rw [nftsOn, List.filter_append]
  change nftsOn side items ++ nftsOn side forwarded = _
  rw [hnone, List.append_nil]

include h in
theorem nftsOn_other (honly : nftsOn (otherSide side) items = []) :
    nftsOn (otherSide side) (items ++ forwarded) = forwarded := by
  have hall : nftsOn (otherSide side) forwarded = forwarded := List.filter_eq_self.mpr fun i hi => by
    simp [h.nfts i hi]
  rw [nftsOn, List.filter_append]
  change nftsOn (otherSide side) items ++ nftsOn (otherSide side) forwarded = _
  rw [honly, hall, List.nil_append]

include h in
theorem moneyOf_append : moneyOf (items ++ forwarded) = moneyOf items := by
  have hnone : moneyOf forwarded = [] := List.filter_eq_nil_iff.mpr fun i hi => by simp [(h.nfts i hi).1]
  rw [moneyOf, List.filter_append]
  change moneyOf items ++ moneyOf forwarded = _
  rw [hnone, List.append_nil]

theorem paysOn_iff {items : List FillExecutionItem} (hsupported : ∀ i ∈ items, isUnsupported i = false)
    {side : FillItemSide} : PaysOn side items ↔ ∃ i ∈ moneyOf items, i.side = side := by
  constructor
  · rintro ⟨i, hi, htype, hside⟩
    refine ⟨i, mem_moneyOf.mpr ⟨hi, ?_⟩, hside⟩
    unfold isFillNftItem
    rw [decide_eq_false_iff_not]
    omega
  · rintro ⟨i, hi, hside⟩
    obtain ⟨hmem, hmoney⟩ := mem_moneyOf.mp hi
    refine ⟨i, hmem, ?_, hside⟩
    have hkind := hsupported i hmem
    unfold isFillNftItem at hmoney
    unfold isUnsupported at hkind
    rw [decide_eq_false_iff_not] at hmoney
    rw [Bool.or_eq_false_iff, decide_eq_false_iff_not, decide_eq_false_iff_not] at hkind
    omega

include hvalid hpriced h in
theorem supported : ∀ i ∈ items ++ forwarded, isUnsupported i = false := by
  intro i hi
  rcases List.mem_append.mp hi with hi | hi
  · exact hpriced.supported i hi
  obtain ⟨-, j, hj, hidentity⟩ := h.exists_sold hvalid hi
  have htype : i.itemType = j.itemType := congrArg Prod.fst hidentity
  have hkind := hpriced.supported j (List.mem_filter.mp hj).1
  unfold isUnsupported at hkind ⊢
  rw [htype, hkind]

include hvalid hpriced h in
theorem positive : ∀ i ∈ forwarded, 0 < itemUnits i := by
  intro i hi
  obtain ⟨-, j, hj, hidentity⟩ := h.exists_sold hvalid hi
  have hunits : itemUnits i = itemUnits j := congrArg (fun key => key.2.2.2) hidentity
  rw [hunits]
  refine hpriced.positive j (List.mem_filter.mp hj).1 ?_
  rw [isSoldNft_some]
  exact (List.mem_filter.mp hj).2

include hvalid hpriced h in
theorem forwarded_ne_nil : forwarded ≠ [] := by
  rintro rfl
  have hlength := (h.identities hvalid).length_eq
  rw [List.length_map, List.length_map] at hlength
  exact hpriced.sold.nfts (List.eq_nil_of_length_eq_zero hlength.symm)

include hvalid hpriced h in
/-- **Forwarded NFTs are not paid for** where no money stands on the leg they were sold on. -/
theorem priced (honly : nftsOn (otherSide side) items = []) (hfree : ∀ i ∈ moneyOf items, i.side ≠ side) :
    Priced (items ++ forwarded) side payment := by
  have hsupported := h.supported hvalid hpriced
  refine ⟨.forwarded ?_ ?_ ⟨fun i hi _ => ?_, ?_⟩ ?_ ?_, fun i hi hsold => ?_, ?_, hsupported, ?_⟩
  · rw [h.nftsOn_side]
    exact hpriced.sold.nfts
  · rw [h.nftsOn_other honly]
    exact h.forwarded_ne_nil hvalid hpriced
  · have hkind := hsupported i hi
    unfold isUnsupported at hkind
    rw [Bool.or_eq_false_iff, decide_eq_false_iff_not, decide_eq_false_iff_not] at hkind
    omega
  · have hperm := h.identities hvalid
    cases side with
    | offer =>
      rw [h.nftsOn_side, show FillItemSide.consideration = otherSide .offer from rfl, h.nftsOn_other honly]
      exact hperm.symm
    | consideration =>
      rw [h.nftsOn_side, show FillItemSide.offer = otherSide .consideration from rfl, h.nftsOn_other honly]
      exact hperm
  · rw [paysOn_iff hsupported, h.moneyOf_append]
    obtain ⟨i, hi, hside⟩ := hpriced.money.paid
    exact ⟨i, hi, (side_eq_or i.side side).resolve_left hside⟩
  · rw [paysOn_iff hsupported, h.moneyOf_append]
    rintro ⟨i, hi, hside⟩
    exact hfree i hi hside
  · rcases List.mem_append.mp hi with hi | hi
    · exact hpriced.positive i hi hsold
    · exact h.positive hvalid hpriced i hi
  · rw [filter_isSoldNft, h.nftsOn_side, ← filter_isSoldNft]
    exact hpriced.quantity
  · rw [h.moneyOf_append]
    exact hpriced.money

include hvalid hpriced h in
theorem not_soldOn (honly : nftsOn (otherSide side) items = [])
    (hreturned : ∃ i ∈ moneyOf items, i.side = side) (s : FillItemSide) : ¬ SoldOn (items ++ forwarded) s := by
  have hsupported := h.supported hvalid hpriced
  intro hs
  rcases side_eq_or s side with rfl | rfl
  · cases hs with
    | alone _ hother =>
      rw [h.nftsOn_other honly] at hother
      exact h.forwarded_ne_nil hvalid hpriced hother
    | forwarded _ _ _ _ hfree =>
      refine hfree ((paysOn_iff hsupported).mpr ?_)
      rw [h.moneyOf_append]
      exact hreturned
  · cases hs with
    | alone _ hother =>
      rw [otherSide_otherSide, h.nftsOn_side] at hother
      exact hpriced.sold.nfts hother
    | forwarded _ _ _ _ hfree =>
      refine hfree ((paysOn_iff hsupported).mpr ?_)
      rw [h.moneyOf_append]
      obtain ⟨i, hi, hside⟩ := hpriced.money.paid
      exact ⟨i, hi, (side_eq_or i.side side).resolve_left hside⟩

include hvalid hpriced h in
theorem positive_nfts (honly : nftsOn (otherSide side) items = []) :
    ∀ i ∈ items ++ forwarded, isSoldNft none i = true → 0 < itemUnits i := by
  intro i hi hnft
  rcases List.mem_append.mp hi with hi | hi
  · have hisnft : isFillNftItem i = true := (Bool.and_eq_true_iff.mp hnft).1
    refine hpriced.positive i hi ?_
    rw [isSoldNft_some, Bool.and_eq_true, decide_eq_true_iff]
    refine ⟨hisnft, (side_eq_or i.side side).resolve_right fun hside => ?_⟩
    exact List.filter_eq_nil_iff.mp honly i hi (by simp [hisnft, hside])
  · exact h.positive hvalid hpriced i hi

include hvalid hpriced h in
/-- **Forwarded NFTs of a bid that returns money** leave the execution without a sold leg: a swap. -/
theorem swap (honly : nftsOn (otherSide side) items = []) (hreturned : ∃ i ∈ moneyOf items, i.side = side)
    {protocolAddress : Address} (hperm : l.Perm (items ++ forwarded)) :
    ∃ payment rows, prepareFillExecution ⟨protocolAddress, renumber 0 l⟩ = .ok (payment, rows) ∧
      payment.totalPrice = none := by
  have hsame : SameItems (renumber 0 l) (items ++ forwarded) := sameItems_renumber hperm
  have hvalid' := hsame.validItem (h.valid hvalid)
  have hpositive' := (hsame.forall_iff fun _ => .rfl).mpr (h.positive_nfts hvalid hpriced honly)
  obtain ⟨nftSide, hresolve, hside⟩ := resolveFillNftSide_eq hvalid'
  cases nftSide with
  | some s => exact absurd (hsame.soldOn ((hside s).mp rfl)) (h.not_soldOn hvalid hpriced honly hreturned s)
  | none =>
    obtain ⟨payment', hpayment, htotal⟩ := summarizeFillPayment_swap hvalid' hresolve
      ((hsame.forall_iff fun _ => .rfl).mpr (h.supported hvalid hpriced)) hpositive'
    have hrows : prepareItems none 0 0 (renumber 0 l) = .ok (unitRows none 0 (renumber 0 l)) :=
      prepareItems_iff.mpr ⟨numbered_renumber 0 l, hvalid', hpositive', rfl⟩
    exact ⟨payment', unitRows none 0 (renumber 0 l), check_bind_eq_ok.mpr ⟨_, hresolve, check_bind_eq_ok.mpr
      ⟨_, hrows, check_bind_eq_ok.mpr ⟨payment', hpayment, rfl⟩⟩⟩, htotal⟩

end ForwardsSold

end Forwarding

/-! ## 9. The price of a tracked fill -/

/-- What a reader asks for: the share of an item with its stored offset, where the execution is priced. -/
def itemAllocation (payment : FillPayment) (rows : List FillExecutionItemRow) (itemIndex : Nat)
    (amount : String) : Option (Except SyncError FillAllocation) :=
  match rows.find? (·.item.index = itemIndex), payment.exclusion, payment.totalPrice with
  | some row, none, some total =>
    some (allocateFillPayment total payment.nftQuantity (digitsValue amount.toList) row.unitOffset)
  | _, _, _ => none

/-- The price of a fill, joined with its execution and its item. -/
def Db.saleAllocation (db : Db) (fill : FillRow) : Option (Except SyncError FillAllocation) :=
  (db.fillExecutions.get? fill.executionId).bind fun execution =>
    itemAllocation execution.payment execution.items fill.itemIndex fill.amount

/-- The execution of the write is stored as it was prepared. -/
def StoredExecution (db : Db) (w : FillExecutionWrite) : Prop :=
  ∃ prepared, prepareFillExecution w.execution = .ok prepared ∧
    w.row prepared.1 prepared.2 ∈ db.fillExecutions

/-- The fill of the event is stored with its item. -/
def StoredFill (db : Db) (e : FillEvent) : Prop :=
  ∃ t item, fillAttributionItem e.execution e.executionItemIndex e.contract e.tokenId e.amount = .ok item ∧
    e.attribution t item ∈ db.fills ∧ StoredExecution db (e.executionWrite t)

theorem persistFillExecution_stored
    (h : Tx.Returns (persistFillExecution w) db u db') : StoredExecution db' w := by
  simp only [persistFillExecution, Tx.returns_bind, Tx.returns_check, Tx.returns_get] at h
  obtain ⟨prepared, db₁, ⟨hprepared, rfl⟩, db₂, db₃, ⟨rfl, rfl⟩, h⟩ := h
  refine ⟨prepared, hprepared, ?_⟩
  split at h
  · next existing hget =>
    obtain ⟨hsame, rfl⟩ := Tx.returns_throwIf.mp h
    rw [not_not] at hsame
    rw [← hsame]
    exact (Table.get?_eq_some.mp hget).1
  · next hget =>
    rw [Tx.returns_set] at h
    subst h
    exact Table.mem_insertOrIgnore.mpr (.inr ⟨rfl, Table.not_has_iff.mpr (Table.get?_eq_none.mp hget)⟩)

theorem persistFillAttribution_stored {fill : FillEvent} {t : Nat}
    (h : Tx.Returns (persistFillAttribution fill t) db u db') :
    ∃ item, fillAttributionItem fill.execution fill.executionItemIndex fill.contract fill.tokenId
        fill.amount = .ok item ∧ fill.attribution t item ∈ db'.fills := by
  simp only [persistFillAttribution, Tx.returns_bind, Tx.returns_check, Tx.returns_get] at h
  obtain ⟨item, db₁, ⟨hitem, rfl⟩, db₂, db₃, ⟨rfl, rfl⟩, h⟩ := h
  refine ⟨item, hitem, ?_⟩
  split at h
  · next existing hget =>
    obtain ⟨hsame, rfl⟩ := Tx.returns_throwIf.mp h
    rw [not_not] at hsame
    rw [← hsame]
    exact (Table.get?_eq_some.mp hget).1
  · next hget =>
    rw [Tx.returns_set] at h
    subst h
    exact Table.mem_insertOrIgnore.mpr (.inr ⟨rfl, Table.not_has_iff.mpr (Table.get?_eq_none.mp hget)⟩)

theorem StoredExecution.kept (h : StoredExecution db w)
    (heffect : FillsEffect events db.fillExecutions db'.fillExecutions db.fills db'.fills) :
    StoredExecution db' w := by
  obtain ⟨prepared, hprepared, hmem⟩ := h
  exact ⟨prepared, hprepared, heffect.executions_kept _ hmem⟩

theorem StoredFill.kept {e : FillEvent} (h : StoredFill db e)
    (heffect : FillsEffect events db.fillExecutions db'.fillExecutions db.fills db'.fills) :
    StoredFill db' e := by
  obtain ⟨t, item, hitem, hmem, hexecution⟩ := h
  exact ⟨t, item, hitem, heffect.fills_kept _ hmem, hexecution.kept heffect⟩

theorem StoredExecution.hasExecution (h : StoredExecution db w) :
    HasExecution db.fillExecutions w.executionId w.blockNumber w.blockHash := by
  obtain ⟨prepared, -, hmem⟩ := h
  exact ⟨_, hmem, rfl, rfl, rfl⟩

theorem persistFillsLoop_stored {blocks : List SyncBlockHeader} :
    ∀ {fills : List FillEvent} {executions : List FillExecutionWrite} {db db' : Db} {u : Unit},
      Tx.Returns (persistFillsLoop blocks executions fills) db u db' →
      (∀ e ∈ fills, e ∈ events) → (∀ w ∈ executions, StoredExecution db w) →
      ∀ e ∈ fills, StoredFill db' e
  | [], _, _, _, _, _, _, _ => List.forall_mem_nil _
  | fill :: rest, executions, db, db', u, h, hsub, hseen => by
    simp only [persistFillsLoop, Tx.returns_bind, Tx.returns_check] at h
    obtain ⟨t, db₁, ⟨-, rfl⟩, h⟩ := h
    have hfill : fill ∈ events := hsub fill List.mem_cons_self
    have hrest : ∀ e ∈ rest, e ∈ events := fun e he => hsub e (List.mem_cons_of_mem fill he)
    -- the attribution of this fill and the rest of the loop, once its execution is stored
    have hstep : ∀ {db₁ db₂ : Db} {executions : List FillExecutionWrite} {a b : Unit},
        (∀ w ∈ executions, StoredExecution db₁ w) → StoredExecution db₁ (fill.executionWrite t) →
        Tx.Returns (persistFillAttribution fill t) db₁ a db₂ →
        Tx.Returns (persistFillsLoop blocks executions rest) db₂ b db' →
        ∀ e ∈ fill :: rest, StoredFill db' e := by
      intro db₁ db₂ executions a b hstored hexecution hattribution hloop
      obtain ⟨f, hdb, heffect⟩ := persistFillAttribution_effect hattribution hfill hexecution.hasExecution
      obtain ⟨item, hitem, hmem⟩ := persistFillAttribution_stored hattribution
      subst hdb
      have hstored' : ∀ w ∈ executions, StoredExecution { db₁ with fills := f } w :=
        fun w hw => (hstored w hw).kept heffect
      have hthis : StoredFill { db₁ with fills := f } fill := ⟨t, item, hitem, hmem, hexecution.kept heffect⟩
      obtain ⟨x', f', hdb', heffect'⟩ :=
        persistFillsLoop_effect hloop hrest fun w hw => (hstored' w hw).hasExecution
      refine List.forall_mem_cons.mpr ⟨?_, persistFillsLoop_stored hloop hrest hstored'⟩
      subst hdb'
      exact hthis.kept heffect'
    split at h
    · next previous hfind =>
      simp only [Tx.returns_bind, Tx.returns_throwIf] at h
      obtain ⟨_, db₁, ⟨hsame, rfl⟩, _, db₂, hattribution, hloop⟩ := h
      rw [not_not] at hsame
      have hexecution := hseen previous (List.mem_of_find?_eq_some hfind)
      rw [hsame] at hexecution
      exact hstep hseen hexecution hattribution hloop
    · simp only [Tx.returns_bind] at h
      obtain ⟨_, db₁, hwrite, _, db₂, hattribution, hloop⟩ := h
      have hexecution := persistFillExecution_stored hwrite
      obtain ⟨x', hdb, heffect, -⟩ := persistFillExecution_effect hwrite ⟨fill, hfill, rfl, rfl⟩
      subst hdb
      refine hstep (List.forall_mem_cons.mpr ⟨hexecution, fun w hw => ?_⟩) hexecution hattribution hloop
      exact (hseen w hw).kept heffect

theorem find?_unitRows {nftSide : Option FillItemSide} {index offset k : Nat} {items : List FillExecutionItem}
    {item : FillExecutionItem} (hnumbered : Numbered index items) (hget : items[k]? = some item) :
    ∃ row, (unitRows nftSide offset items).find? (·.item.index = index + k) = some row ∧ row.item = item := by
  induction items generalizing index offset k with
  | nil => cases hget
  | cons first rest ih =>
    obtain ⟨hindex, hrest⟩ := hnumbered
    rw [unitRows]
    cases k with
    | zero =>
      rw [List.getElem?_cons_zero] at hget
      cases hget
      exact ⟨⟨item, offset⟩, List.find?_cons_of_pos (decide_eq_true hindex), rfl⟩
    | succ k =>
      rw [List.getElem?_cons_succ] at hget
      obtain ⟨row, hfind, hrow⟩ := @ih (index + 1) (offset + soldUnits nftSide first) k hrest hget
      refine ⟨row, ?_, hrow⟩
      rw [List.find?_cons_of_neg (by simp [hindex]), show index + (k + 1) = index + 1 + k by omega]
      exact hfind

theorem fillAttributionItem_eq_ok {contract : Address}
    {tokenId : TokenId} {amount : Option String}
    (hresolve : resolveFillNftSide execution.items = .ok (some side))
    (h : fillAttributionItem execution index contract tokenId amount = .ok item) :
    execution.items[index]? = some item ∧ isSoldNft (some side) item = true := by
  obtain ⟨nftSide, hside, h⟩ := check_bind_eq_ok.mp h
  cases hresolve.symm.trans hside
  split at h
  · cases h
  next item' hget =>
  split at h
  · cases h
  next hfine =>
  cases h
  refine ⟨hget, ?_⟩
  simp only [not_or, not_and, not_not] at hfine
  rw [isSoldNft_some, Bool.and_eq_true, decide_eq_true_iff]
  exact ⟨Bool.eq_true_of_not_eq_false hfine.1, Option.some.inj (hfine.2.2.1 (by simp))⟩

/-! ## 10. Conservation -/

/-- The executions that items are stored with, up to their order and numbers. -/
def FillExecution.permuted (execution : FillExecution) (items : List FillExecutionItem) : FillExecution :=
  { execution with items := renumber 0 items }

section Conservation

variable {execution : FillExecution} {payment : FillPayment} {side : FillItemSide} {total : Nat}

/-- The sold rows of an execution. -/
def soldRows (side : FillItemSide) (rows : List FillExecutionItemRow) : List FillExecutionItemRow :=
  rows.filter fun r => isSoldNft (some side) r.item

theorem Priced.tiles (h : Priced execution.items side payment) :
    Tiles (·.unitOffset) (fun r => itemUnits r.item) 0 payment.nftQuantity
      (soldRows side (unitRows (some side) 0 execution.items)) := by
  rw [h.quantity, ← Nat.zero_add ((execution.items.filter (isSoldNft (some side))).map itemUnits).sum]
  exact tiles_unitRows h.positive

theorem Priced.quantity_pos (h : Priced execution.items side payment) : 0 < payment.nftQuantity := by
  have hne : execution.items.filter (isSoldNft (some side)) ≠ [] := by
    rw [filter_isSoldNft]
    exact h.sold.nfts
  rw [h.quantity]
  cases hsold : execution.items.filter (isSoldNft (some side)) with
  | nil => exact absurd hsold hne
  | cons i rest =>
    obtain ⟨hi, hnft⟩ := List.mem_filter.mp (hsold ▸ List.mem_cons_self : i ∈ execution.items.filter _)
    have hpositive := h.positive i hi hnft
    rw [List.map_cons, List.sum_cons]
    omega

theorem Priced.prices (h : Priced execution.items side payment) (total : Nat) :
    ∃ price : FillExecutionItemRow → Int,
      let sold := soldRows side (unitRows (some side) 0 execution.items)
      (∀ r ∈ sold, ∃ allocation, allocateFillPayment total payment.nftQuantity (itemUnits r.item) r.unitOffset =
          .ok allocation ∧ allocation.attributedPrice = price r) ∧
      (sold.map price).sum = total ∧
      ∀ r ∈ sold, |(price r : ℚ) / itemUnits r.item - (total : ℚ) / payment.nftQuantity| < 1 := by
  refine ⟨fun r => share total payment.nftQuantity r.unitOffset (itemUnits r.item), fun r hr => ?_, ?_,
    fun r hr => ?_⟩
  · exact allocateFillPayment_eq (h.tiles.within hr).2.1 (h.tiles.within hr).2.2
  · have hsum := congrArg (Nat.cast : Nat → Int) (h.tiles.sum_share h.quantity_pos total)
    rw [Nat.cast_list_sum, List.map_map] at hsum
    exact hsum
  · rw [Int.cast_natCast]
    exact abs_share_sub_lt (h.tiles.within hr).2.1 (h.tiles.within hr).2.2

theorem saleAllocation_of_stored {db : Db} {e : FillEvent} {rows : List FillExecutionItemRow}
    (hnumbered : Numbered 0 execution.items) (hresolve : resolveFillNftSide execution.items = .ok (some side))
    (hprepared : prepareFillExecution execution = .ok (payment, rows))
    (hrows : rows = unitRows (some side) 0 execution.items) (hincluded : payment.exclusion = none)
    (htotal : payment.totalPrice = some total) (he : e.execution = execution) (h : StoredFill db e) :
    ∃ fill ∈ db.fills, fill.key = (e.collectionId, e.executionId, e.executionItemIndex) ∧
      ∃ r ∈ soldRows side rows, r.item.index = e.executionItemIndex ∧ db.saleAllocation fill =
        some (allocateFillPayment total payment.nftQuantity (itemUnits r.item) r.unitOffset) := by
  subst he
  obtain ⟨t, item, hitem, hfill, prepared, hprepared', hexecution⟩ := h
  cases hprepared.symm.trans hprepared'
  obtain ⟨hget, hsold⟩ := fillAttributionItem_eq_ok hresolve hitem
  obtain ⟨r, hfind, rfl⟩ := @find?_unitRows (some side) 0 0 _ _ _ hnumbered hget
  rw [Nat.zero_add, ← hrows] at hfind
  refine ⟨_, hfill, rfl, r, List.mem_filter.mpr ⟨List.mem_of_find?_eq_some hfind, hsold⟩,
    of_decide_eq_true (List.find?_some hfind :), ?_⟩
  have hstored := Table.get?_of_mem hexecution
  unfold Db.saleAllocation
  change (db.fillExecutions.get? e.executionId).bind _ = _
  change db.fillExecutions.get? e.executionId = _ at hstored
  rw [hstored]
  change itemAllocation payment rows e.executionItemIndex r.item.amount = _
  unfold itemAllocation
  rw [hfind, hincluded, htotal]
  rfl

end Conservation

/-- **Fill payments conserve wei.**  For an execution that is stored with a price:

* the sold rows tile the sold units;
* their attributed prices add up to the total price, and each is within one wei of the exact price, per unit;
* whatever else is tracked, a stored fill reads the price of its own row;
* permuting the items changes nothing of the payment;
* forwarding the sold NFTs on the other leg changes neither the total nor the quantity exactly where no money
  stands on the leg that sells them. -/
theorem fill_payment_conserved {execution : FillExecution} {payment : FillPayment}
    {rows : List FillExecutionItemRow} (hprepared : prepareFillExecution execution = .ok (payment, rows))
    (hincluded : payment.exclusion = none) :
    ∃ side total, resolveFillNftSide execution.items = .ok (some side) ∧ payment.totalPrice = some total ∧
      let sold := soldRows side rows
      -- the intervals of the sold items partition the sold units
      ((∀ r ∈ sold, 0 < itemUnits r.item ∧ r.unitOffset + itemUnits r.item ≤ payment.nftQuantity) ∧
        sold.Pairwise (fun r r' => r.unitOffset + itemUnits r.item ≤ r'.unitOffset) ∧
        ∀ unit < payment.nftQuantity, ∃ r ∈ sold, r.unitOffset ≤ unit ∧ unit < r.unitOffset + itemUnits r.item) ∧
      -- the attributed prices
      (∃ price : FillExecutionItemRow → Int,
        (∀ r ∈ sold, ∃ allocation, allocateFillPayment total payment.nftQuantity (itemUnits r.item) r.unitOffset =
            .ok allocation ∧ allocation.attributedPrice = price r) ∧
        (sold.map price).sum = total ∧
        ∀ r ∈ sold, |(price r : ℚ) / itemUnits r.item - (total : ℚ) / payment.nftQuantity| < 1) ∧
      -- the price of a tracked item
      (∀ {blocks : List SyncBlockHeader} {data : OnChainData} {db db' : Db} {u : Unit},
        Tx.Returns (persistFills blocks data) db u db' → ∀ e ∈ data.fillEvents, e.execution = execution →
          ∃ fill ∈ db'.fills, fill.key = (e.collectionId, e.executionId, e.executionItemIndex) ∧
            ∃ r ∈ sold, r.item.index = e.executionItemIndex ∧ db'.saleAllocation fill =
              some (allocateFillPayment total payment.nftQuantity (itemUnits r.item) r.unitOffset)) ∧
      -- permuted items
      (∀ items, items.Perm execution.items →
        ∃ rows', prepareFillExecution (execution.permuted items) = .ok (payment, rows')) ∧
      -- forwarded NFTs
      ∀ forwarded items, nftsOn (otherSide side) execution.items = [] →
        ForwardsSold execution.items side forwarded → items.Perm (execution.items ++ forwarded) →
        ∃ payment' rows', prepareFillExecution (execution.permuted items) = .ok (payment', rows') ∧
          (payment'.totalPrice = payment.totalPrice ∧ payment'.nftQuantity = payment.nftQuantity ↔
            ∀ i ∈ execution.items, isFillNftItem i = false → i.side ≠ side) := by
  obtain ⟨hnumbered, hvalid, side, hresolve, hpriced, hrows⟩ :=
    prepareFillExecution_iff.mp ⟨hprepared, hincluded⟩
  have htiles := hpriced.tiles
  rw [← hrows] at htiles
  obtain ⟨total, htotal⟩ : ∃ total, payment.totalPrice = some total := ⟨_, hpriced.money.total⟩
  refine ⟨side, total, hresolve, htotal, ⟨fun r hr => (htiles.within hr).2, htiles.pairwise,
    fun unit hunit => htiles.covers (Nat.zero_le _) hunit⟩, ?_, ?_, ?_, ?_⟩
  · obtain ⟨price, hprice⟩ := hpriced.prices total
    rw [← hrows] at hprice
    exact ⟨price, hprice⟩
  · intro blocks data db db' u h e he hexecution
    have hstored := persistFillsLoop_stored h (fun _ he => he) (List.forall_mem_nil _) e he
    exact saleAllocation_of_stored hnumbered hresolve hprepared hrows hincluded htotal hexecution hstored
  · intro items hperm
    exact prepareFillExecution_renumber hvalid hpriced hperm
  intro forwarded items honly hforwards hperm
  by_cases hfree : ∀ i ∈ execution.items, isFillNftItem i = false → i.side ≠ side
  · have hpriced' := hforwards.priced hvalid hpriced honly fun i hi =>
      hfree i (mem_moneyOf.mp hi).1 (mem_moneyOf.mp hi).2
    obtain ⟨rows', h⟩ := @prepareFillExecution_renumber _ _ _ _ execution.protocolAddress
      (hforwards.valid hvalid) hpriced' hperm
    exact ⟨payment, rows', h, iff_of_true ⟨rfl, rfl⟩ hfree⟩
  · have hreturned : ∃ i ∈ moneyOf execution.items, i.side = side := by
      push Not at hfree
      obtain ⟨i, hi, hmoney, hside⟩ := hfree
      exact ⟨i, mem_moneyOf.mpr ⟨hi, hmoney⟩, hside⟩
    obtain ⟨payment', rows', h, hnone⟩ := hforwards.swap hvalid hpriced honly hreturned hperm
    refine ⟨payment', rows', h, iff_of_false (fun hsame => ?_) hfree⟩
    rw [hnone, htotal] at hsame
    exact nomatch hsame.1

/-- Two NFTs, one of them twice, for seven wei. -/
def saleOfThree : FillExecution :=
  ⟨9, [⟨0, .offer, 2, 1, "4", "1", none⟩, ⟨1, .offer, 3, 1, "5", "2", none⟩,
    ⟨2, .consideration, 0, 0, "0", "7", none⟩]⟩

theorem fill_payment_conserved_three :
    ∃ payment rows, prepareFillExecution saleOfThree = .ok (payment, rows) ∧ payment.exclusion = none ∧
      ∃ side total, payment.totalPrice = some total ∧
        ∃ price : FillExecutionItemRow → Int, ((soldRows side rows).map price).sum = total := by
  have hprepared : prepareFillExecution saleOfThree = .ok (⟨none, some 7, some 0, 3⟩,
      [⟨⟨0, .offer, 2, 1, "4", "1", none⟩, 0⟩, ⟨⟨1, .offer, 3, 1, "5", "2", none⟩, 1⟩,
        ⟨⟨2, .consideration, 0, 0, "0", "7", none⟩, 3⟩]) := by rfl
  obtain ⟨side, total, -, htotal, -, ⟨price, -, hsum, -⟩, -⟩ := fill_payment_conserved hprepared rfl
  exact ⟨_, _, hprepared, rfl, side, total, htotal, price, hsum⟩

/-- A bid of ten wei that returns one of them as a fee. -/
def bidWithFee : FillExecution :=
  ⟨9, [⟨0, .offer, 1, 8, "0", "10", none⟩, ⟨1, .consideration, 2, 1, "4", "1", none⟩,
    ⟨2, .consideration, 1, 8, "0", "1", none⟩]⟩

/-- The NFT of the bid, handed on from the other leg. -/
def forwardedNft : FillExecutionItem := ⟨0, .offer, 2, 1, "4", "1", none⟩

/-- **Forwarding can take the price away:** with money on both legs the sold one is not told. -/
theorem forwarded_bid_unpriced :
    ∃ payment rows payment' rows', prepareFillExecution bidWithFee = .ok (payment, rows) ∧
      payment.exclusion = none ∧ resolveFillNftSide bidWithFee.items = .ok (some .consideration) ∧
      nftsOn .offer bidWithFee.items = [] ∧ ForwardsSold bidWithFee.items .consideration [forwardedNft] ∧
      prepareFillExecution (bidWithFee.permuted (bidWithFee.items ++ [forwardedNft])) = .ok (payment', rows') ∧
      payment'.totalPrice ≠ payment.totalPrice ∧ payment'.nftQuantity ≠ payment.nftQuantity := by
  refine ⟨⟨none, some 10, some 8, 1⟩, _, ⟨some .swap, none, none, 2⟩, _, rfl, rfl, rfl, rfl,
    ⟨by decide, .refl _⟩, rfl, by decide, by decide⟩

end Artgod.Indexer
