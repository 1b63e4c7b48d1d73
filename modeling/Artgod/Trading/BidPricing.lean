/-
# The price of a bid

The marketplace takes unit prices on a grid whose step grows with the price; `roundDown_isGreatest` and
`roundUp_isLeast` are all that is used of it.  The bid that a job wants stands between the configured bounds
rounded into the grid, the ceiling no higher than the balance of the maker.
-/
import Mathlib.Order.Bounds.Basic
import Artgod.Trading.BiddingMandate

namespace Artgod.Trading

/-! ## 1. Valid prices -/

section

variable (amountWei : Int)

/-- The step of an amount that is not negative. -/
def priceStep : Int :=
  if 1000000000000000000 ≤ amountWei then 10000000000000000
  else if 100000000000000000 ≤ amountWei then 1000000000000000
  else 100000000000000

def getOpenSeaOfferPriceStepWei : Except String Int :=
  if amountWei < 0 then .error "Offer price must be non-negative" else .ok (priceStep amountWei)

def roundOpenSeaOfferPriceDown : Except String Int := do
  let stepWei ← getOpenSeaOfferPriceStepWei amountWei
  return amountWei / stepWei * stepWei

def roundOpenSeaOfferPriceUp : Except String Int := do
  let stepWei ← getOpenSeaOfferPriceStepWei amountWei
  return (amountWei + stepWei - 1) / stepWei * stepWei

/-- A price that rounding leaves as it is. -/
def ValidPrice : Prop := roundOpenSeaOfferPriceDown amountWei = .ok amountWei

end

variable {amountWei : Int}

theorem validPrice_iff :
    ValidPrice amountWei ↔ 0 ≤ amountWei ∧ amountWei % priceStep amountWei = 0 := by
  have hstep : priceStep amountWei ≠ 0 := by
    unfold priceStep
    split
    · decide
    · split <;> decide
  unfold ValidPrice roundOpenSeaOfferPriceDown getOpenSeaOfferPriceStepWei
  by_cases hneg : amountWei < 0
  · rw [if_pos hneg]
    exact iff_of_false (fun h => nomatch h) fun h => absurd h.1 (by omega)
  · rw [if_neg hneg]
    constructor
    · intro h
      have heq : amountWei / priceStep amountWei * priceStep amountWei = amountWei := Except.ok.inj h
      exact ⟨by omega, Int.emod_eq_zero_of_dvd ⟨_, by rw [mul_comm]; exact heq.symm⟩⟩
    · rintro ⟨-, hmod⟩
      exact congrArg Except.ok (Int.ediv_mul_cancel (Int.dvd_of_emod_eq_zero hmod))

theorem roundDown_isGreatest {price : Int} (h : roundOpenSeaOfferPriceDown amountWei = .ok price) :
    IsGreatest {v | ValidPrice v ∧ v ≤ amountWei} price := by
  obtain ⟨step, hstep, hprice⟩ := bind_eq_ok.mp h
  unfold getOpenSeaOfferPriceStepWei at hstep
  rw [ite_error_eq_ok, Except.ok.injEq] at hstep
  obtain ⟨hneg, rfl⟩ := hstep
  cases hprice
  refine ⟨⟨validPrice_iff.mpr ?_, ?_⟩, fun v hv => ?_⟩
  · unfold priceStep
    split_ifs <;> omega
  · unfold priceStep
    split_ifs <;> omega
  · obtain ⟨hvalid, hle⟩ := hv
    obtain ⟨hv, hmod⟩ := validPrice_iff.mp hvalid
    unfold priceStep at hmod ⊢
    split_ifs at hmod ⊢ <;> omega

theorem roundUp_isLeast {price : Int} (h : roundOpenSeaOfferPriceUp amountWei = .ok price) :
    IsLeast {v | ValidPrice v ∧ amountWei ≤ v} price := by
  obtain ⟨step, hstep, hprice⟩ := bind_eq_ok.mp h
  unfold getOpenSeaOfferPriceStepWei at hstep
  rw [ite_error_eq_ok, Except.ok.injEq] at hstep
  obtain ⟨hneg, rfl⟩ := hstep
  cases hprice
  refine ⟨⟨validPrice_iff.mpr ?_, ?_⟩, fun v hv => ?_⟩
  · unfold priceStep
    split_ifs <;> omega
  · unfold priceStep
    split_ifs <;> omega
  · obtain ⟨hvalid, hle⟩ := hv
    obtain ⟨hv, hmod⟩ := validPrice_iff.mp hvalid
    unfold priceStep at hmod ⊢
    split_ifs at hmod ⊢ <;> omega

theorem roundOpenSeaOfferPriceDown_ok (h : 0 ≤ amountWei) :
    ∃ price, roundOpenSeaOfferPriceDown amountWei = .ok price := by
  unfold roundOpenSeaOfferPriceDown getOpenSeaOfferPriceStepWei
  rw [if_neg (not_lt.mpr h)]
  exact ⟨_, rfl⟩

theorem roundOpenSeaOfferPriceUp_ok (h : 0 ≤ amountWei) :
    ∃ price, roundOpenSeaOfferPriceUp amountWei = .ok price := by
  unfold roundOpenSeaOfferPriceUp getOpenSeaOfferPriceStepWei
  rw [if_neg (not_lt.mpr h)]
  exact ⟨_, rfl⟩

/-- The amounts that are a multiple of the step of the tier they fall in. -/
def priceGrid : Set Int := {v | 0 ≤ v ∧ v % priceStep v = 0}

theorem mem_priceGrid {v : Int} : v ∈ priceGrid ↔ ValidPrice v := validPrice_iff.symm

/-- **Rounding stays on the grid**, across the tiers: down to the greatest price of the grid at or below an
amount, up to the least one at or above it.  Both leave a price of the grid as it is, and keep the order of
amounts. -/
theorem openSea_rounding (amountWei : Nat) :
    ∃ down up, roundOpenSeaOfferPriceDown amountWei = .ok down ∧ roundOpenSeaOfferPriceUp amountWei = .ok up ∧
      IsGreatest {v | v ∈ priceGrid ∧ v ≤ amountWei} down ∧
      IsLeast {v | v ∈ priceGrid ∧ (amountWei : Int) ≤ v} up ∧
      down ≤ amountWei ∧ (amountWei : Int) ≤ up ∧
      roundOpenSeaOfferPriceDown down = .ok down ∧ roundOpenSeaOfferPriceUp up = .ok up ∧
      ∀ other : Nat, amountWei ≤ other →
        (∀ down', roundOpenSeaOfferPriceDown other = .ok down' → down ≤ down') ∧
          ∀ up', roundOpenSeaOfferPriceUp other = .ok up' → up ≤ up' := by
  obtain ⟨down, hdown⟩ := roundOpenSeaOfferPriceDown_ok (Int.natCast_nonneg amountWei)
  obtain ⟨up, hup⟩ := roundOpenSeaOfferPriceUp_ok (Int.natCast_nonneg amountWei)
  have hgreatest := roundDown_isGreatest hdown
  have hleast := roundUp_isLeast hup
  have hupNonneg : 0 ≤ up := (validPrice_iff.mp hleast.1.1).1
  obtain ⟨again, hagain⟩ := roundOpenSeaOfferPriceUp_ok hupNonneg
  have hidempotent : again = up := (roundUp_isLeast hagain).unique ⟨⟨hleast.1.1, le_refl up⟩, fun v hv => hv.2⟩
  simp only [mem_priceGrid]
  refine ⟨down, up, hdown, hup, hgreatest, hleast, hgreatest.1.2, hleast.1.2, hgreatest.1.1,
    hidempotent ▸ hagain, fun other hle => ⟨fun down' hdown' => ?_, fun up' hup' => ?_⟩⟩
  · refine hgreatest.mono (roundDown_isGreatest hdown') fun v hv => ⟨hv.1, hv.2.trans ?_⟩
    exact_mod_cast hle
  · refine (roundUp_isLeast hup').mono hleast fun v hv => ⟨hv.1, le_trans ?_ hv.2⟩
    exact_mod_cast hle

theorem validPrice_zero : ValidPrice 0 := validPrice_iff.mpr ⟨le_refl 0, by decide⟩

/-! ## 2. Floor, ceiling and bid -/

section Bid

def getEffectiveCeiling (cachedMakerWethBalance : Option Int) (configuredCeiling configuredFloor : Int) :
    Except String Int := do
  let limit := match cachedMakerWethBalance with
    | some balance => if balance < configuredCeiling then balance else configuredCeiling
    | none => configuredCeiling
  let ceiling ← roundOpenSeaOfferPriceDown limit
  let canFundConfiguredFloor : Bool := match cachedMakerWethBalance with
    | some balance => configuredFloor ≤ balance
    | none => true
  -- the floor is only rounded when the maker could pay for it
  if canFundConfiguredFloor then
    let floor ← roundOpenSeaOfferPriceUp configuredFloor
    if ceiling < floor then return 0 else return ceiling
  else return ceiling

def getEffectiveFloor (configuredFloor effectiveCeiling : Int) : Except String Int := do
  let floor ← roundOpenSeaOfferPriceUp configuredFloor
  return if floor < effectiveCeiling then floor else effectiveCeiling

def getDesiredBid (floor ceiling competitorPrice delta : Int) : Except String Int := do
  let desiredPrice := competitorPrice + delta
  let desiredPrice ← roundOpenSeaOfferPriceUp (if desiredPrice < floor then floor else desiredPrice)
  return if desiredPrice > ceiling then ceiling else desiredPrice

variable {ceiling competitorPrice configuredCeiling configuredFloor delta : Int}
  {balance : Option Int}

/-- **The effective ceiling is a valid price,** no higher than the configured one or the balance. -/
theorem getEffectiveCeiling_spec
    (h : getEffectiveCeiling balance configuredCeiling configuredFloor = .ok ceiling) :
    ValidPrice ceiling ∧ (0 < ceiling → ceiling ≤ configuredCeiling ∧ ∀ b, balance = some b → ceiling ≤ b) := by
  obtain ⟨limit, hlimit⟩ : ∃ limit, (match balance with
    | some balance => if balance < configuredCeiling then balance else configuredCeiling
    | none => configuredCeiling) = limit := ⟨_, rfl⟩
  have hbounds : limit ≤ configuredCeiling ∧ ∀ b, balance = some b → limit ≤ b := by
    rw [← hlimit]
    cases balance with
    | none => exact ⟨le_refl _, fun b hb => nomatch hb⟩
    | some b =>
      dsimp only
      split
      · next hlt => exact ⟨hlt.le, fun b' hb' => (Option.some.inj hb').le⟩
      · next hge => exact ⟨le_refl _, fun b' hb' => Option.some.inj hb' ▸ not_lt.mp hge⟩
  obtain ⟨canFund, hcan⟩ : ∃ canFund : Bool, (match balance with
    | some balance => decide (configuredFloor ≤ balance)
    | none => true) = canFund := ⟨_, rfl⟩
  unfold getEffectiveCeiling at h
  dsimp only at h
  rw [hlimit, hcan] at h
  obtain ⟨rounded, hrounded, h⟩ := bind_eq_ok.mp h
  obtain ⟨⟨hvalid, hle⟩, -⟩ := roundDown_isGreatest hrounded
  have hspec : ValidPrice rounded ∧
      (0 < rounded → rounded ≤ configuredCeiling ∧ ∀ b, balance = some b → rounded ≤ b) :=
    ⟨hvalid, fun _ => ⟨hle.trans hbounds.1, fun b hb => hle.trans (hbounds.2 b hb)⟩⟩
  cases canFund with
  | false =>
    cases h
    exact hspec
  | true =>
    obtain ⟨floor, -, h⟩ := bind_eq_ok.mp h
    split at h
    · cases h
      exact ⟨validPrice_zero, fun hpos => absurd hpos (lt_irrefl 0)⟩
    · cases h
      exact hspec

/-- The effective floor is a valid price where the ceiling is one: the configured floor rounded up, or the
ceiling if that is lower. -/
theorem getEffectiveFloor_spec {floor : Int}
    (h : getEffectiveFloor configuredFloor ceiling = .ok floor) :
    floor ≤ ceiling ∧ (ValidPrice ceiling → ValidPrice floor ∧ (configuredFloor ≤ ceiling → configuredFloor ≤ floor)) := by
  obtain ⟨rounded, hrounded, hpure⟩ := bind_eq_ok.mp h
  cases hpure
  obtain ⟨⟨hvalid, hge⟩, hleast⟩ := roundUp_isLeast hrounded
  split
  · next hlt => exact ⟨hlt.le, fun _ => ⟨hvalid, fun _ => hge⟩⟩
  · exact ⟨le_refl _, fun hceiling => ⟨hceiling, fun hallowed => hallowed⟩⟩

/-- The bid is a valid price between floor and ceiling, and beats the competitor by the delta unless the
ceiling is in the way. -/
theorem getDesiredBid_spec {floor desiredPrice : Int}
    (h : getDesiredBid floor ceiling competitorPrice delta = .ok desiredPrice) (hceiling : ValidPrice ceiling)
    (hfloor : floor ≤ ceiling) :
    ValidPrice desiredPrice ∧ floor ≤ desiredPrice ∧ desiredPrice ≤ ceiling ∧
      (competitorPrice + delta ≤ desiredPrice ∨ desiredPrice = ceiling) := by
  obtain ⟨rounded, hrounded, hpure⟩ := bind_eq_ok.mp h
  cases hpure
  obtain ⟨⟨hvalid, hge⟩, -⟩ := roundUp_isLeast hrounded
  have hwanted : competitorPrice + delta ≤ rounded ∧ floor ≤ rounded := by
    split at hge
    · next hlt => exact ⟨hlt.le.trans hge, hge⟩
    · next hlt => exact ⟨hge, (not_lt.mp hlt).trans hge⟩
  split
  · exact ⟨hceiling, hfloor, le_refl _, .inr rfl⟩
  · next hle => exact ⟨hvalid, hwanted.2, not_lt.mp hle, .inl hwanted.1⟩

/-- The bid that a range of prices wants: the effective bounds, and the price between them. -/
structure PriceRange where
  ceiling : Int
  floor : Int
  desiredPrice : Int

/-- What a job wants to pay against the best competitor. -/
def resolvePrices (cachedMakerWethBalance : Option Int)
    (configuredFloor configuredCeiling competitorPrice delta : Int) : Except String PriceRange := do
  let ceiling ← getEffectiveCeiling cachedMakerWethBalance configuredCeiling configuredFloor
  let floor ← getEffectiveFloor configuredFloor ceiling
  let desiredPrice ← getDesiredBid floor ceiling competitorPrice delta
  return ⟨ceiling, floor, desiredPrice⟩

/-- **What is asked of a bid:** it is a valid price, affordable and within the configured range as far as the
effective ceiling allows, and it beats the best competitor by the delta unless it is capped. -/
structure LawfulBid (cachedMakerWethBalance : Option Int)
    (configuredFloor configuredCeiling competitorPrice delta ceiling price : Int) : Prop where
  positive : 0 < price
  valid : ValidPrice price
  ceiling_le : price ≤ configuredCeiling
  affordable : ∀ balance, cachedMakerWethBalance = some balance → price ≤ balance
  floor_le : configuredFloor ≤ ceiling → configuredFloor ≤ price
  beats : competitorPrice + delta ≤ price ∨ price = ceiling

theorem resolvePrices_lawful {prices : PriceRange}
    (h : resolvePrices balance configuredFloor configuredCeiling competitorPrice delta = .ok prices)
    (hpos : 0 < prices.desiredPrice) :
    LawfulBid balance configuredFloor configuredCeiling competitorPrice delta prices.ceiling
      prices.desiredPrice := by
  obtain ⟨ceiling, hceiling, h⟩ := bind_eq_ok.mp h
  obtain ⟨floor, hfloor, h⟩ := bind_eq_ok.mp h
  obtain ⟨desiredPrice, hdesired, hpure⟩ := bind_eq_ok.mp h
  cases hpure
  obtain ⟨hvalid, hbounds⟩ := getEffectiveCeiling_spec hceiling
  obtain ⟨hle, hfloors⟩ := getEffectiveFloor_spec hfloor
  obtain ⟨hprice, hge, hcapped, hbeats⟩ := getDesiredBid_spec hdesired hvalid hle
  obtain ⟨hceilingLe, hbalance⟩ := hbounds (lt_of_lt_of_le hpos hcapped)
  exact {
    positive := hpos
    valid := hprice
    ceiling_le := hcapped.trans hceilingLe
    affordable := fun b hb => hcapped.trans (hbalance b hb)
    floor_le := fun hallowed => ((hfloors hvalid).2 hallowed).trans hge
    beats := hbeats }

end Bid

end Artgod.Trading
