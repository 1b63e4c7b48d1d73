/-
# Paging through the blockspace grid

A page of the coverage grid (`get-sync-backfill-state.ts`) shows a range of blocks in cells of one bucket size, a
power of the cell count.  A cell is drilled down by requesting its range with the next smaller bucket size.
-/
import Artgod.ReadModels.BlockspaceCoverage
import Mathlib.Data.Rat.Floor
import Mathlib.Tactic.FieldSimp

namespace Artgod.ReadModels

/-! ## 1. Pages -/

def BLOCKSPACE_GRID_CELL_COUNT : Nat := 32 * 32

/-- The query parameters, numbers that need not be integers. -/
structure PageInput where
  pageStartBlock : Option Rat
  bucketSize : Option Rat

/-- `SyncBackfillCoveragePage`. -/
structure CoveragePage extends CoverageRange where
  bucketSize : Nat
  gridCellCount : Nat

/-- The loop of `resolveRootBucketSize` at the bucket size `1024 ^ k`. -/
def rootBucketSizeFrom (blockCount : Int) (k : Nat) : Nat :=
  if BLOCKSPACE_GRID_CELL_COUNT < ⌈(blockCount : Rat) / (BLOCKSPACE_GRID_CELL_COUNT ^ k : Nat)⌉ then
    rootBucketSizeFrom blockCount (k + 1)
  else BLOCKSPACE_GRID_CELL_COUNT ^ k
termination_by blockCount.toNat - BLOCKSPACE_GRID_CELL_COUNT ^ k
decreasing_by
  rename_i hmore
  have hpos : 0 < BLOCKSPACE_GRID_CELL_COUNT ^ k := Nat.pow_pos (by decide)
  rw [Int.lt_ceil, lt_div_iff₀ (by exact_mod_cast hpos)] at hmore
  have hmore : (BLOCKSPACE_GRID_CELL_COUNT * BLOCKSPACE_GRID_CELL_COUNT ^ k : Nat) < blockCount := by
    exact_mod_cast hmore
  rw [Nat.pow_succ, Nat.mul_comm]
  unfold BLOCKSPACE_GRID_CELL_COUNT at *
  omega

def resolveRootBucketSize (headBlock genesisBlock : Int) : Nat :=
  rootBucketSizeFrom (headBlock - genesisBlock + 1) 0

def countRootGridCells (headBlock genesisBlock : Int) (bucketSize : Nat) : Nat :=
  (max 1 ⌈((headBlock - genesisBlock + 1 : Int) : Rat) / bucketSize⌉).toNat

def resolvePageSpan (bucketSize : Nat) : Nat := bucketSize * BLOCKSPACE_GRID_CELL_COUNT

def isPowerOfGridCellCount (remaining : Nat) : Bool :=
  if 1 < remaining then
    if remaining % BLOCKSPACE_GRID_CELL_COUNT ≠ 0 then false
    else isPowerOfGridCellCount (remaining / BLOCKSPACE_GRID_CELL_COUNT)
  else true
termination_by remaining
decreasing_by exact Nat.div_lt_self (by omega) (by decide)

def assertBlockNumber (value : Rat) (field : String) (genesisBlock : Int) : Except String Unit :=
  if value.den ≠ 1 ∨ value < genesisBlock then .error (field ++ " must be a block number") else .ok ()

def assertBucketSize (value : Rat) (rootBucketSize : Nat) : Except String Unit :=
  if value.den ≠ 1 ∨ value < 1 ∨ rootBucketSize < value ∨ !isPowerOfGridCellCount value.num.toNat then
    .error "bucket_size is invalid"
  else .ok ()

def resolveCoveragePage (headBlock genesisBlock : Int) (input : PageInput) : Except String CoveragePage :=
  let rootBucketSize := resolveRootBucketSize headBlock genesisBlock
  match input.pageStartBlock, input.bucketSize with
  | none, none =>
    .ok ⟨⟨genesisBlock, headBlock⟩, rootBucketSize, countRootGridCells headBlock genesisBlock rootBucketSize⟩
  | some pageStartBlock, some bucketSize => do
    assertBlockNumber pageStartBlock "page_start" genesisBlock
    assertBucketSize bucketSize rootBucketSize
    if headBlock < pageStartBlock then throw "page_start must be <= head block"
    let pageSpan := resolvePageSpan bucketSize.num.toNat
    if (pageStartBlock.num - genesisBlock) % pageSpan ≠ 0 then throw "page_start must align to bucket_size"
    return ⟨⟨pageStartBlock.num, min (pageStartBlock.num + pageSpan - 1) headBlock⟩, bucketSize.num.toNat,
      BLOCKSPACE_GRID_CELL_COUNT⟩
  | _, _ => .error "page_start and bucket_size must be provided together"

/-- One turn of the loop of `buildGridRanges`. -/
def CoveragePage.cell (page : CoveragePage) (index : Nat) : CoverageRange :=
  let start := page.fromBlock + index * page.bucketSize
  if page.toBlock < start then ⟨start, start - 1⟩ else ⟨start, min page.toBlock (start + page.bucketSize - 1)⟩

def buildGridRanges (page : CoveragePage) : List CoverageRange := (List.range page.gridCellCount).map page.cell

/-! ## 2. Drilling down -/

def nonEmptyCells (page : CoveragePage) : List CoverageRange :=
  (buildGridRanges page).filter fun cell => cell.fromBlock ≤ cell.toBlock

/-- The request that drills down into a cell. -/
def CoveragePage.drill (page : CoveragePage) (cell : CoverageRange) : PageInput :=
  ⟨some cell.fromBlock, some (page.bucketSize / BLOCKSPACE_GRID_CELL_COUNT)⟩

/-- The pages that are reached from the root page by drilling down. -/
inductive Drilled (headBlock genesisBlock : Int) : CoveragePage → Prop
  | root {page : CoveragePage} (hpage : resolveCoveragePage headBlock genesisBlock ⟨none, none⟩ = .ok page) :
      Drilled headBlock genesisBlock page
  | cell {page child : CoveragePage} {cell : CoverageRange} (h : Drilled headBlock genesisBlock page)
      (hsize : 1 < page.bucketSize) (hcell : cell ∈ nonEmptyCells page)
      (hchild : resolveCoveragePage headBlock genesisBlock (page.drill cell) = .ok child) :
      Drilled headBlock genesisBlock child

/-- What every accepted page satisfies, with `1024 ^ k` as its bucket size. -/
structure PageOf (headBlock genesisBlock : Int) (k : Nat) (page : CoveragePage) : Prop where
  bucketSize : page.bucketSize = BLOCKSPACE_GRID_CELL_COUNT ^ k
  small : page.bucketSize ≤ resolveRootBucketSize headBlock genesisBlock
  above : genesisBlock ≤ page.fromBlock
  aligned : (resolvePageSpan page.bucketSize : Int) ∣ page.fromBlock - genesisBlock
  toBlock : page.toBlock = min (page.fromBlock + resolvePageSpan page.bucketSize - 1) headBlock
  nonempty : page.fromBlock ≤ page.toBlock
  cells : page.gridCellCount ≤ BLOCKSPACE_GRID_CELL_COUNT
  filled : page.toBlock < page.fromBlock + page.gridCellCount * page.bucketSize

/-! ## 3. Bucket sizes -/

variable {headBlock genesisBlock block : Int} {page : CoveragePage} {cell : CoverageRange} {k n : Nat}

theorem cellCount_pow_pos : 0 < BLOCKSPACE_GRID_CELL_COUNT ^ k := Nat.pow_pos (by decide)

theorem exists_rootBucketSize (blockCount : Int) (k : Nat) :
    ∃ j, rootBucketSizeFrom blockCount k = BLOCKSPACE_GRID_CELL_COUNT ^ j ∧
      ⌈(blockCount : Rat) / (BLOCKSPACE_GRID_CELL_COUNT ^ j : Nat)⌉ ≤ BLOCKSPACE_GRID_CELL_COUNT := by
  fun_induction rootBucketSizeFrom blockCount k with
  | case1 k _ ih => exact ih
  | case2 k hless => exact ⟨k, rfl, Int.not_lt.mp hless⟩

theorem isPowerOfGridCellCount_iff (hn : 0 < n) :
    isPowerOfGridCellCount n ↔ ∃ k, n = BLOCKSPACE_GRID_CELL_COUNT ^ k := by
  fun_induction isPowerOfGridCellCount n with
  | case1 n hmore hmod =>
    refine iff_of_false (by decide) fun ⟨k, hk⟩ => ?_
    cases k with
    | zero => exact absurd hk (by simpa using hmore.ne')
    | succ k => exact hmod (hk ▸ Nat.mul_mod_left _ _)
  | case2 n hmore hmod ih =>
    have hdvd := Nat.dvd_of_mod_eq_zero (not_ne_iff.mp hmod)
    rw [ih (Nat.div_pos (Nat.le_of_dvd hn hdvd) (by decide))]
    constructor
    · rintro ⟨k, hk⟩
      exact ⟨k + 1, by rw [Nat.pow_succ, ← hk, Nat.div_mul_cancel hdvd]⟩
    rintro ⟨k, hk⟩
    cases k with
    | zero => exact absurd hk (by simpa using hmore.ne')
    | succ k => exact ⟨k, by rw [hk, Nat.pow_succ, Nat.mul_div_cancel _ (by decide)]⟩
  | case3 n hless => exact iff_of_true rfl ⟨0, by rw [Nat.pow_zero]; omega⟩

/-! ## 4. Accepted pages -/

theorem assertBlockNumber_eq_ok {value : Rat} {field : String} :
    assertBlockNumber value field genesisBlock = .ok () ↔ ∃ b : Int, value = b ∧ genesisBlock ≤ b := by
  unfold assertBlockNumber
  constructor
  · intro h
    split at h
    · cases h
    case isFalse hvalid =>
      push Not at hvalid
      refine ⟨value.num, (Rat.den_eq_one_iff _).mp hvalid.1 |>.symm, ?_⟩
      have hle := hvalid.2
      rw [← (Rat.den_eq_one_iff _).mp hvalid.1] at hle
      exact_mod_cast hle
  · rintro ⟨b, rfl, hle⟩
    exact if_neg (by simpa using hle)

theorem assertBucketSize_eq_ok {value : Rat} {rootBucketSize : Nat} :
    assertBucketSize value rootBucketSize = .ok () ↔
      ∃ k, value = (BLOCKSPACE_GRID_CELL_COUNT ^ k : Nat) ∧ BLOCKSPACE_GRID_CELL_COUNT ^ k ≤ rootBucketSize := by
  unfold assertBucketSize
  constructor
  · intro h
    split at h
    · cases h
    case isFalse hvalid =>
      push Not at hvalid
      obtain ⟨hden, hone, hroot, hpower⟩ := hvalid
      have hvalue := (Rat.den_eq_one_iff _).mp hden
      rw [← hvalue] at hone hroot
      have hone : 1 ≤ value.num := by exact_mod_cast hone
      obtain ⟨k, hk⟩ := (@isPowerOfGridCellCount_iff value.num.toNat (by omega)).mp (by simpa using hpower)
      have hnum : value.num = (BLOCKSPACE_GRID_CELL_COUNT ^ k : Nat) := by rw [← hk, Int.toNat_of_nonneg (by omega)]
      rw [hnum] at hroot
      exact ⟨k, by rw [← hvalue, hnum]; simp, by exact_mod_cast hroot⟩
  · rintro ⟨k, rfl, hroot⟩
    have hpos := @cellCount_pow_pos k
    refine if_neg ?_
    push Not
    refine ⟨Rat.den_natCast _, by exact_mod_cast hpos, by exact_mod_cast hroot, ?_⟩
    rw [Rat.num_natCast, Int.toNat_natCast, (isPowerOfGridCellCount_iff hpos).mpr ⟨k, rfl⟩]
    decide

theorem resolveCoveragePage_checked (hblock : genesisBlock ≤ block)
    (hroot : BLOCKSPACE_GRID_CELL_COUNT ^ k ≤ resolveRootBucketSize headBlock genesisBlock) :
    resolveCoveragePage headBlock genesisBlock ⟨some block, some (BLOCKSPACE_GRID_CELL_COUNT ^ k : Nat)⟩
      = if headBlock < block then .error "page_start must be <= head block"
        else if ¬(resolvePageSpan (BLOCKSPACE_GRID_CELL_COUNT ^ k) : Int) ∣ block - genesisBlock then
          .error "page_start must align to bucket_size"
        else .ok ⟨⟨block, min (block + resolvePageSpan (BLOCKSPACE_GRID_CELL_COUNT ^ k) - 1) headBlock⟩,
          BLOCKSPACE_GRID_CELL_COUNT ^ k, BLOCKSPACE_GRID_CELL_COUNT⟩ := by
  unfold resolveCoveragePage
  dsimp only
  rw [assertBlockNumber_eq_ok.mpr ⟨block, rfl, hblock⟩, assertBucketSize_eq_ok.mpr ⟨k, rfl, hroot⟩]
  simp only [Rat.num_intCast, Rat.num_natCast, Int.toNat_natCast, Rat.intCast_lt_intCast,
    Int.dvd_iff_emod_eq_zero]
  rfl

theorem resolveCoveragePage_eq_ok {start size : Rat} :
    resolveCoveragePage headBlock genesisBlock ⟨some start, some size⟩ = .ok page ↔
      ∃ (b : Int) (k : Nat), start = b ∧ size = (BLOCKSPACE_GRID_CELL_COUNT ^ k : Nat) ∧ genesisBlock ≤ b ∧
        b ≤ headBlock ∧ BLOCKSPACE_GRID_CELL_COUNT ^ k ≤ resolveRootBucketSize headBlock genesisBlock ∧
        (resolvePageSpan (BLOCKSPACE_GRID_CELL_COUNT ^ k) : Int) ∣ b - genesisBlock ∧
        page = ⟨⟨b, min (b + resolvePageSpan (BLOCKSPACE_GRID_CELL_COUNT ^ k) - 1) headBlock⟩,
          BLOCKSPACE_GRID_CELL_COUNT ^ k, BLOCKSPACE_GRID_CELL_COUNT⟩ := by
  constructor
  · intro h
    have hchecks : assertBlockNumber start "page_start" genesisBlock = .ok () ∧
        assertBucketSize size (resolveRootBucketSize headBlock genesisBlock) = .ok () := by
      unfold resolveCoveragePage at h
      dsimp only at h
      cases hb : assertBlockNumber start "page_start" genesisBlock with
      | error e => simp [hb, bind, Except.bind] at h
      | ok _ =>
        cases hs : assertBucketSize size (resolveRootBucketSize headBlock genesisBlock) with
        | error e => simp [hb, hs, bind, Except.bind] at h
        | ok _ => exact ⟨rfl, rfl⟩
    obtain ⟨b, rfl, hblock⟩ := assertBlockNumber_eq_ok.mp hchecks.1
    obtain ⟨k, rfl, hroot⟩ := assertBucketSize_eq_ok.mp hchecks.2
    rw [resolveCoveragePage_checked hblock hroot] at h
    split_ifs at h with hhead haligned
    exact ⟨b, k, rfl, rfl, hblock, Int.not_lt.mp hhead, hroot, haligned, (Except.ok.inj h).symm⟩
  · rintro ⟨b, k, rfl, rfl, hblock, hhead, hroot, haligned, rfl⟩
    rw [resolveCoveragePage_checked hblock hroot, if_neg (Int.not_lt.mpr hhead), if_neg (not_not.mpr haligned)]

theorem PageOf.root (h : genesisBlock ≤ headBlock)
    (hpage : resolveCoveragePage headBlock genesisBlock ⟨none, none⟩ = .ok page) :
    ∃ k, PageOf headBlock genesisBlock k page := by
  obtain ⟨k, hroot, hceil⟩ := exists_rootBucketSize (headBlock - genesisBlock + 1) 0
  replace hroot : resolveRootBucketSize headBlock genesisBlock = BLOCKSPACE_GRID_CELL_COUNT ^ k := hroot
  have hpos : (0 : Rat) < (BLOCKSPACE_GRID_CELL_COUNT ^ k : Nat) := by exact_mod_cast cellCount_pow_pos
  have hle := Int.le_ceil (((headBlock - genesisBlock + 1 : Int) : Rat) / (BLOCKSPACE_GRID_CELL_COUNT ^ k : Nat))
  have hsmall := Int.ceil_le.mp hceil
  rw [div_le_iff₀ hpos] at hle hsmall
  have hsmall : headBlock - genesisBlock + 1 ≤ resolvePageSpan (BLOCKSPACE_GRID_CELL_COUNT ^ k) := by
    rw [resolvePageSpan, Nat.mul_comm]
    exact_mod_cast hsmall
  have hfilled : headBlock - genesisBlock + 1
      ≤ countRootGridCells headBlock genesisBlock (BLOCKSPACE_GRID_CELL_COUNT ^ k)
        * (BLOCKSPACE_GRID_CELL_COUNT ^ k : Nat) := by
    have hmax : ⌈((headBlock - genesisBlock + 1 : Int) : Rat) / (BLOCKSPACE_GRID_CELL_COUNT ^ k : Nat)⌉
        ≤ countRootGridCells headBlock genesisBlock (BLOCKSPACE_GRID_CELL_COUNT ^ k) := by
      unfold countRootGridCells
      omega
    refine le_trans ?_ (Int.mul_le_mul_of_nonneg_right hmax (Int.natCast_nonneg _))
    exact_mod_cast hle
  cases hpage
  rw [hroot]
  refine ⟨k, rfl, hroot.ge, Int.le_refl _, ⟨0, by simp⟩, ?_, h, ?_, ?_⟩
  · dsimp only
    omega
  · have hone : 1 ≤ BLOCKSPACE_GRID_CELL_COUNT := by decide
    unfold countRootGridCells
    dsimp only
    omega
  · dsimp only
    omega

theorem PageOf.request {start size : Rat}
    (hpage : resolveCoveragePage headBlock genesisBlock ⟨some start, some size⟩ = .ok page) :
    ∃ k, PageOf headBlock genesisBlock k page := by
  obtain ⟨b, k, rfl, rfl, hblock, hhead, hroot, haligned, rfl⟩ := resolveCoveragePage_eq_ok.mp hpage
  have hpos := @cellCount_pow_pos k
  refine ⟨k, rfl, hroot, hblock, haligned, rfl, ?_, Nat.le_refl _, ?_⟩ <;>
  · simp only [resolvePageSpan, BLOCKSPACE_GRID_CELL_COUNT] at hpos ⊢
    omega

theorem PageOf.accepted {input : PageInput} (h : genesisBlock ≤ headBlock)
    (hpage : resolveCoveragePage headBlock genesisBlock input = .ok page) :
    ∃ k, PageOf headBlock genesisBlock k page := by
  match input with
  | ⟨none, none⟩ => exact PageOf.root h hpage
  | ⟨some _, some _⟩ => exact PageOf.request hpage
  | ⟨none, some _⟩ => cases hpage
  | ⟨some _, none⟩ => cases hpage

/-! ## 5. Cells -/

theorem cell_bounds (hpos : 0 < page.bucketSize) (i : Nat) :
    (page.cell i).fromBlock = page.fromBlock + i * page.bucketSize ∧
      (page.cell i).toBlock < page.fromBlock + (i + 1 : Nat) * page.bucketSize ∧
      ((page.cell i).fromBlock ≤ (page.cell i).toBlock ↔ page.fromBlock + i * page.bucketSize ≤ page.toBlock) ∧
      (page.fromBlock + i * page.bucketSize ≤ page.toBlock →
        (page.cell i).toBlock = min page.toBlock (page.fromBlock + i * page.bucketSize + page.bucketSize - 1)) := by
  have hnext : ((i + 1 : Nat) : Int) * page.bucketSize = i * page.bucketSize + page.bucketSize := by push_cast; ring
  rw [hnext]
  unfold CoveragePage.cell
  dsimp only
  split
  · refine ⟨rfl, ?_, ?_, ?_⟩ <;> dsimp only <;> omega
  · refine ⟨rfl, ?_, ?_, fun _ => rfl⟩ <;> dsimp only <;> omega

theorem mem_nonEmptyCells : cell ∈ nonEmptyCells page ↔
    (∃ i < page.gridCellCount, page.cell i = cell) ∧ cell.fromBlock ≤ cell.toBlock := by
  simp [nonEmptyCells, buildGridRanges]

theorem ascending_nonEmptyCells (hpos : 0 < page.bucketSize) : Ascending (nonEmptyCells page) := by
  refine ⟨(List.pairwise_map.mpr (List.pairwise_lt_range.imp fun {i j} hij => ?_)).filter _,
    fun cell hcell => (mem_nonEmptyCells.mp hcell).2⟩
  have hscaled : ((i + 1 : Nat) : Int) * page.bucketSize ≤ j * page.bucketSize := by
    exact_mod_cast Nat.mul_le_mul_right _ hij
  have hi := (cell_bounds hpos i).2.1
  have hj := (cell_bounds hpos j).1
  omega

theorem PageOf.exists_cell (h : PageOf headBlock genesisBlock k page)
    (hblock : page.fromBlock ≤ block ∧ block ≤ page.toBlock) :
    ∃ cell ∈ nonEmptyCells page, cell.fromBlock ≤ block ∧ block ≤ cell.toBlock := by
  have hpos : 0 < page.bucketSize := h.bucketSize ▸ cellCount_pow_pos
  obtain ⟨i, hi⟩ := Int.eq_ofNat_of_zero_le
    (Int.ediv_nonneg (Int.sub_nonneg.mpr hblock.1) (Int.natCast_nonneg page.bucketSize))
  have hlow := Int.ediv_mul_le (block - page.fromBlock) (Int.natCast_ne_zero.mpr hpos.ne')
  have hhigh := Int.lt_ediv_add_one_mul_self (block - page.fromBlock) (Int.natCast_pos.mpr hpos)
  rw [hi] at hlow hhigh
  obtain ⟨hfrom, -, hnonempty, hto⟩ := cell_bounds hpos i
  have hfilled := h.filled
  rw [add_mul, one_mul] at hhigh
  have hinside : i < page.gridCellCount := by
    by_contra hmany
    have hscaled : (page.gridCellCount : Int) * page.bucketSize ≤ i * page.bucketSize := by
      exact_mod_cast Nat.mul_le_mul_right _ (Nat.le_of_not_lt hmany)
    omega
  refine ⟨page.cell i, mem_nonEmptyCells.mpr ⟨⟨i, hinside, rfl⟩, hnonempty.mpr (by omega)⟩, by omega, ?_⟩
  rw [hto (by omega)]
  omega

theorem PageOf.covers (h : PageOf headBlock genesisBlock k page) :
    Covers (nonEmptyCells page) block ↔ page.fromBlock ≤ block ∧ block ≤ page.toBlock := by
  have hpos : 0 < page.bucketSize := h.bucketSize ▸ cellCount_pow_pos
  refine ⟨fun ⟨cell, hcell, hblock⟩ => ?_, h.exists_cell⟩
  obtain ⟨⟨i, -, rfl⟩, hle⟩ := mem_nonEmptyCells.mp hcell
  obtain ⟨hfrom, -, hnonempty, hto⟩ := cell_bounds hpos i
  have hto := hto (hnonempty.mp hle)
  have hstart : 0 ≤ (i : Int) * page.bucketSize := Int.mul_nonneg (Int.natCast_nonneg _) (Int.natCast_nonneg _)
  omega

/-- **Drilling down into a cell** is accepted and shows exactly the cell. -/
theorem PageOf.drill (h : PageOf headBlock genesisBlock (k + 1) page) (hcell : cell ∈ nonEmptyCells page) :
    ∃ child, resolveCoveragePage headBlock genesisBlock (page.drill cell) = .ok child ∧
      child.bucketSize = BLOCKSPACE_GRID_CELL_COUNT ^ k ∧ child.toCoverageRange = cell := by
  obtain ⟨⟨i, hi, rfl⟩, hle⟩ := mem_nonEmptyCells.mp hcell
  have hpos : 0 < page.bucketSize := h.bucketSize ▸ cellCount_pow_pos
  obtain ⟨hfrom, -, hnonempty, hto⟩ := cell_bounds hpos i
  have hstart := hnonempty.mp hle
  have hspan : resolvePageSpan (BLOCKSPACE_GRID_CELL_COUNT ^ k) = page.bucketSize := by
    rw [h.bucketSize, Nat.pow_succ, resolvePageSpan]
  refine ⟨_, resolveCoveragePage_eq_ok.mpr ⟨(page.cell i).fromBlock, k, rfl, ?_, ?_, ?_, ?_, ?_, rfl⟩, rfl, ?_⟩
  · rw [h.bucketSize, Nat.pow_succ, Nat.cast_mul, mul_div_cancel_right₀ _ (by norm_num [BLOCKSPACE_GRID_CELL_COUNT])]
  · have hstart : 0 ≤ (i : Int) * page.bucketSize := Int.mul_nonneg (Int.natCast_nonneg _) (Int.natCast_nonneg _)
    have := h.above
    omega
  · have := h.toBlock
    omega
  · exact le_trans (Nat.pow_le_pow_right (by decide) (Nat.le_succ k)) (h.bucketSize ▸ h.small)
  · have haligned := h.aligned
    rw [resolvePageSpan, Nat.cast_mul] at haligned
    rw [hspan, hfrom, add_sub_right_comm]
    exact dvd_add (dvd_of_mul_right_dvd haligned) (Dvd.intro_left _ rfl)
  · -- The cell ends within the page, which ends at the head or later than the cell.
    have hlast : ((i + 1 : Nat) : Int) * page.bucketSize ≤ resolvePageSpan page.bucketSize := by
      rw [resolvePageSpan, Nat.mul_comm page.bucketSize]
      exact_mod_cast Nat.mul_le_mul_right _ (Nat.lt_of_lt_of_le hi h.cells)
    have hnext : ((i + 1 : Nat) : Int) * page.bucketSize = i * page.bucketSize + page.bucketSize := by push_cast; ring
    have hend := hto hstart
    have hpage := h.toBlock
    rw [hspan]
    have hsame : min ((page.cell i).fromBlock + page.bucketSize - 1) headBlock = (page.cell i).toBlock := by omega
    exact hsame ▸ rfl

/-! ## 6. The pages -/

/-- **Every accepted page is partitioned, and every block is reached by drilling down.**  The non-empty cells of a
page are disjoint, in order, and cover its blocks; drilling down into a cell of more than one block is accepted and
yields its blocks; and from the root page one comes to a cell of every single block. -/
theorem grid_pages_partition (h : genesisBlock ≤ headBlock) :
    (∀ input page, resolveCoveragePage headBlock genesisBlock input = .ok page →
      Ascending (nonEmptyCells page) ∧
      (∀ block, Covers (nonEmptyCells page) block ↔ page.fromBlock ≤ block ∧ block ≤ page.toBlock) ∧
      (1 < page.bucketSize → ∀ cell ∈ nonEmptyCells page, ∃ child,
        resolveCoveragePage headBlock genesisBlock (page.drill cell) = .ok child ∧ child.toCoverageRange = cell)) ∧
    ∀ block, genesisBlock ≤ block → block ≤ headBlock → ∃ page, Drilled headBlock genesisBlock page ∧
      page.bucketSize = 1 ∧ ⟨block, block⟩ ∈ nonEmptyCells page := by
  have haccepted : ∀ input page, resolveCoveragePage headBlock genesisBlock input = .ok page →
      ∃ k, PageOf headBlock genesisBlock k page := by
    intro ⟨start, size⟩ page hpage
    match start, size with
    | none, none => exact PageOf.root h hpage
    | some _, some _ => exact PageOf.request hpage
    | none, some _ => cases hpage
    | some _, none => cases hpage
  constructor
  · intro input page hpage
    obtain ⟨k, hk⟩ := haccepted input page hpage
    refine ⟨ascending_nonEmptyCells (hk.bucketSize ▸ cellCount_pow_pos), fun block => hk.covers,
      fun hsize cell hcell => ?_⟩
    cases k with
    | zero => exact absurd hk.bucketSize hsize.ne'
    | succ k =>
      obtain ⟨child, hchild, -, hrange⟩ := hk.drill hcell
      exact ⟨child, hchild, hrange⟩
  · intro block hlow hhigh
    -- Induction on the exponent of the bucket size of a page that holds the block.
    have hdown : ∀ k page, Drilled headBlock genesisBlock page → PageOf headBlock genesisBlock k page →
        page.fromBlock ≤ block → block ≤ page.toBlock → ∃ page, Drilled headBlock genesisBlock page ∧
          page.bucketSize = 1 ∧ ⟨block, block⟩ ∈ nonEmptyCells page := by
      intro k
      induction k with
      | zero =>
        intro page hdrilled hk hfrom hto
        obtain ⟨cell, hcell, hblock⟩ := hk.exists_cell ⟨hfrom, hto⟩
        obtain ⟨⟨i, -, rfl⟩, -⟩ := mem_nonEmptyCells.mp hcell
        have hone : page.bucketSize = 1 := hk.bucketSize
        have hbounds := @cell_bounds page (hone ▸ Nat.one_pos) i
        rw [hone] at hbounds
        have hfirst : (page.cell i).fromBlock = block := by omega
        have hlast : (page.cell i).toBlock = block := by omega
        have hsame : page.cell i = ⟨block, block⟩ := congrArg₂ CoverageRange.mk hfirst hlast
        exact ⟨page, hdrilled, hone, hsame ▸ hcell⟩
      | succ k ih =>
        intro page hdrilled hk hfrom hto
        obtain ⟨cell, hcell, hblock⟩ := hk.exists_cell ⟨hfrom, hto⟩
        obtain ⟨child, hchild, hsize, rfl⟩ := hk.drill hcell
        have hmore : 1 < page.bucketSize := hk.bucketSize ▸ Nat.one_lt_pow k.succ_ne_zero (by decide)
        obtain ⟨j, hj⟩ := haccepted _ child hchild
        have hjk : j = k := Nat.pow_right_injective (by decide : 2 ≤ BLOCKSPACE_GRID_CELL_COUNT)
          (hj.bucketSize.symm.trans hsize)
        exact ih child (.cell hdrilled hmore hcell hchild) (hjk ▸ hj) hblock.1 hblock.2
    obtain ⟨k, hk⟩ := haccepted ⟨none, none⟩ _ rfl
    exact hdown k _ (.root rfl) hk hlow hhigh

theorem grid_pages_partition_million : ∃ page, Drilled 22000000 0 page ∧ page.bucketSize = 1 ∧
    ⟨21999999, 21999999⟩ ∈ nonEmptyCells page :=
  (grid_pages_partition (by decide)).2 21999999 (by decide) (by decide)

/-- **Accepted pages are nested or disjoint:** a page with cells that are no larger lies within the other page or
shares no block with it. -/
theorem grid_pages_nested {input input' : PageInput} {page' : CoveragePage} (h : genesisBlock ≤ headBlock)
    (hpage : resolveCoveragePage headBlock genesisBlock input = .ok page)
    (hpage' : resolveCoveragePage headBlock genesisBlock input' = .ok page') (hsize : page.bucketSize ≤ page'.bucketSize) :
    page'.fromBlock ≤ page.fromBlock ∧ page.toBlock ≤ page'.toBlock ∨
      page.toBlock < page'.fromBlock ∨ page'.toBlock < page.fromBlock := by
  obtain ⟨k, hk⟩ := PageOf.accepted h hpage
  obtain ⟨k', hk'⟩ := PageOf.accepted h hpage'
  have aligned := hk.aligned
  have aligned' := hk'.aligned
  have hto := hk.toBlock
  have hto' := hk'.toBlock
  rw [hk.bucketSize, hk'.bucketSize] at hsize
  have hkk' : k ≤ k' := (Nat.pow_le_pow_iff_right (by decide)).mp hsize
  obtain ⟨n, hn⟩ : resolvePageSpan page.bucketSize ∣ resolvePageSpan page'.bucketSize := by
    rw [hk.bucketSize, hk'.bucketSize]
    exact Nat.mul_dvd_mul_right (Nat.pow_dvd_pow _ hkk') _
  have hpos : (0 : Int) < resolvePageSpan page.bucketSize := by
    rw [hk.bucketSize]
    exact_mod_cast Nat.mul_pos cellCount_pow_pos (by decide)
  have hspan : (resolvePageSpan page'.bucketSize : Int) = resolvePageSpan page.bucketSize * n := by exact_mod_cast hn
  obtain ⟨m, hm⟩ := dvd_sub aligned ((Dvd.intro _ hspan.symm).trans aligned')
  rw [sub_sub_sub_cancel_right] at hm
  generalize (resolvePageSpan page.bucketSize : Int) = span at *
  rcases lt_or_ge m 0 with hbefore | hafter
  · have hgap := Int.mul_le_mul_of_nonneg_left (Int.le_sub_one_of_lt hbefore) hpos.le
    rw [mul_sub, mul_zero] at hgap
    omega
  rcases lt_or_ge m (n : Int) with hinside | houtside
  · have hfits := Int.mul_le_mul_of_nonneg_left (Int.add_one_le_of_lt hinside) hpos.le
    have hstart := Int.mul_nonneg hpos.le hafter
    rw [mul_add] at hfits
    omega
  · have hlater := Int.mul_le_mul_of_nonneg_left houtside hpos.le
    omega

theorem grid_pages_nested_first : ∃ page page', resolveCoveragePage 5000 0 ⟨some 1024, some 1⟩ = .ok page ∧
    resolveCoveragePage 5000 0 ⟨none, none⟩ = .ok page' ∧
    (page'.fromBlock ≤ page.fromBlock ∧ page.toBlock ≤ page'.toBlock ∨
      page.toBlock < page'.fromBlock ∨ page'.toBlock < page.fromBlock) :=
  have hroot : 1 ≤ resolveRootBucketSize 5000 0 :=
    (exists_rootBucketSize 5001 0).elim fun _ hj => cellCount_pow_pos.trans_eq hj.1.symm
  have hpage := resolveCoveragePage_eq_ok.mpr ⟨1024, 0, rfl, rfl, by decide, by decide, hroot, by decide, rfl⟩
  have hpage' : resolveCoveragePage 5000 0 ⟨none, none⟩ = .ok _ := rfl
  ⟨_, _, hpage, hpage', grid_pages_nested (by decide) hpage hpage' hroot⟩

end Artgod.ReadModels
