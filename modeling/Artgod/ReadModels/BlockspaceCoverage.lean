/-
# Blockspace coverage: intervals or a bitmap

The coverage of a block window is collected as merged intervals with running totals until a bitmap
costs less.  Both forms answer a query with two ranks, and both ranks are those of the appended
blocks.
-/
import Artgod.Bits.ByteFields
import Mathlib.Data.Int.ConditionallyCompleteOrder
import Mathlib.Data.Int.Interval
import Mathlib.Order.Interval.Finset.SuccPred

namespace Artgod.ReadModels

open Artgod.Bits

/-! ## 1. The source's builder -/

/-- `SyncBackfillCoverageRange`. -/
structure CoverageRange where
  fromBlock : Int
  toBlock : Int
deriving DecidableEq

/-- One row of `starts`, `ends` and `prefixBefore`. -/
structure Interval extends CoverageRange where
  prefixBefore : Int
deriving DecidableEq

/-- A `Uint32Array`. -/
abbrev Words := List (BitVec 32)

def popcount (value : BitVec 32) : Nat :=
  let value := value - ((value >>> 1) &&& 0x55555555#32)
  let value := (value &&& 0x33333333#32) + ((value >>> 2) &&& 0x33333333#32)
  ((((value + (value >>> 4)) &&& 0x0f0f0f0f#32) * 0x01010101#32) >>> 24).toNat

def leftMask (bit : Int) : BitVec 32 := 0xffffffff#32 <<< (bit % 32).toNat

def rightMask (bit : Int) : BitVec 32 := 0xffffffff#32 >>> (31 - bit % 32).toNat

def setBits (words : Words) (fromBit toBit : Int) : Words :=
  let first := (fromBit / 32).toNat
  let last := (toBit / 32).toNat
  if first = last then words.modify first (· ||| (leftMask fromBit &&& rightMask toBit))
  else
    ((words.modify first (· ||| leftMask fromBit)).mapIdx fun index word =>
      if first + 1 ≤ index ∧ index < last then 0xffffffff#32 else word).modify last (· ||| rightMask toBit)

def countBits (words : Words) (fromBit toBit : Int) : Nat :=
  if toBit < fromBit then 0
  else
    let first := (fromBit / 32).toNat
    let last := (toBit / 32).toNat
    let word (index : Nat) := words.getD index 0#32
    if first = last then popcount (word first &&& leftMask fromBit &&& rightMask toBit)
    else
      popcount (word first &&& leftMask fromBit) + popcount (word last &&& rightMask toBit)
        + ((List.range (last - (first + 1))).map fun k => popcount (word (first + 1 + k))).sum

def maxBitmapBytes : Nat := 32 * 1024 * 1024
def maxIntervals : Nat := 65536
def countStepBlocks : Int := 65536
def extractionStepBlocks : Nat := 16384
def prefixStepBlocks : Int := 1024

structure CoverageBuilder where
  fromBlock : Int
  toBlock : Int
  intervals : List Interval
  words : Option Words
  total : Int
deriving DecidableEq

def CoverageBuilder.new (fromBlock toBlock : Int) : CoverageBuilder :=
  { fromBlock, toBlock, intervals := [], words := none, total := 0 }

section

variable (b : CoverageBuilder)

/-- `Math.ceil(Math.max(0, toBlock - fromBlock + 1) / 32)`. -/
def CoverageBuilder.wordCount : Nat :=
  ((max 0 (b.toBlock - b.fromBlock + 1)).toNat + 31) / 32

/-- `Math.ceil(wordCount / 32) + 1`. -/
def CoverageBuilder.prefixLength : Nat := (b.wordCount + 31) / 32 + 1

def CoverageRange.size (r : CoverageRange) : Int := r.toBlock - r.fromBlock + 1

/-- `PublicBlockspaceUnavailableError`, with its cause. -/
structure UnavailableError where
  cause : String
deriving DecidableEq

def CoverageBuilder.push (r : CoverageRange) : Except UnavailableError (List Interval) :=
  if maxIntervals + extractionStepBlocks ≤ b.intervals.length then
    .error ⟨"Blockspace interval capacity exceeded"⟩
  else .ok (b.intervals ++ [{ r with prefixBefore := b.total }])

/-- The intervals after an append: the last one grows, or a new one is pushed. -/
def CoverageBuilder.extend (r : CoverageRange) : Except UnavailableError (List Interval) :=
  match b.intervals.getLast? with
  | some last =>
    if r.fromBlock = last.toBlock + 1 then
      .ok (b.intervals.dropLast ++ [{ last with toBlock := r.toBlock }])
    else b.push r
  | none => b.push r

/-- `setBits` for a range of a window that begins at `fromBlock`. -/
def setRange (fromBlock : Int) (words : Words) (r : CoverageRange) : Words :=
  setBits words (r.fromBlock - fromBlock) (r.toBlock - fromBlock)

def CoverageBuilder.append (r : CoverageRange) : Except UnavailableError CoverageBuilder := do
  match b.words with
  | some words =>
    return { b with words := some (setRange b.fromBlock words r), total := b.total + r.size }
  | none =>
    let intervals ← b.extend r
    return { b with intervals, total := b.total + r.size }

/-- The bounded steps in which `compact` copies one interval. -/
def copySteps (row : Interval) : List CoverageRange :=
  (List.range ((row.toBlock - row.fromBlock) / countStepBlocks + 1).toNat).map fun (step : Nat) =>
    let start := row.fromBlock + step * countStepBlocks
    ⟨start, min row.toBlock (start + countStepBlocks - 1)⟩

def CoverageBuilder.compact : Except UnavailableError CoverageBuilder :=
  if b.words.isSome then .ok b
  else
    let bitmapBytes := b.wordCount * 4
    let prefixBytes := b.prefixLength * 8
    let threshold := min maxIntervals (max 1 ((bitmapBytes + prefixBytes + 23) / 24))
    if b.intervals.length < threshold then .ok b
    else if maxBitmapBytes < bitmapBytes then
      if maxIntervals ≤ b.intervals.length then .error ⟨"Blockspace bitmap capacity exceeded"⟩
      else .ok b
    else
      .ok { b with
        words := some ((b.intervals.flatMap copySteps).foldl (setRange b.fromBlock)
          (List.replicate b.wordCount 0#32))
        intervals := [] }

structure BitmapCoverage where
  fromBlock : Int
  toBlock : Int
  words : Words
  prefixCounts : List Nat
deriving DecidableEq

inductive Representation where
  | intervals (rows : List Interval)
  | bitmap (coverage : BitmapCoverage)
deriving DecidableEq

structure BlockspaceCoverage where
  representation : Representation
  total : Int
deriving DecidableEq

/-- The entries of `prefix`: the bits before every group of 1024. -/
def prefixCount (words : Words) (wordCount : Nat) : Nat → Nat
  | 0 => 0
  | index + 1 => prefixCount words wordCount index
      + countBits words (index * 1024) (min (wordCount * 32 - 1) ((index + 1) * 1024 - 1))

def CoverageBuilder.finish : Except UnavailableError BlockspaceCoverage := do
  let b ← b.compact
  match b.words with
  | none => return ⟨.intervals b.intervals, b.total⟩
  | some words =>
    let prefixCounts := (List.range b.prefixLength).map (prefixCount words b.wordCount)
    return ⟨.bitmap ⟨b.fromBlock, b.toBlock, words, prefixCounts⟩, b.total⟩

/-! ### The queries -/

/-- The binary search of `before`: the number of intervals that start before `block`. -/
def searchStart (rows : List Interval) (block : Int) (low high : Nat) : Nat :=
  if low < high then
    let middle := (low + high) / 2
    if rows[middle]?.any (·.fromBlock < block) then searchStart rows block (middle + 1) high
    else searchStart rows block low middle
  else low
termination_by high - low

def intervalsBefore (rows : List Interval) (block : Int) : Int :=
  match searchStart rows block 0 rows.length with
  | 0 => 0
  | index + 1 => match rows[index]? with
    | none => 0
    | some row => row.prefixBefore + min (block - row.fromBlock) row.size

def BitmapCoverage.before (c : BitmapCoverage) (offset : Int) : Int :=
  let group := offset / prefixStepBlocks
  c.prefixCounts.getD group.toNat 0 + countBits c.words (group * prefixStepBlocks) (offset - 1)

def BlockspaceCoverage.count (c : BlockspaceCoverage) (range : CoverageRange) : Int :=
  match c.representation with
  | .intervals rows =>
    if range.toBlock < range.fromBlock then 0
    else intervalsBefore rows (range.toBlock + 1) - intervalsBefore rows range.fromBlock
  | .bitmap b =>
    let fromBlock := max b.fromBlock range.fromBlock
    let toBlock := min b.toBlock range.toBlock
    if toBlock < fromBlock then 0
    else b.before (toBlock - b.fromBlock + 1) - b.before (fromBlock - b.fromBlock)

/-- A call between creation and `finish`. -/
inductive BuilderCall where
  | append (range : CoverageRange)
  | compact

def CoverageBuilder.call : BuilderCall → Except UnavailableError CoverageBuilder
  | .append range => b.append range
  | .compact => b.compact

end

def collectCoverage (fromBlock toBlock : Int) (calls : List BuilderCall) :
    Except UnavailableError BlockspaceCoverage := do
  let b ← calls.foldlM CoverageBuilder.call (CoverageBuilder.new fromBlock toBlock)
  b.finish

/-! ## 2. Bits of words -/

theorem popcount_pairs : ∀ a < 256, a / 2 &&& 0x55 ≤ a ∧ 2 * (a / 2 &&& 0x55) = a &&& 0xaa := by
  decide +kernel

/-- The bit pairs of a byte, each replaced by its count. -/
def bytePairs (a : Nat) : Nat := a - (a / 2 &&& 0x55)

def byteNibbles (a : Nat) : Nat := (a &&& 0x33) + (a / 4 &&& 0x33)

theorem popcount_nibbles : ∀ a < 256, 4 * (a / 4 &&& 0x33) = a &&& 0xcc ∧ byteNibbles a < 256 := by
  decide +kernel

theorem popcount_byte : ∀ a < 256, byteNibbles (bytePairs a) % 16 ≤ 4 ∧ byteNibbles (bytePairs a) / 16 ≤ 4 ∧
    byteNibbles (bytePairs a) % 16 + byteNibbles (bytePairs a) / 16 = ones a := by
  decide +kernel

section Popcount

variable {a b c d : Nat} (ha : a < 256) (hb : b < 256) (hc : c < 256) (hd : d < 256)
  {v : BitVec 32} (hv : v.toNat = bytes a b c d)
include ha hb hc hd hv

theorem pairs_toNat : (v - ((v >>> 1) &&& 0x55555555#32)).toNat =
    bytes (bytePairs a) (bytePairs b) (bytePairs c) (bytePairs d) := by
  obtain ⟨ha1, ha2⟩ := popcount_pairs a ha
  obtain ⟨hb1, hb2⟩ := popcount_pairs b hb
  obtain ⟨hc1, hc2⟩ := popcount_pairs c hc
  obtain ⟨hd1, hd2⟩ := popcount_pairs d hd
  have hhalf : bytes a b c d / 2 ^ 1 &&& bytes 0x55 0x55 0x55 0x55 =
      bytes (a / 2 &&& 0x55) (b / 2 &&& 0x55) (c / 2 &&& 0x55) (d / 2 &&& 0x55) := by
    refine bytes_div_and ha hb hc (by decide) ?_
    rw [pow_one, show 2 * 0x55 = 0xaa from rfl, ← ha2, ← hb2, ← hc2, ← hd2]
    unfold bytes
    ring
  have hlt := bytes_lt ha hb hc hd
  rw [BitVec.toNat_sub, BitVec.toNat_and, BitVec.toNat_ushiftRight, hv, Nat.shiftRight_eq_div_pow,
    show (0x55555555#32).toNat = bytes 0x55 0x55 0x55 0x55 from rfl, hhalf]
  unfold bytes bytePairs at *
  omega

theorem nibbles_toNat : ((v &&& 0x33333333#32) + ((v >>> 2) &&& 0x33333333#32)).toNat =
    bytes (byteNibbles a) (byteNibbles b) (byteNibbles c) (byteNibbles d) := by
  obtain ⟨ha1, ha2⟩ := popcount_nibbles a ha
  obtain ⟨hb1, hb2⟩ := popcount_nibbles b hb
  obtain ⟨hc1, hc2⟩ := popcount_nibbles c hc
  obtain ⟨hd1, hd2⟩ := popcount_nibbles d hd
  have hquarter : bytes a b c d / 2 ^ 2 &&& bytes 0x33 0x33 0x33 0x33 =
      bytes (a / 4 &&& 0x33) (b / 4 &&& 0x33) (c / 4 &&& 0x33) (d / 4 &&& 0x33) := by
    refine bytes_div_and ha hb hc (by decide) ?_
    rw [show 2 ^ 2 = 4 from rfl, show 4 * 0x33 = 0xcc from rfl, ← ha1, ← hb1, ← hc1, ← hd1]
    unfold bytes
    ring
  rw [BitVec.toNat_add, BitVec.toNat_and, BitVec.toNat_and, BitVec.toNat_ushiftRight, hv,
    Nat.shiftRight_eq_div_pow, show (0x33333333#32).toNat = bytes 0x33 0x33 0x33 0x33 from rfl,
    hquarter, bytes_and ha hb hc (by decide)]
  unfold bytes byteNibbles at *
  omega

theorem popcount_bytes : popcount v = ones a + ones b + ones c + ones d := by
  have hp (x) (hx : x < 256) : bytePairs x < 256 := lt_of_le_of_lt (Nat.sub_le _ _) hx
  have h2 := nibbles_toNat (hp a ha) (hp b hb) (hp c hc) (hp d hd) (pairs_toNat ha hb hc hd hv)
  obtain ⟨ha1, ha2, ha3⟩ := popcount_byte a ha
  obtain ⟨hb1, hb2, hb3⟩ := popcount_byte b hb
  obtain ⟨hc1, hc2, hc3⟩ := popcount_byte c hc
  obtain ⟨hd1, hd2, hd3⟩ := popcount_byte d hd
  unfold popcount
  dsimp only
  generalize v - ((v >>> 1) &&& 0x55555555#32) = w at h2 ⊢
  generalize (w &&& 0x33333333#32) + ((w >>> 2) &&& 0x33333333#32) = y at h2 ⊢
  rw [← ha3, ← hb3, ← hc3, ← hd3]
  generalize byteNibbles (bytePairs a) = a at *
  generalize byteNibbles (bytePairs b) = b at *
  generalize byteNibbles (bytePairs c) = c at *
  generalize byteNibbles (bytePairs d) = d at *
  -- the low nibble of the next byte moves into the high nibble, which the mask drops
  have h3 : (y + (y >>> 4)).toNat = bytes (a + a / 16 + 16 * (b % 16)) (b + b / 16 + 16 * (c % 16))
      (c + c / 16 + 16 * (d % 16)) (d + d / 16 + 16 * 0) := by
    rw [BitVec.toNat_add, BitVec.toNat_ushiftRight, h2, Nat.shiftRight_eq_div_pow]
    unfold bytes
    omega
  have hfield (x y : Nat) (hx : x % 16 ≤ 4) (hx' : x / 16 ≤ 4) :
      (x + x / 16 + 16 * y) &&& 0x0f = x % 16 + x / 16 := by
    rw [Nat.and_two_pow_sub_one_eq_mod _ 4]
    omega
  rw [BitVec.toNat_ushiftRight, BitVec.toNat_mul, BitVec.toNat_and, h3, Nat.shiftRight_eq_div_pow,
    show (0x0f0f0f0f#32).toNat = bytes 0x0f 0x0f 0x0f 0x0f from rfl,
    bytes_and (by omega) (by omega) (by omega) (by omega), hfield a _ ha1 ha2, hfield b _ hb1 hb2,
    hfield c _ hc1 hc2, hfield d _ hd1 hd2]
  exact bytes_mul_top (by omega) (by omega) (by omega) (by omega)

end Popcount

theorem popcount_eq (v : BitVec 32) : popcount v = Nat.count (fun i => v.getLsbD i) 32 := by
  have hmod (x : Nat) : x % 256 < 256 := Nat.mod_lt x (by decide)
  rw [popcount_bytes (hmod _) (hmod _) (hmod _) (hmod _) (bytes_of_lt v.isLt)]
  exact (count_testBit v.toNat).symm

/-- The bit of a window offset. -/
def bitOf (words : Words) (offset : Nat) : Bool :=
  (words.getD (offset / 32) 0#32).getLsbD (offset % 32)

theorem getLsbD_leftMask (bit : Nat) {i : Nat} (hi : i < 32) :
    (leftMask bit).getLsbD i = decide (bit % 32 ≤ i) := by
  have hones : 0xffffffff#32 = BitVec.allOnes 32 := rfl
  unfold leftMask
  rw [show ((bit : Int) % 32).toNat = bit % 32 by omega, hones, BitVec.getLsbD_shiftLeft,
    BitVec.getLsbD_allOnes]
  grind

theorem getLsbD_rightMask (bit : Nat) {i : Nat} :
    (rightMask bit).getLsbD i = decide (i ≤ bit % 32) := by
  have hones : 0xffffffff#32 = BitVec.allOnes 32 := rfl
  unfold rightMask
  rw [show (31 - (bit : Int) % 32).toNat = 31 - bit % 32 by omega, hones,
    BitVec.getLsbD_ushiftRight, BitVec.getLsbD_allOnes]
  grind

theorem length_setBits {words : Words} {f t : Int} : (setBits words f t).length = words.length := by
  unfold setBits
  dsimp only
  split <;> simp

theorem bitOf_setBits {words : Words} {f t : Nat} (hft : f ≤ t) (ht : t / 32 < words.length)
    (i : Nat) : bitOf (setBits words f t) i = (bitOf words i || decide (f ≤ i ∧ i ≤ t)) := by
  have hi : i % 32 < 32 := Nat.mod_lt i (by decide)
  have hones : (0xffffffff#32).getLsbD (i % 32) = true := by
    rw [show 0xffffffff#32 = BitVec.allOnes 32 from rfl, BitVec.getLsbD_allOnes]
    simpa using hi
  unfold bitOf setBits
  dsimp only
  rw [show ((f : Int) / 32).toNat = f / 32 by omega, show ((t : Int) / 32).toNat = t / 32 by omega]
  rcases Nat.lt_or_ge (i / 32) words.length with hlen | hlen
  · split
    · simp only [List.getD_eq_getElem?_getD, List.getElem?_modify, List.getElem?_eq_getElem hlen]
      by_cases h : f / 32 = i / 32
      · simp [h, getLsbD_leftMask f hi, getLsbD_rightMask t]
        grind
      · simp [h]
        grind
    · simp only [List.getD_eq_getElem?_getD, List.getElem?_modify, List.getElem?_mapIdx,
        List.getElem?_eq_getElem hlen]
      by_cases hf : f / 32 = i / 32
      · have hne : t / 32 ≠ i / 32 := by omega
        simp [hf, hne, getLsbD_leftMask f hi]
        grind
      by_cases hl : t / 32 = i / 32
      · simp [hf, hl, getLsbD_rightMask t]
        grind
      by_cases hin : f / 32 + 1 ≤ i / 32 ∧ i / 32 < t / 32
      · simp [hf, hl, hin, hones]
        omega
      · have hout : ¬ (f ≤ i ∧ i ≤ t) := by omega
        simp only [hout, decide_false, Bool.or_false]
        simp [hf, hl]
        split
        · omega
        · rfl
  · have hno : ¬ i ≤ t := by omega
    rw [List.getD_eq_default _ _ (by split <;> simpa using hlen), List.getD_eq_default _ _ hlen]
    simp [hno]

/-! Counting bits -/

def rank (words : Words) (n : Nat) : Nat := Nat.count (fun i => bitOf words i) n

theorem rank_word {words : Words} (j : Nat) {n : Nat} (hn : n ≤ 32) :
    rank words (32 * j + n) = rank words (32 * j)
      + Nat.count (fun i => (words.getD j 0#32).getLsbD i) n := by
  unfold rank
  rw [Nat.count_add]
  refine congrArg (_ + ·) (count_congr fun i hi => ?_)
  unfold bitOf
  rw [show (32 * j + i) / 32 = j by omega, show (32 * j + i) % 32 = i by omega]

theorem popcount_slice {v w : BitVec 32} {k l : Nat} (hkl : k ≤ l) (hl : l ≤ 32)
    (hv : ∀ i < 32, v.getLsbD i = (w.getLsbD i && decide (k ≤ i ∧ i < l))) :
    popcount v + Nat.count (fun i => w.getLsbD i) k = Nat.count (fun i => w.getLsbD i) l := by
  have hcount := count_between (fun i => w.getLsbD i = true) hkl 32
  rw [Nat.min_eq_right (hkl.trans hl), Nat.min_eq_right hl] at hcount
  rw [popcount_eq, ← hcount]
  refine congrArg (· + _) (count_congr fun i hi => ?_)
  rw [hv i hi]
  simp

theorem popcount_word {words : Words} (j : Nat) :
    rank words (32 * (j + 1)) = rank words (32 * j) + popcount (words.getD j 0#32) := by
  rw [popcount_eq, Nat.mul_succ, rank_word j (Nat.le_refl 32)]

theorem rank_words {words : Words} (j n : Nat) : rank words (32 * (j + n)) = rank words (32 * j)
    + ((List.range n).map fun k => popcount (words.getD (j + k) 0#32)).sum := by
  induction n with
  | zero => simp
  | succ n ih =>
    rw [← Nat.add_assoc, popcount_word, ih, List.range_succ, List.map_append, List.sum_append,
      List.map_singleton, List.sum_singleton, Nat.add_assoc]

theorem rank_countBits {words : Words} {f t : Nat} (hft : f ≤ t) :
    rank words (t + 1) = rank words f + countBits words f t := by
  unfold countBits
  dsimp only
  rw [if_neg (by omega), show ((f : Int) / 32).toNat = f / 32 by omega,
    show ((t : Int) / 32).toNat = t / 32 by omega]
  have hf := @rank_word words (f / 32) (f % 32) (by omega)
  have ht := @rank_word words (t / 32) (t % 32 + 1) (by omega)
  rw [show 32 * (f / 32) + f % 32 = f by omega] at hf
  rw [show 32 * (t / 32) + (t % 32 + 1) = t + 1 by omega] at ht
  split
  · rename_i heq
    have hslice := popcount_slice (w := words.getD (t / 32) 0#32)
      (v := words.getD (t / 32) 0#32 &&& leftMask f &&& rightMask t) (k := f % 32) (l := t % 32 + 1)
      (by omega) (by omega) (fun i hi => by
        rw [BitVec.getLsbD_and, BitVec.getLsbD_and, getLsbD_leftMask f hi, getLsbD_rightMask]
        grind)
    rw [heq] at hf ⊢
    omega
  · have hleft := popcount_slice (w := words.getD (f / 32) 0#32)
      (v := words.getD (f / 32) 0#32 &&& leftMask f) (k := f % 32) (l := 32)
      (by omega) (by omega) (fun i hi => by
        rw [BitVec.getLsbD_and, getLsbD_leftMask f hi]
        grind)
    have hright := popcount_slice (w := words.getD (t / 32) 0#32)
      (v := words.getD (t / 32) 0#32 &&& rightMask t) (k := 0) (l := t % 32 + 1)
      (by omega) (by omega) (fun i hi => by
        rw [BitVec.getLsbD_and, getLsbD_rightMask]
        grind)
    have hword := @rank_word words (f / 32) 32 (Nat.le_refl 32)
    have hwords := @rank_words words (f / 32 + 1) (t / 32 - (f / 32 + 1))
    rw [show f / 32 + 1 + (t / 32 - (f / 32 + 1)) = t / 32 by omega] at hwords
    rw [Nat.count_zero] at hright
    rw [show 32 * (f / 32) + 32 = 32 * (f / 32 + 1) by omega] at hword
    omega

/-! ## 3. Ranges of blocks -/

variable {ranges : List CoverageRange} {rows : List Interval} {block t : Int}

def Covers (ranges : List CoverageRange) (block : Int) : Prop :=
  ∃ r ∈ ranges, r.fromBlock ≤ block ∧ block ≤ r.toBlock

instance : DecidablePred (Covers ranges) := fun block =>
  inferInstanceAs (Decidable (∃ r ∈ ranges, r.fromBlock ≤ block ∧ block ≤ r.toBlock))

/-- Disjoint non-empty ranges in ascending order. -/
structure Ascending (ranges : List CoverageRange) : Prop where
  ordered : ranges.Pairwise (·.toBlock < ·.fromBlock)
  nonempty : ∀ r ∈ ranges, r.fromBlock ≤ r.toBlock

/-- The number of blocks from `a` to `b` in one of the ranges. -/
noncomputable def coveredIn (ranges : List CoverageRange) (a b : Int) : Nat :=
  ((Finset.Icc a b).filter (Covers ranges)).card

/-- The part of a range below a block. -/
def CoverageRange.below (r : CoverageRange) (block : Int) : Int :=
  max 0 (min block (r.toBlock + 1) - r.fromBlock)

def below (ranges : List CoverageRange) (block : Int) : Int := (ranges.map (·.below block)).sum

theorem covers_cons {r : CoverageRange} : Covers (r :: ranges) block ↔
    (r.fromBlock ≤ block ∧ block ≤ r.toBlock) ∨ Covers ranges block :=
  List.exists_mem_cons_iff _ _ _

theorem covers_append {others : List CoverageRange} :
    Covers (ranges ++ others) block ↔ Covers ranges block ∨ Covers others block := by
  unfold Covers
  simp only [List.mem_append, or_and_right, exists_or]

theorem covers_singleton {r : CoverageRange} :
    Covers [r] block ↔ r.fromBlock ≤ block ∧ block ≤ r.toBlock := by
  simp [Covers]

theorem below_succ (h : Ascending ranges) (block : Int) :
    below ranges (block + 1) = below ranges block + if Covers ranges block then 1 else 0 := by
  obtain ⟨hordered, hnonempty⟩ := h
  induction ranges with
  | nil => simp [below, Covers]
  | cons r rest ih =>
    obtain ⟨hr, hrest⟩ := List.pairwise_cons.mp hordered
    obtain ⟨hr', hrest'⟩ := List.forall_mem_cons.mp hnonempty
    have htail := ih hrest hrest'
    unfold below at htail ⊢
    rw [List.map_cons, List.map_cons, List.sum_cons, List.sum_cons, htail]
    unfold CoverageRange.below
    by_cases hin : r.fromBlock ≤ block ∧ block ≤ r.toBlock
    · have hlater : ¬ Covers rest block := by
        rintro ⟨q, hq, hle, -⟩
        have := hr q hq
        omega
      rw [if_neg hlater, if_pos (covers_cons.mpr (.inl hin))]
      omega
    · simp only [covers_cons, hin, false_or]
      omega

theorem coveredIn_eq (h : Ascending ranges) {a b : Int} (hab : a ≤ b + 1) :
    (coveredIn ranges a b : Int) = below ranges (b + 1) - below ranges a := by
  obtain ⟨n, hn⟩ : ∃ n : Nat, b = a + n - 1 := ⟨(b + 1 - a).toNat, by omega⟩
  subst hn
  unfold coveredIn
  induction n with
  | zero => simp
  | succ n ih =>
    have hih := ih (by omega)
    have hsplit : Finset.Icc a (a + (n + 1 : Nat) - 1)
        = insert (a + (n : Int)) (Finset.Icc a (a + n - 1)) := by
      ext x
      simp only [Finset.mem_Icc, Finset.mem_insert]
      omega
    have hstep := below_succ h (a + n)
    rw [sub_add_cancel] at hih ⊢
    rw [hsplit, Finset.filter_insert, show a + (n + 1 : Nat) = a + n + 1 by omega, hstep]
    split
    · rw [Finset.card_insert_of_notMem (by simp)]
      omega
    · omega

theorem coveredIn_congr {others : List CoverageRange} (h : ∀ block, Covers ranges block ↔ Covers others block)
    (a b : Int) : coveredIn ranges a b = coveredIn others a b := by
  unfold coveredIn
  simp only [h]

def sizes (ranges : List CoverageRange) : Int := (ranges.map (·.size)).sum

theorem below_all (h : ∀ r ∈ ranges, r.fromBlock ≤ r.toBlock ∧ r.toBlock < block) :
    below ranges block = sizes ranges := by
  refine congrArg List.sum (List.map_congr_left fun r hr => ?_)
  obtain ⟨hle, hlt⟩ := h r hr
  unfold CoverageRange.below CoverageRange.size
  omega

theorem below_none (h : ∀ r ∈ ranges, block ≤ r.fromBlock) : below ranges block = 0 := by
  refine List.sum_eq_zero fun x hx => ?_
  obtain ⟨r, hr, rfl⟩ := List.mem_map.mp hx
  have := h r hr
  unfold CoverageRange.below
  omega

theorem below_append {others : List CoverageRange} :
    below (ranges ++ others) block = below ranges block + below others block := by
  unfold below
  rw [List.map_append, List.sum_append]

theorem sizes_eq {a b : Int} (h : Ascending ranges)
    (hinside : ∀ r ∈ ranges, a ≤ r.fromBlock ∧ r.toBlock ≤ b) (hab : a ≤ b + 1) :
    sizes ranges = coveredIn ranges a b := by
  rw [coveredIn_eq h hab, below_none fun r hr => (hinside r hr).1, sub_zero]
  exact (below_all fun r hr => ⟨h.nonempty r hr, Int.lt_add_one_of_le (hinside r hr).2⟩).symm

/-! ## 4. Intervals -/

def rowRanges (rows : List Interval) : List CoverageRange := rows.map (·.toCoverageRange)

/-- `prefixBefore` is the total of the earlier intervals. -/
def Stacked (t : Int) : List Interval → Prop
  | [] => True
  | row :: rest => row.prefixBefore = t ∧ Stacked (t + row.size) rest

theorem stacked_append {others : List Interval} : Stacked t (rows ++ others) ↔
    Stacked t rows ∧ Stacked (t + sizes (rowRanges rows)) others := by
  induction rows generalizing t with
  | nil => simp [Stacked, sizes, rowRanges]
  | cons row rest ih => simp [Stacked, sizes, rowRanges, ih, and_assoc, Int.add_assoc]

theorem starts_mono (h : Ascending (rowRanges rows)) {i j : Nat} {a b : Interval} (hij : i ≤ j)
    (ha : rows[i]? = some a) (hb : rows[j]? = some b) : a.fromBlock ≤ b.fromBlock := by
  obtain ⟨hi, rfl⟩ := List.getElem?_eq_some_iff.mp ha
  obtain ⟨hj, rfl⟩ := List.getElem?_eq_some_iff.mp hb
  rcases hij.eq_or_lt with rfl | hlt
  · exact Int.le_refl _
  · have hle := h.nonempty _ (List.mem_map_of_mem (List.getElem_mem hi))
    have hlt := List.pairwise_iff_getElem.mp (List.pairwise_map.mp h.ordered) i j hi hj hlt
    omega

theorem searchStart_spec (h : Ascending (rowRanges rows)) {low high : Nat} (hlow : low ≤ high)
    (hhigh : high ≤ rows.length)
    (hbefore : ∀ i row, rows[i]? = some row → i < low → row.fromBlock < block)
    (hafter : ∀ i row, rows[i]? = some row → high ≤ i → block ≤ row.fromBlock) :
    searchStart rows block low high ≤ rows.length ∧ ∀ i row, rows[i]? = some row →
      (i < searchStart rows block low high ↔ row.fromBlock < block) := by
  fun_induction searchStart rows block low high with
  | case1 low high hlt middle hstart ih =>
    obtain ⟨row, hrow, hlt'⟩ := (Option.any_eq_true ..).mp hstart
    refine ih (by omega) hhigh (fun i other hother hi => ?_) hafter
    have := starts_mono h (Nat.lt_succ_iff.mp hi) hother hrow
    have := of_decide_eq_true hlt'
    omega
  | case2 low high hlt middle hstart ih =>
    refine ih (by omega) (by omega) hbefore fun i other hother hi => ?_
    have hmiddle : rows[middle]? = some rows[middle] := List.getElem?_eq_getElem (by omega)
    have := starts_mono h hi hmiddle hother
    rw [hmiddle] at hstart
    have hnot : ¬ rows[middle].fromBlock < block := by simpa using hstart
    omega
  | case3 low high hlt =>
    obtain rfl : low = high := by omega
    refine ⟨hhigh, fun i row hrow => ⟨hbefore i row hrow, fun hstart => ?_⟩⟩
    by_contra hle
    have := hafter i row hrow (Nat.le_of_not_lt hle)
    omega

theorem intervalsBefore_eq (h : Ascending (rowRanges rows)) (hstacked : Stacked 0 rows) :
    intervalsBefore rows block = below (rowRanges rows) block := by
  obtain ⟨hlen, hsearch⟩ := @searchStart_spec _ block h _ _ (Nat.zero_le _) (Nat.le_refl _)
    (fun i row _ hi => by omega)
    (fun i row hrow hi => by rw [List.getElem?_eq_none hi] at hrow; cases hrow)
  unfold intervalsBefore
  -- from the found position on nothing lies below the block
  have hrest : ∀ r ∈ rowRanges (rows.drop (searchStart rows block 0 rows.length)), block ≤ r.fromBlock := by
    refine List.forall_mem_map.mpr fun row hrow => ?_
    obtain ⟨i, hi⟩ := List.mem_iff_getElem?.mp hrow
    rw [List.getElem?_drop] at hi
    have := hsearch _ _ hi
    omega
  split
  · rename_i hzero
    rw [hzero, List.drop_zero] at hrest
    rw [below_none hrest]
  rename_i index hindex
  rw [hindex] at hlen hsearch hrest
  have hget : rows[index]? = some rows[index] := List.getElem?_eq_getElem hlen
  have hstart := (hsearch index _ hget).mp (Nat.lt_succ_self index)
  have hsplit : rows = rows.take index ++ rows[index] :: rows.drop (index + 1) := by
    rw [← List.drop_eq_getElem_cons hlen, List.take_append_drop]
  rw [hget]
  dsimp only
  generalize rows[index] = row at hsplit hstart
  generalize rows.take index = earlier at hsplit
  generalize rows.drop (index + 1) = later at hsplit hrest
  subst hsplit
  have hrow : row.prefixBefore = 0 + sizes (rowRanges earlier) := (stacked_append.mp hstacked).2.1
  have hsplit : rowRanges (earlier ++ row :: later)
      = rowRanges earlier ++ ([row.toCoverageRange] ++ rowRanges later) := List.map_append
  rw [hsplit] at h ⊢
  have hself := h.nonempty row.toCoverageRange (by simp)
  have hearlier : ∀ r ∈ rowRanges earlier, r.fromBlock ≤ r.toBlock ∧ r.toBlock < block := by
    intro r hr
    have hlt := (List.pairwise_append.mp h.ordered).2.2 r hr row.toCoverageRange (by simp)
    exact ⟨h.nonempty r (List.mem_append_left _ hr), hlt.trans hstart⟩
  rw [below_append, below_append, below_all hearlier, below_none hrest, hrow]
  simp only [below, CoverageRange.below, CoverageRange.size, List.map_singleton, List.sum_singleton]
  omega

/-! ## 5. The builder represents the appended ranges -/

variable {r : CoverageRange} {b b' : CoverageBuilder}

/-- The intervals hold the blocks of the ranges. -/
structure HeldRows (rows : List Interval) (ranges : List CoverageRange) : Prop where
  ascending : Ascending (rowRanges rows)
  covers : ∀ block, Covers (rowRanges rows) block ↔ Covers ranges block
  stacked : Stacked 0 rows
  total : sizes (rowRanges rows) = sizes ranges

theorem ascending_snoc : Ascending (ranges ++ [r]) ↔
    Ascending ranges ∧ (∀ q ∈ ranges, q.toBlock < r.fromBlock) ∧ r.fromBlock ≤ r.toBlock := by
  constructor
  · rintro ⟨hordered, hnonempty⟩
    obtain ⟨hearlier, -, hcross⟩ := List.pairwise_append.mp hordered
    obtain ⟨hleft, hright⟩ := List.forall_mem_append.mp hnonempty
    exact ⟨⟨hearlier, hleft⟩, fun q hq => hcross q hq r (List.mem_singleton_self r),
      hright r (List.mem_singleton_self r)⟩
  · rintro ⟨⟨hordered, hnonempty⟩, hbefore, hr⟩
    refine ⟨List.pairwise_append.mpr ⟨hordered, List.pairwise_singleton .., fun q hq s hs => ?_⟩,
      List.forall_mem_append.mpr ⟨hnonempty, List.forall_mem_singleton.mpr hr⟩⟩
    rw [List.mem_singleton.mp hs]
    exact hbefore q hq

theorem sizes_snoc : sizes (ranges ++ [r]) = sizes ranges + r.size := by
  simp [sizes]

theorem rowRanges_snoc {row : Interval} :
    rowRanges (rows ++ [row]) = rowRanges rows ++ [row.toCoverageRange] := by
  simp [rowRanges]

theorem HeldRows.before (h : HeldRows rows ranges) (hbefore : ∀ q ∈ ranges, q.toBlock < r.fromBlock) :
    ∀ q ∈ rowRanges rows, q.toBlock < r.fromBlock := by
  intro q hq
  obtain ⟨p, hp, -, hle⟩ := (h.covers q.toBlock).mp ⟨q, hq, h.ascending.nonempty q hq, Int.le_refl _⟩
  exact lt_of_le_of_lt hle (hbefore p hp)

theorem HeldRows.push (h : HeldRows rows ranges) (hsnoc : Ascending (ranges ++ [r])) :
    HeldRows (rows ++ [{ r with prefixBefore := sizes ranges }]) (ranges ++ [r]) := by
  obtain ⟨-, hbefore, hr⟩ := ascending_snoc.mp hsnoc
  constructor
  · rw [rowRanges_snoc]
    exact ascending_snoc.mpr ⟨h.ascending, h.before hbefore, hr⟩
  · intro block
    rw [rowRanges_snoc, covers_append, covers_append, h.covers]
  · refine stacked_append.mpr ⟨h.stacked, ?_, trivial⟩
    rw [h.total, zero_add]
  · rw [rowRanges_snoc, sizes_snoc, sizes_snoc, h.total]

theorem HeldRows.grow {earlier : List Interval} {last : Interval}
    (h : HeldRows (earlier ++ [last]) ranges) (hsnoc : Ascending (ranges ++ [r]))
    (hnext : r.fromBlock = last.toBlock + 1) :
    HeldRows (earlier ++ [{ last with toBlock := r.toBlock }]) (ranges ++ [r]) := by
  obtain ⟨hascending, hcovers, hstacked, htotal⟩ := h
  rw [rowRanges_snoc] at hascending hcovers htotal
  obtain ⟨hearlier, hbefore, hlast⟩ := ascending_snoc.mp hascending
  obtain ⟨-, -, hr⟩ := ascending_snoc.mp hsnoc
  obtain ⟨hstacked', hprefix, -⟩ := stacked_append.mp hstacked
  constructor
  · rw [rowRanges_snoc]
    exact ascending_snoc.mpr ⟨hearlier, hbefore, by dsimp only; omega⟩
  · intro block
    have := hcovers block
    rw [covers_append, covers_singleton] at this
    rw [rowRanges_snoc, covers_append, covers_append, ← this, covers_singleton, covers_singleton, or_assoc]
    refine or_congr_right ?_
    dsimp only
    omega
  · exact stacked_append.mpr ⟨hstacked', hprefix, trivial⟩
  · rw [sizes_snoc] at htotal
    rw [rowRanges_snoc, sizes_snoc, sizes_snoc, ← htotal]
    unfold CoverageRange.size
    dsimp only
    omega

theorem HeldRows.extend (h : HeldRows b.intervals ranges) (htotal : b.total = sizes ranges)
    (hsnoc : Ascending (ranges ++ [r])) (hrows : b.extend r = .ok rows) :
    HeldRows rows (ranges ++ [r]) := by
  have hpush (hpush : b.push r = .ok rows) : HeldRows rows (ranges ++ [r]) := by
    unfold CoverageBuilder.push at hpush
    split at hpush
    · cases hpush
    · cases hpush
      rw [htotal]
      exact h.push hsnoc
  unfold CoverageBuilder.extend at hrows
  split at hrows
  · rename_i last hlast
    obtain ⟨earlier, hearlier⟩ := List.getLast?_eq_some_iff.mp hlast
    split at hrows
    · rename_i hnext
      rw [hearlier, List.dropLast_concat] at hrows
      cases hrows
      exact (hearlier ▸ h).grow hsnoc hnext
    · exact hpush hrows
  · exact hpush hrows

/-- The words hold the blocks of the ranges. -/
structure HeldBits (fromBlock : Int) (wordCount : Nat) (words : Words) (ranges : List CoverageRange) :
    Prop where
  length : words.length = wordCount
  bits : ∀ offset, bitOf words offset = true ↔ Covers ranges (fromBlock + offset)

structure Represents (b : CoverageBuilder) (ranges : List CoverageRange) : Prop where
  ascending : Ascending ranges
  inside : ∀ r ∈ ranges, b.fromBlock ≤ r.fromBlock ∧ r.toBlock ≤ b.toBlock
  total : b.total = sizes ranges
  rows : b.words = none → HeldRows b.intervals ranges
  bits : ∀ words, b.words = some words → HeldBits b.fromBlock b.wordCount words ranges

theorem CoverageBuilder.word_of_offset {offset : Nat} (h : b.fromBlock + offset ≤ b.toBlock) :
    offset / 32 < b.wordCount := by
  unfold CoverageBuilder.wordCount
  omega

theorem HeldBits.set {words : Words} (h : HeldBits b.fromBlock b.wordCount words ranges)
    (hr : b.fromBlock ≤ r.fromBlock ∧ r.fromBlock ≤ r.toBlock ∧ r.toBlock ≤ b.toBlock) :
    HeldBits b.fromBlock b.wordCount (setRange b.fromBlock words r) (ranges ++ [r]) := by
  unfold setRange
  refine ⟨length_setBits.trans h.length, fun offset => ?_⟩
  have hset := @bitOf_setBits words (r.fromBlock - b.fromBlock).toNat
    (r.toBlock - b.fromBlock).toNat (by omega)
    (h.length ▸ CoverageBuilder.word_of_offset (by omega)) offset
  rw [Int.toNat_of_nonneg (by omega), Int.toNat_of_nonneg (by omega)] at hset
  rw [hset, Bool.or_eq_true, h.bits, covers_append, covers_singleton, decide_eq_true_iff]
  refine or_congr_right ?_
  omega

theorem Represents.append (h : Represents b ranges) (hsnoc : Ascending (ranges ++ [r]))
    (hr : b.fromBlock ≤ r.fromBlock ∧ r.toBlock ≤ b.toBlock) (happend : b.append r = .ok b') :
    Represents b' (ranges ++ [r]) ∧ b'.fromBlock = b.fromBlock ∧ b'.toBlock = b.toBlock := by
  have hinside : ∀ q ∈ ranges ++ [r], b.fromBlock ≤ q.fromBlock ∧ q.toBlock ≤ b.toBlock :=
    List.forall_mem_append.mpr ⟨h.inside, List.forall_mem_singleton.mpr hr⟩
  have htotal : b.total + r.size = sizes (ranges ++ [r]) := by rw [sizes_snoc, h.total]
  have hnonempty := (ascending_snoc.mp hsnoc).2.2
  unfold CoverageBuilder.append at happend
  split at happend
  · rename_i words hwords
    cases happend
    refine ⟨⟨hsnoc, hinside, htotal, nofun, fun words' hwords' => ?_⟩, rfl, rfl⟩
    cases hwords'
    exact (h.bits words hwords).set ⟨hr.1, hnonempty, hr.2⟩
  · rename_i hwords
    cases hrows : b.extend r with
    | error e =>
      rw [hrows] at happend
      cases happend
    | ok rows =>
      rw [hrows] at happend
      cases happend
      refine ⟨⟨hsnoc, hinside, htotal, fun _ => (h.rows hwords).extend h.total hsnoc hrows, ?_⟩,
        rfl, rfl⟩
      intro _ hsome
      cases hwords.symm.trans hsome

theorem HeldBits.setAll {steps : List CoverageRange}
    (hsteps : ∀ r ∈ steps, b.fromBlock ≤ r.fromBlock ∧ r.fromBlock ≤ r.toBlock ∧ r.toBlock ≤ b.toBlock)
    {words : Words} (h : HeldBits b.fromBlock b.wordCount words ranges) :
    HeldBits b.fromBlock b.wordCount (steps.foldl (setRange b.fromBlock) words) (ranges ++ steps) := by
  induction steps generalizing words ranges with
  | nil => simpa using h
  | cons r rest ih =>
    obtain ⟨hr, hrest⟩ := List.forall_mem_cons.mp hsteps
    have := ih hrest (h.set hr)
    rwa [List.append_assoc] at this

theorem heldBits_empty : HeldBits b.fromBlock b.wordCount (List.replicate b.wordCount 0#32) [] := by
  refine ⟨List.length_replicate, fun offset => ?_⟩
  unfold bitOf
  rw [List.getD_eq_getElem?_getD, List.getElem?_replicate]
  split <;> simp [Covers]

theorem covers_copySteps {row : Interval} :
    (∀ r ∈ copySteps row, row.fromBlock ≤ r.fromBlock ∧ r.fromBlock ≤ r.toBlock ∧ r.toBlock ≤ row.toBlock) ∧
    ∀ block, Covers (copySteps row) block ↔ row.fromBlock ≤ block ∧ block ≤ row.toBlock := by
  have hinside : ∀ r ∈ copySteps row,
      row.fromBlock ≤ r.fromBlock ∧ r.fromBlock ≤ r.toBlock ∧ r.toBlock ≤ row.toBlock := by
    intro r hr
    obtain ⟨step, hstep, rfl⟩ := List.mem_map.mp hr
    have := List.mem_range.mp hstep
    unfold countStepBlocks at *
    dsimp only
    omega
  refine ⟨hinside, fun block => ⟨?_, fun hblock => ?_⟩⟩
  · rintro ⟨r, hr, hle⟩
    have := hinside r hr
    omega
  refine ⟨_, List.mem_map.mpr
    ⟨((block - row.fromBlock) / countStepBlocks).toNat, List.mem_range.mpr ?_, rfl⟩, ?_⟩
  · unfold countStepBlocks
    omega
  · unfold countStepBlocks
    dsimp only
    omega

theorem covers_flatMap : Covers (rows.flatMap copySteps) block ↔
    ∃ row ∈ rows, Covers (copySteps row) block := by
  unfold Covers
  simp only [List.mem_flatMap]
  constructor
  · rintro ⟨r, ⟨row, hrow, hr⟩, h⟩
    exact ⟨row, hrow, r, hr, h⟩
  · rintro ⟨row, hrow, r, hr, h⟩
    exact ⟨r, ⟨row, hrow, hr⟩, h⟩

theorem Represents.compact (h : Represents b ranges) (hcompact : b.compact = .ok b') :
    Represents b' ranges ∧ b'.fromBlock = b.fromBlock ∧ b'.toBlock = b.toBlock := by
  unfold CoverageBuilder.compact at hcompact
  split at hcompact
  · cases hcompact
    exact ⟨h, rfl, rfl⟩
  rename_i hnone
  have hrows := h.rows (Option.not_isSome_iff_eq_none.mp hnone)
  dsimp only at hcompact
  split at hcompact
  · cases hcompact
    exact ⟨h, rfl, rfl⟩
  split at hcompact
  · split at hcompact
    · cases hcompact
    · cases hcompact
      exact ⟨h, rfl, rfl⟩
  cases hcompact
  refine ⟨⟨h.ascending, h.inside, h.total, nofun, fun words hwords => ?_⟩, rfl, rfl⟩
  cases hwords
  -- the intervals lie in the window, since their ends are covered
  have hrow : ∀ row ∈ b.intervals,
      b.fromBlock ≤ row.fromBlock ∧ row.fromBlock ≤ row.toBlock ∧ row.toBlock ≤ b.toBlock := by
    intro row hrow
    have hmem : row.toCoverageRange ∈ rowRanges b.intervals := List.mem_map_of_mem hrow
    have hle := hrows.ascending.nonempty _ hmem
    obtain ⟨p, hp, hstart, -⟩ := (hrows.covers row.fromBlock).mp ⟨_, hmem, Int.le_refl _, hle⟩
    obtain ⟨q, hq, -, hend⟩ := (hrows.covers row.toBlock).mp ⟨_, hmem, hle, Int.le_refl _⟩
    exact ⟨(h.inside p hp).1.trans hstart, hle, hend.trans (h.inside q hq).2⟩
  have hset := @HeldBits.setAll _ b (b.intervals.flatMap copySteps) (fun r hr => by
    obtain ⟨row, hmem, hr⟩ := List.mem_flatMap.mp hr
    have := hrow row hmem
    have := covers_copySteps.1 r hr
    omega) _ heldBits_empty
  refine ⟨hset.length, fun offset => (hset.bits offset).trans ?_⟩
  rw [← hrows.covers, List.nil_append, covers_flatMap]
  constructor
  · rintro ⟨row, hmem, hcover⟩
    exact ⟨_, List.mem_map_of_mem hmem, (covers_copySteps.2 _).mp hcover⟩
  · rintro ⟨r, hr, hcover⟩
    obtain ⟨row, hmem, rfl⟩ := List.mem_map.mp hr
    exact ⟨row, hmem, (covers_copySteps.2 _).mpr hcover⟩

/-! ## 6. The finished coverage -/

theorem prefixCount_eq {words : Words} {wordCount index : Nat} (hindex : 1024 * index < 32 * wordCount + 1024) :
    prefixCount words wordCount index = rank words (min (32 * wordCount) (1024 * index)) := by
  induction index with
  | zero => simp [prefixCount, rank]
  | succ index ih =>
    rw [prefixCount, ih (by omega), Nat.min_eq_right (by omega)]
    have hcount := @rank_countBits words (index * 1024)
      (min (wordCount * 32 - 1) ((index + 1) * 1024 - 1)) (by omega)
    rw [show min (wordCount * 32 - 1) ((index + 1) * 1024 - 1) + 1
      = min (32 * wordCount) (1024 * (index + 1)) by omega, Nat.mul_comm index] at hcount
    rw [hcount]
    congr 2 <;> omega

theorem before_eq {words : Words} {n : Nat} (hn : n ≤ 32 * b.wordCount) :
    (BitmapCoverage.mk b.fromBlock b.toBlock words
      ((List.range b.prefixLength).map (prefixCount words b.wordCount))).before n = rank words n := by
  unfold BitmapCoverage.before prefixStepBlocks CoverageBuilder.prefixLength
  dsimp only
  have hgroup : ((n : Int) / 1024).toNat = n / 1024 := by omega
  rw [hgroup, List.getD_eq_getElem?_getD, List.getElem?_map, List.getElem?_range (by omega),
    Option.map_some, Option.getD_some, prefixCount_eq (by omega), Nat.min_eq_right (by omega)]
  rcases Nat.eq_or_lt_of_le (Nat.mul_div_le n 1024) with heq | hlt
  · unfold countBits
    rw [if_pos (by omega), heq]
    simp
  have hcount := @rank_countBits words (1024 * (n / 1024)) (n - 1) (by omega)
  rw [show n - 1 + 1 = n by omega] at hcount
  rw [hcount, show (n : Int) / 1024 * 1024 = (1024 * (n / 1024) : Nat) by omega,
    show (n : Int) - 1 = (n - 1 : Nat) by omega]
  simp

theorem HeldBits.rank_eq {words : Words} (h : HeldBits b.fromBlock b.wordCount words ranges)
    (hranges : Ascending ranges) (n : Nat) :
    (rank words n : Int) = below ranges (b.fromBlock + n) - below ranges b.fromBlock := by
  induction n with
  | zero => simp [rank]
  | succ n ih =>
    have hstep := below_succ hranges (b.fromBlock + n)
    unfold rank at ih ⊢
    rw [Nat.count_succ, Nat.cast_add, ih, Nat.cast_succ, ← Int.add_assoc, hstep]
    simp only [h.bits n]
    split <;> omega

theorem coveredIn_window {a c : Int} (hinside : ∀ r ∈ ranges, a ≤ r.fromBlock ∧ r.toBlock ≤ c) (d e : Int) :
    coveredIn ranges d e = coveredIn ranges (max a d) (min c e) := by
  unfold coveredIn
  congr 1
  ext block
  simp only [Finset.mem_filter, Finset.mem_Icc]
  refine and_congr_left fun ⟨r, hr, hle⟩ => ?_
  have := hinside r hr
  omega

theorem Represents.finish (h : Represents b ranges) {coverage : BlockspaceCoverage}
    (hfinish : b.finish = .ok coverage) :
    coverage.total = sizes ranges ∧
      ∀ query, coverage.count query = coveredIn ranges query.fromBlock query.toBlock := by
  unfold CoverageBuilder.finish at hfinish
  cases hcompact : b.compact with
  | error e =>
    rw [hcompact] at hfinish
    cases hfinish
  | ok b' =>
    obtain ⟨h', -, -⟩ := h.compact hcompact
    simp only [hcompact, bind, Except.bind] at hfinish
    split at hfinish
    · rename_i hnone
      cases hfinish
      refine ⟨h'.total, fun query => ?_⟩
      obtain ⟨hascending, hcovers, hstacked, -⟩ := h'.rows hnone
      unfold BlockspaceCoverage.count
      dsimp only
      rw [← coveredIn_congr hcovers]
      split
      · simp [coveredIn, Finset.Icc_eq_empty_of_lt ‹_›]
      · rw [intervalsBefore_eq hascending hstacked, intervalsBefore_eq hascending hstacked,
          coveredIn_eq hascending (by omega)]
    · rename_i words hwords
      cases hfinish
      refine ⟨h'.total, fun query => ?_⟩
      have hbits := h'.bits words hwords
      unfold BlockspaceCoverage.count
      dsimp only
      rw [coveredIn_window h'.inside]
      generalize hf : max b'.fromBlock query.fromBlock = first
      generalize ht : min b'.toBlock query.toBlock = last
      split
      · simp [coveredIn, Finset.Icc_eq_empty_of_lt ‹_›]
      obtain ⟨n, hn⟩ : ∃ n : Nat, last - b'.fromBlock + 1 = n := ⟨_, (Int.toNat_of_nonneg (by omega)).symm⟩
      obtain ⟨m, hm⟩ : ∃ m : Nat, first - b'.fromBlock = m := ⟨_, (Int.toNat_of_nonneg (by omega)).symm⟩
      have hwindow : n ≤ 32 * b'.wordCount := by
        unfold CoverageBuilder.wordCount
        omega
      rw [hn, hm, before_eq hwindow, before_eq (by omega),
        hbits.rank_eq h'.ascending, hbits.rank_eq h'.ascending, coveredIn_eq h'.ascending (by omega),
        show b'.fromBlock + (n : Int) = last + 1 by omega, show b'.fromBlock + (m : Int) = first by omega]
      omega

/-! ## 7. Whole runs -/

def BuilderCall.appended : BuilderCall → Option CoverageRange
  | .append range => some range
  | .compact => none

/-- The ranges that calls append. -/
def appendedRanges (calls : List BuilderCall) : List CoverageRange :=
  calls.filterMap BuilderCall.appended

theorem Ascending.of_append {others : List CoverageRange} (h : Ascending (ranges ++ others)) :
    Ascending ranges :=
  ⟨(List.pairwise_append.mp h.ordered).1, (List.forall_mem_append.mp h.nonempty).1⟩

theorem Represents.calls {calls : List BuilderCall} (h : Represents b ranges)
    (hascending : Ascending (ranges ++ appendedRanges calls))
    (hinside : ∀ r ∈ appendedRanges calls, b.fromBlock ≤ r.fromBlock ∧ r.toBlock ≤ b.toBlock)
    (hcalls : calls.foldlM CoverageBuilder.call b = .ok b') :
    Represents b' (ranges ++ appendedRanges calls) := by
  induction calls generalizing b ranges with
  | nil =>
    cases hcalls
    simpa [appendedRanges] using h
  | cons call rest ih =>
    rw [List.foldlM_cons] at hcalls
    cases hstep : b.call call with
    | error e =>
      rw [hstep] at hcalls
      cases hcalls
    | ok next =>
      rw [hstep] at hcalls
      cases call with
      | append r =>
        rw [show appendedRanges (.append r :: rest) = [r] ++ appendedRanges rest from rfl] at *
        rw [← List.append_assoc] at hascending ⊢
        obtain ⟨hr, hrest⟩ := List.forall_mem_append.mp hinside
        obtain ⟨hnext, hfrom, hto⟩ :=
          h.append hascending.of_append (hr r (List.mem_singleton_self r)) hstep
        exact ih hnext hascending (hfrom ▸ hto ▸ hrest) hcalls
      | compact =>
        obtain ⟨hnext, hfrom, hto⟩ := h.compact hstep
        exact ih hnext hascending (hfrom ▸ hto ▸ hinside) hcalls

/-- **Coverage is exact, in either form.**  Whatever the window, the disjoint non-empty ranges that are
appended to it in ascending order, and the places where the builder is asked to compact: the total is the
number of appended blocks, and every query is answered with the number of appended blocks in it.  So two
runs over the same ranges answer alike. -/
theorem blockspace_coverage_exact {fromBlock toBlock : Int} {calls : List BuilderCall}
    {coverage : BlockspaceCoverage} (hascending : Ascending (appendedRanges calls))
    (hinside : ∀ r ∈ appendedRanges calls, fromBlock ≤ r.fromBlock ∧ r.toBlock ≤ toBlock)
    (hrun : collectCoverage fromBlock toBlock calls = .ok coverage) :
    coverage.total = coveredIn (appendedRanges calls) fromBlock toBlock ∧ (∀ query, coverage.count query
        = coveredIn (appendedRanges calls) query.fromBlock query.toBlock) ∧
      ∀ calls' coverage', appendedRanges calls' = appendedRanges calls →
        collectCoverage fromBlock toBlock calls' = .ok coverage' →
        ∀ query, coverage'.count query = coverage.count query := by
  have hcount {calls coverage} (hascending : Ascending (appendedRanges calls))
      (hinside : ∀ r ∈ appendedRanges calls, fromBlock ≤ r.fromBlock ∧ r.toBlock ≤ toBlock)
      (hrun : collectCoverage fromBlock toBlock calls = .ok coverage) :
      coverage.total = sizes (appendedRanges calls) ∧ ∀ query, coverage.count query
        = coveredIn (appendedRanges calls) query.fromBlock query.toBlock := by
    have hnew : Represents (.new fromBlock toBlock) [] :=
      ⟨⟨.nil, nofun⟩, nofun, rfl, fun _ => ⟨⟨.nil, nofun⟩, fun _ => Iff.rfl, trivial, rfl⟩, nofun⟩
    unfold collectCoverage at hrun
    cases hcalls : calls.foldlM CoverageBuilder.call (.new fromBlock toBlock) with
    | error e =>
      rw [hcalls] at hrun
      cases hrun
    | ok b =>
      rw [hcalls] at hrun
      exact (hnew.calls hascending hinside hcalls).finish hrun
  obtain ⟨htotal, hquery⟩ := hcount hascending hinside hrun
  refine ⟨?_, hquery, fun calls' coverage' hsame hrun' query => ?_⟩
  · rw [htotal]
    by_cases hempty : appendedRanges calls = []
    · rw [hempty, coveredIn, Finset.filter_false_of_mem fun block _ => by simp [Covers]]
      rfl
    obtain ⟨r, hr⟩ := List.exists_mem_of_ne_nil _ hempty
    have := hinside r hr
    have := hascending.nonempty r hr
    exact sizes_eq hascending hinside (by omega)
  · rw [(hcount (hsame ▸ hascending) (hsame ▸ hinside) hrun').2, hquery, hsame]

theorem blockspace_coverage_exact_bitmap : ∃ coverage : BlockspaceCoverage,
    collectCoverage 100 163 [.append ⟨101, 102⟩, .compact, .append ⟨103, 140⟩] = .ok coverage ∧
      coverage.total = coveredIn [⟨101, 102⟩, ⟨103, 140⟩] 100 163 := by
  refine ⟨⟨.bitmap ⟨100, 163, [0xfffffffe#32, 0x1ff#32], [0, 40]⟩, 40⟩, by decide +kernel, ?_⟩
  exact (@blockspace_coverage_exact 100 163 [.append ⟨101, 102⟩, .compact, .append ⟨103, 140⟩] _
    ⟨by decide, by decide⟩ (by decide) (by decide +kernel)).1

end Artgod.ReadModels
