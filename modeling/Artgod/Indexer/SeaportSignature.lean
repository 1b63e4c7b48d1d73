/-
# Signatures of Seaport orders

`recoverSeaportSigner` (`indexer/src/application/offchain/seaport-protocol.ts`) tells signatures apart by their
length: a compact and a standard ECDSA signature, and a bulk one with the index of the order in a tree and the
siblings on its path.  A text is the list of its UTF-16 code units; keccak256, address recovery and EIP-712
hashing are given (`SeaportHashing`).
-/
import Artgod.Js.Value
import Artgod.Merkle.Complete
import Mathlib.Data.Rat.Floor
import Mathlib.Tactic

namespace Artgod.Indexer

open Merkle

/-! ## 1. The signer of an order -/

/-- A hash: 32 bytes. -/
structure Word32 where
  bytes : List UInt8
  length_eq : bytes.length = 32

/-- `normalizeSeaportSignature`: an EIP-2098 signature is expanded from its two words. -/
inductive EcdsaSignature where
  | compact (r yParityAndS : List UInt8)
  | standard (bytes : List UInt8)

/-- The hashing and recovery functions, and the parts of an order they are applied to. -/
structure SeaportHashing where
  Order : Type
  Components : Type
  Domain : Type
  keccak256 : List UInt8 → Word32
  stringToBytes : String → List UInt8
  buildSeaportOrderComponents : Order → Except String Components
  buildSeaportTypedDataDomain : Nat → Order → Except String Domain
  deriveSeaportOrderHash : Components → Word32
  hashDomain : Domain → Word32
  recoverAddress : Word32 → EcdsaSignature → Except String String
  recoverTypedDataAddress : Domain → Components → EcdsaSignature → Except String String

/-- The bytes that pairs of hexadecimal digits spell. -/
def hexBytes : List Char → List UInt8
  | high :: low :: rest => UInt8.ofNat (Js.hexDigitValue high * 16 + Js.hexDigitValue low) :: hexBytes rest
  | _ => []

/-- `Number.parseInt(digits, 16)`. -/
def parseHex (digits : List Char) : Nat := digits.foldl (fun n c => 16 * n + Js.hexDigitValue c) 0

/-- `text.slice(start, stop)`. -/
def sliceText (text : List Char) (start stop : Nat) : List Char := (text.take stop).drop start

/-- A quotient without its fraction. -/
def truncated (q : ℚ) : Int := if 0 ≤ q then q.floor else q.ceil

/-- `x % y`. -/
def remainder (x y : ℚ) : ℚ := x - y * truncated (x / y)

section

variable (signature : List Char)

/-- `signatureBytes`: half a byte counts too. -/
def signatureBytes : ℚ := ((signature.length : ℚ) - 2) / 2

def singleOrder : Bool := signatureBytes signature = 64 || signatureBytes signature = 65

def ecdsaBytes : ℚ := 65 - remainder (signatureBytes signature) 2

def proofHeight : ℚ := (signatureBytes signature - ecdsaBytes signature - 3) / 32

/-- `/^0x(?:[0-9a-fA-F]{2})+$/`. -/
def isSignatureHex : List Char → Bool
  | '0' :: 'x' :: digits => digits ≠ [] && digits.length % 2 = 0 && digits.all Js.isHexDigit
  | _ => false

def bulkOrderDependencies : String :=
  "ConsiderationItem(uint8 itemType,address token,uint256 identifierOrCriteria,uint256 startAmount,uint256 endAmount,address recipient)" ++
  "OfferItem(uint8 itemType,address token,uint256 identifierOrCriteria,uint256 startAmount,uint256 endAmount)" ++
  "OrderComponents(address offerer,address zone,OfferItem[] offer,ConsiderationItem[] consideration,uint8 orderType,uint256 startTime,uint256 endTime,bytes32 zoneHash,uint256 salt,bytes32 conduitKey,uint256 counter)"

/-- The type of a bulk order whose tree has the height. -/
def bulkOrderType (height : Nat) : String :=
  "BulkOrder(OrderComponents" ++ String.join (List.replicate height "[2]") ++ " tree)" ++ bulkOrderDependencies

def normalizeSeaportSignature : EcdsaSignature :=
  if signature.length = 2 + 64 * 2 then
    .compact (hexBytes (sliceText signature 2 66)) (hexBytes (signature.drop 66))
  else .standard (hexBytes (signature.drop 2))

end

section Recovery

variable (hashing : SeaportHashing)

/-- The digest that a bulk signature signs. -/
def bulkDigest (domain : hashing.Domain) (height : Nat) (root : Word32) : Word32 :=
  let bulkTypeHash := hashing.keccak256 (hashing.stringToBytes (bulkOrderType height))
  let bulkOrderHash := hashing.keccak256 (bulkTypeHash.bytes ++ root.bytes)
  hashing.keccak256 ([0x19, 0x01] ++ (hashing.hashDomain domain).bytes ++ bulkOrderHash.bytes)

/-- The loop over the proof nodes, from a level on. -/
def foldProof (signature : List Char) (proofOffset index : Nat) : Nat → Nat → Word32 → Word32
  | _, 0, root => root
  | level, levels + 1, root =>
    let offset := proofOffset + level * 64
    let sibling := hexBytes (sliceText signature offset (offset + 64))
    foldProof signature proofOffset index (level + 1) levels
      (hashing.keccak256 (if (index >>> level) &&& 1 ≠ 0 then sibling ++ root.bytes else root.bytes ++ sibling))

/-- `recoverSeaportSigner`; no signature and the empty one are missing. -/
def recoverSeaportSigner (chainId : Nat) (order : hashing.Order) (signature : List Char) :
    Except String String :=
  if signature = [] then .error "Missing Seaport signature"
  else if singleOrder signature = false ∧
      ((proofHeight signature).isInt = false ∨ proofHeight signature < 1 ∨ proofHeight signature > 24) then
    .error "Unsupported Seaport signature length"
  else if isSignatureHex signature = false then .error "Invalid Seaport signature hex"
  else do
    let components ← hashing.buildSeaportOrderComponents order
    let domain ← hashing.buildSeaportTypedDataDomain chainId order
    if singleOrder signature = false then
      let indexOffset := (2 + ecdsaBytes signature * 2).floor.toNat
      let proofOffset := indexOffset + 3 * 2
      let height := (proofHeight signature).floor.toNat
      let index := parseHex (sliceText signature indexOffset proofOffset)
      let root := foldProof hashing signature proofOffset index 0 height
        (hashing.deriveSeaportOrderHash components)
      hashing.recoverAddress (bulkDigest hashing domain height root)
        (normalizeSeaportSignature (sliceText signature 0 indexOffset))
    else hashing.recoverTypedDataAddress domain components (normalizeSeaportSignature signature)

end Recovery

/-! ## 2. The lengths of signatures -/

theorem isInt_iff {q : ℚ} : q.isInt = true ↔ ∃ k : ℤ, q = k := by
  rw [Rat.isInt, beq_iff_eq]
  constructor
  · exact fun h => ⟨q.num, (Rat.coe_int_num_of_den_eq_one h).symm⟩
  · rintro ⟨k, rfl⟩
    exact Rat.den_intCast k

theorem floor_natCast (n : Nat) : (n : ℚ).floor.toNat = n := by
  have hfloor : (n : ℚ).floor = ⌊(n : ℚ)⌋ := rfl
  rw [hfloor, Int.floor_natCast, Int.toNat_natCast]

theorem remainder_two {j r : Nat} (hr : r < 4) : remainder ((4 * j + r : ℚ) / 2) 2 = r / 2 := by
  have hquot : (4 * j + r : ℚ) / 2 / 2 = j + r / 4 := by ring
  have hfraction : (0 : ℚ) ≤ r / 4 := by positivity
  have hlt : (r : ℚ) < 4 := by exact_mod_cast hr
  have hfloor : ⌊(j + r / 4 : ℚ)⌋ = j := by
    rw [Int.floor_eq_iff]
    push_cast
    constructor <;> linarith
  rw [remainder, hquot, truncated, if_pos (by positivity), show (j + r / 4 : ℚ).floor = j from hfloor]
  push_cast
  ring

variable {signature : List Char}

theorem lengths {j r : Nat} (hlength : signature.length = 2 + (4 * j + r)) (hr : r < 4) :
    ecdsaBytes signature = 65 - r / 2 ∧ proofHeight signature = (2 * j + r - 68) / 32 := by
  have hbytes : signatureBytes signature = (4 * j + r) / 2 := by
    rw [signatureBytes, hlength]
    push_cast
    ring
  have hecdsa : ecdsaBytes signature = 65 - r / 2 := by rw [ecdsaBytes, hbytes, remainder_two hr]
  refine ⟨hecdsa, ?_⟩
  rw [proofHeight, hecdsa, hbytes]
  ring

theorem singleOrder_iff : singleOrder signature = true ↔ signature.length = 130 ∨ signature.length = 132 := by
  have hhalf : ∀ n : Nat, ((signature.length : ℚ) - 2) / 2 = n ↔ signature.length = 2 * n + 2 := by
    intro n
    rw [div_eq_iff (by norm_num), sub_eq_iff_eq_add]
    constructor
    · intro h
      exact_mod_cast h.trans (by push_cast; ring : (n : ℚ) * 2 + 2 = ((2 * n + 2 : ℕ) : ℚ))
    · intro h
      rw [h]
      push_cast
      ring
  have hcompact := hhalf 64
  have hstandard := hhalf 65
  push_cast at hcompact hstandard
  rw [singleOrder, Bool.or_eq_true, decide_eq_true_iff, decide_eq_true_iff, signatureBytes, hcompact, hstandard]

/-- The length of an ECDSA part, an index and `height` siblings. -/
def bulkLength (ecdsa height : Nat) : Nat := 2 + 2 * (ecdsa + 3 + 32 * height)

theorem lengths_of_bulk {ecdsa height : Nat} (hecdsa : ecdsa = 64 ∨ ecdsa = 65)
    (hlength : signature.length = bulkLength ecdsa height) :
    ecdsaBytes signature = ecdsa ∧ proofHeight signature = height := by
  rcases hecdsa with rfl | rfl
  · obtain ⟨he, hh⟩ := @lengths signature (33 + 16 * height) 2 (by rw [hlength, bulkLength]; omega) (by omega)
    rw [he, hh]
    push_cast
    constructor <;> ring
  · obtain ⟨he, hh⟩ := @lengths signature (34 + 16 * height) 0 (by rw [hlength, bulkLength]; omega) (by omega)
    rw [he, hh]
    push_cast
    constructor <;> ring

theorem bulk_of_height (hne : signature ≠ []) {k : ℤ} (hk : proofHeight signature = k) (hpos : 1 ≤ k) :
    ∃ ecdsa height : Nat, (ecdsa = 64 ∨ ecdsa = 65) ∧ signature.length = bulkLength ecdsa height ∧ k = height := by
  have hlength := List.length_pos_of_ne_nil hne
  by_cases hone : signature.length = 1
  · have hbytes : signatureBytes signature = -1 / 2 := by
      rw [signatureBytes, hone]
      norm_num
    have hremainder : remainder (-1 / 2) 2 = -1 / 2 := by decide +kernel
    have hheight : proofHeight signature = -69 / 32 := by
      rw [proofHeight, ecdsaBytes, hbytes, hremainder]
      norm_num
    rw [hheight] at hk
    have : (1 : ℚ) ≤ k := by exact_mod_cast hpos
    linarith
  · obtain ⟨j, r, hsplit, hr⟩ : ∃ j r, signature.length = 2 + (4 * j + r) ∧ r < 4 :=
      ⟨(signature.length - 2) / 4, (signature.length - 2) % 4, by omega, by omega⟩
    rw [(lengths hsplit hr).2, div_eq_iff (by norm_num)] at hk
    have hint : (2 * j + r : ℤ) - 68 = k * 32 := by exact_mod_cast hk
    obtain ⟨height, rfl⟩ := Int.eq_ofNat_of_zero_le (by omega : 0 ≤ k)
    by_cases heven : r = 0
    · exact ⟨65, height, .inr rfl, by rw [hsplit, bulkLength]; omega, rfl⟩
    · exact ⟨64, height, .inl rfl, by rw [hsplit, bulkLength]; omega, rfl⟩

/-! ## 3. Hexadecimal text -/

theorem length_hexBytes : ∀ l : List Char, (hexBytes l).length = l.length / 2
  | [] => rfl
  | [_] => by simp [hexBytes]
  | _ :: _ :: rest => by
    rw [hexBytes, List.length_cons, length_hexBytes rest, List.length_cons, List.length_cons]
    omega

theorem hexBytes_append : ∀ {l₁ : List Char} (l₂ : List Char), l₁.length % 2 = 0 →
    hexBytes (l₁ ++ l₂) = hexBytes l₁ ++ hexBytes l₂
  | [], _, _ => rfl
  | [_], _, h => by simp at h
  | _ :: _ :: rest, l₂, h => by
    have hrest : rest.length % 2 = 0 := by simp only [List.length_cons] at h; omega
    simp [hexBytes, hexBytes_append l₂ hrest]

theorem hexBytes_split {l : List Char} {k : Nat} (hle : 2 * k ≤ l.length) {first rest : List UInt8}
    (hfirst : first.length = k) (h : hexBytes l = first ++ rest) :
    hexBytes (l.take (2 * k)) = first ∧ hexBytes (l.drop (2 * k)) = rest := by
  have htake : (l.take (2 * k)).length = 2 * k := by rw [List.length_take]; omega
  have happ := hexBytes_append (l.drop (2 * k)) (by rw [htake]; omega : (l.take (2 * k)).length % 2 = 0)
  rw [List.take_append_drop, h] at happ
  exact (List.append_inj happ.symm (by rw [length_hexBytes, htake, hfirst]; omega))

theorem hexDigitValue_lt {c : Char} (h : Js.isHexDigit c = true) : Js.hexDigitValue c < 16 := by
  have hdigit : c.isDigit = true ↔ 48 ≤ c.toNat ∧ c.toNat ≤ 57 := Char.isDigit_iff_toNat
  have hlower : 'a' ≤ c ↔ 97 ≤ c.toNat := Iff.rfl
  rw [Js.hexDigitValue]
  rcases Js.isHexDigit_cases h with h | h | h
  · rw [if_pos (hdigit.mpr h)]
    omega
  · rw [if_neg (mt hdigit.mp (by omega)), if_pos (hlower.mpr h.1)]
    omega
  · rw [if_neg (mt hdigit.mp (by omega)), if_neg (mt hlower.mp (by omega))]
    omega

theorem parseHex_eq : ∀ (digits : List Char) (n : Nat), digits.all Js.isHexDigit = true → digits.length % 2 = 0 →
    digits.foldl (fun n c => 16 * n + Js.hexDigitValue c) n =
      (hexBytes digits).foldl (fun n b => 256 * n + b.toNat) n
  | [], _, _, _ => rfl
  | [_], _, _, h => by simp at h
  | high :: low :: rest, n, hall, h => by
    have hrest : rest.length % 2 = 0 := by simp only [List.length_cons] at h; omega
    simp only [List.all_cons, Bool.and_eq_true] at hall
    have hhigh := hexDigitValue_lt hall.1
    have hlow := hexDigitValue_lt hall.2.1
    rw [hexBytes, List.foldl_cons, List.foldl_cons, List.foldl_cons, parseHex_eq rest _ hall.2.2 hrest,
      UInt8.toNat_ofNat_of_lt' (by show _ < 256; omega)]
    congr 1
    omega

/-- Three bytes, the high one first. -/
def bulkIndexBytes (index : Nat) : List UInt8 :=
  [UInt8.ofNat (index / 65536), UInt8.ofNat (index / 256 % 256), UInt8.ofNat (index % 256)]

theorem parseHex_index {digits : List Char} {index : Nat} (hall : digits.all Js.isHexDigit = true)
    (heven : digits.length % 2 = 0) (hbytes : hexBytes digits = bulkIndexBytes index) (hindex : index < 2 ^ 24) :
    parseHex digits = index := by
  rw [parseHex, parseHex_eq digits 0 hall heven, hbytes, bulkIndexBytes]
  simp only [List.foldl_cons, List.foldl_nil]
  rw [UInt8.toNat_ofNat_of_lt' (by show _ < 256; omega), UInt8.toNat_ofNat_of_lt' (by show _ < 256; omega),
    UInt8.toNat_ofNat_of_lt' (by show _ < 256; omega)]
  omega

/-! ## 4. The proof of a bulk signature -/

variable {hashing : SeaportHashing}

/-- An inner node of a tree of orders. -/
def SeaportHashing.node (hashing : SeaportHashing) (left right : Word32) : Word32 :=
  hashing.keccak256 (left.bytes ++ right.bytes)

theorem foldProof_eq {proofOffset index : Nat} : ∀ (siblings : List Word32) (level : Nat) (root : Word32),
    (signature.drop (proofOffset + level * 64)).length = 64 * siblings.length →
    hexBytes (signature.drop (proofOffset + level * 64)) = siblings.flatMap Word32.bytes →
    foldProof hashing signature proofOffset index level siblings.length root =
      climb hashing.node index level siblings root
  | [], _, _, _, _ => rfl
  | sibling :: rest, level, root, hlength, hbytes => by
    rw [List.length_cons] at hlength
    rw [List.flatMap_cons] at hbytes
    have hsplit := hexBytes_split (k := 32) (by omega) sibling.length_eq hbytes
    have hnext : proofOffset + level * 64 + 2 * 32 = proofOffset + (level + 1) * 64 := by ring
    rw [List.drop_drop, hnext] at hsplit
    have hslice : sliceText signature (proofOffset + level * 64) (proofOffset + level * 64 + 64) =
        (signature.drop (proofOffset + level * 64)).take (2 * 32) := by
      rw [sliceText, List.drop_take]
      congr 1
      omega
    have hbit : (index >>> level) &&& 1 ≠ 0 ↔ index.testBit level = true := by
      rw [Nat.testBit, Nat.and_comm, bne_iff_ne]
    rw [List.length_cons, foldProof, hslice, hsplit.1, foldProof_eq rest (level + 1) _ (by
      rw [List.length_drop] at hlength ⊢; omega) hsplit.2, climb]
    congr 1
    by_cases h : index.testBit level = true
    · rw [if_pos (hbit.mpr h), if_pos h]
      rfl
    · rw [if_neg (mt hbit.mp h), if_neg h]
      rfl

/-- The ECDSA part that is recovered from. -/
def ecdsaSignature (bytes : List UInt8) : EcdsaSignature :=
  if bytes.length = 64 then .compact (bytes.take 32) (bytes.drop 32) else .standard bytes

theorem normalizeSeaportSignature_eq {text : List Char} {bytes : List UInt8} (hlength : text.length = 2 + 2 * bytes.length)
    (hbytes : hexBytes (text.drop 2) = bytes) : normalizeSeaportSignature text = ecdsaSignature bytes := by
  by_cases hcompact : bytes.length = 64
  · have hsplit := hexBytes_split (k := 32) (by rw [List.length_drop]; omega) (by rw [List.length_take]; omega)
      (hbytes.trans (List.take_append_drop 32 bytes).symm)
    rw [List.drop_drop] at hsplit
    have hslice : sliceText text 2 66 = (text.drop 2).take (2 * 32) := List.drop_take ..
    rw [normalizeSeaportSignature, if_pos (by omega), ecdsaSignature, if_pos hcompact, hslice, hsplit.1,
      ← hsplit.2]
  · rw [normalizeSeaportSignature, if_neg (by omega), ecdsaSignature, if_neg hcompact, hbytes]

theorem recover_bulk {chainId : Nat} {order : hashing.Order} {components : hashing.Components}
    {domain : hashing.Domain} {digits : List Char} {ecdsa : List UInt8} {height index : Nat}
    {tree : CompleteTree Word32 height}
    (hcomponents : hashing.buildSeaportOrderComponents order = .ok components)
    (hdomain : hashing.buildSeaportTypedDataDomain chainId order = .ok domain)
    (hheight : 1 ≤ height ∧ height ≤ 24) (hindex : index < 2 ^ 24)
    (hleaf : tree.leaves[index % 2 ^ height]? = some (hashing.deriveSeaportOrderHash components))
    (hecdsa : ecdsa.length = 64 ∨ ecdsa.length = 65) (hall : digits.all Js.isHexDigit = true)
    (heven : digits.length % 2 = 0)
    (hbytes : hexBytes digits = ecdsa ++ (bulkIndexBytes index ++
      (tree.siblings hashing.node index).flatMap Word32.bytes)) :
    recoverSeaportSigner hashing chainId order ('0' :: 'x' :: digits) =
      hashing.recoverAddress (bulkDigest hashing domain height (tree.root hashing.node))
        (ecdsaSignature ecdsa) := by
  have hsiblings : (tree.siblings hashing.node index).length = height := tree.length_siblings index
  have hnodes : ((tree.siblings hashing.node index).flatMap Word32.bytes).length = 32 * height := by
    rw [List.length_flatMap, List.map_congr_left (fun w _ => w.length_eq), List.map_const', List.sum_replicate,
      hsiblings, smul_eq_mul, Nat.mul_comm]
  have hdigits : digits.length = 2 * (ecdsa.length + 3 + 32 * height) := by
    have hhalf := congrArg List.length hbytes
    rw [length_hexBytes, List.length_append, List.length_append, hnodes] at hhalf
    simp only [bulkIndexBytes, List.length_cons, List.length_nil] at hhalf
    omega
  have hlength : ('0' :: 'x' :: digits).length = bulkLength ecdsa.length height := by
    rw [List.length_cons, List.length_cons, hdigits, bulkLength]
    omega
  obtain ⟨hparts, hproof⟩ := lengths_of_bulk hecdsa hlength
  have hsingle : singleOrder ('0' :: 'x' :: digits) = false := by
    rw [← Bool.not_eq_true, singleOrder_iff, hlength, bulkLength]
    omega
  have hhex : isSignatureHex ('0' :: 'x' :: digits) = true := by
    have hne : digits ≠ [] := List.ne_nil_of_length_pos (by omega)
    simp [isSignatureHex, hne, heven, hall]
  have hint : ((height : ℚ)).isInt = true := isInt_iff.mpr ⟨height, by push_cast; rfl⟩
  have hguard : ¬ (((height : ℚ)).isInt = false ∨ (height : ℚ) < 1 ∨ (height : ℚ) > 24) := by
    rw [hint, not_or, not_or, not_lt, gt_iff_lt, not_lt]
    exact ⟨by simp, by exact_mod_cast hheight.1, by exact_mod_cast hheight.2⟩
  have hoffset : (2 + (ecdsa.length : ℚ) * 2).floor.toNat = 2 + 2 * ecdsa.length := by
    have hcast : 2 + (ecdsa.length : ℚ) * 2 = ((2 + 2 * ecdsa.length : ℕ) : ℚ) := by push_cast; ring
    rw [hcast, floor_natCast]
  have hfloor : (height : ℚ).floor.toNat = height := floor_natCast height
  -- the three parts of the digits
  obtain ⟨hfirst, hrest⟩ := hexBytes_split (by omega) rfl hbytes
  obtain ⟨hsecond, hlast⟩ := hexBytes_split (k := 3) (by rw [List.length_drop]; omega) rfl hrest
  rw [recoverSeaportSigner, if_neg (by simp), hproof, hparts, if_neg (fun h => hguard h.2), if_neg (by simp [hhex]),
    hcomponents, hdomain]
  simp only [hoffset, hfloor, hsingle, if_true, bind, Except.bind]
  have hdrop : ∀ n, ('0' :: 'x' :: digits).drop (2 + n) = digits.drop n := fun n => by
    rw [Nat.add_comm]
    rfl
  have hindexSlice : sliceText ('0' :: 'x' :: digits) (2 + 2 * ecdsa.length) (2 + 2 * ecdsa.length + 3 * 2) =
      (digits.drop (2 * ecdsa.length)).take (2 * 3) := by
    rw [sliceText, List.drop_take, hdrop]
    congr 1
    omega
  have hindexValue : parseHex ((digits.drop (2 * ecdsa.length)).take (2 * 3)) = index := by
    refine parseHex_index ?_ ?_ hsecond hindex
    · rw [List.all_eq_true] at hall ⊢
      exact fun c hc => hall c (List.mem_of_mem_drop (List.mem_of_mem_take hc))
    · rw [List.length_take, List.length_drop]
      omega
  have hnodesSlice : ('0' :: 'x' :: digits).drop (2 + 2 * ecdsa.length + 3 * 2 + 0 * 64) =
      (digits.drop (2 * ecdsa.length)).drop (2 * 3) := by
    rw [Nat.zero_mul, Nat.add_zero, Nat.add_assoc, hdrop, List.drop_drop]
  have hroot := @foldProof_eq _ hashing (2 + 2 * ecdsa.length + 3 * 2) index (tree.siblings hashing.node index) 0
    (hashing.deriveSeaportOrderHash components)
    (by rw [hnodesSlice, hsiblings, List.length_drop, List.length_drop]; omega) (by rw [hnodesSlice, hlast])
  rw [tree.getElem?_leaves, Option.some.injEq] at hleaf
  rw [hsiblings, ← hleaf, climb_siblings] at hroot
  have hpart : normalizeSeaportSignature (sliceText ('0' :: 'x' :: digits) 0 (2 + 2 * ecdsa.length)) =
      ecdsaSignature ecdsa := by
    have htext : sliceText ('0' :: 'x' :: digits) 0 (2 + 2 * ecdsa.length) =
        '0' :: 'x' :: digits.take (2 * ecdsa.length) := by
      rw [sliceText, List.drop_zero, Nat.add_comm]
      rfl
    rw [htext]
    refine normalizeSeaportSignature_eq ?_ hfirst
    rw [List.length_cons, List.length_cons, List.length_take]
    omega
  rw [hindexSlice, hindexValue, ← hleaf, hroot, hpart]

theorem flatMap_bytes_inj : ∀ {nodes nodes' : List Word32},
    nodes.flatMap Word32.bytes = nodes'.flatMap Word32.bytes → nodes.length = nodes'.length → nodes = nodes'
  | [], [], _, _ => rfl
  | ⟨bytes, hbytes⟩ :: rest, ⟨bytes', hbytes'⟩ :: rest', h, hlength => by
    rw [List.flatMap_cons, List.flatMap_cons] at h
    obtain ⟨rfl, htail⟩ := List.append_inj h (hbytes.trans hbytes'.symm)
    rw [flatMap_bytes_inj htail (Nat.succ.inj hlength)]

theorem bulkParts_inj {ecdsa ecdsa' : List UInt8} {index index' : Nat} {nodes nodes' : List Word32}
    (hecdsa : ecdsa.length = 64 ∨ ecdsa.length = 65) (hecdsa' : ecdsa'.length = 64 ∨ ecdsa'.length = 65)
    (hindex : index < 2 ^ 24) (hindex' : index' < 2 ^ 24)
    (h : ecdsa ++ (bulkIndexBytes index ++ nodes.flatMap Word32.bytes) =
      ecdsa' ++ (bulkIndexBytes index' ++ nodes'.flatMap Word32.bytes)) :
    ecdsa = ecdsa' ∧ index = index' ∧ nodes = nodes' := by
  have hnodes : ∀ l : List Word32, (l.flatMap Word32.bytes).length = 32 * l.length := fun l => by
    rw [List.length_flatMap, List.map_congr_left (fun w _ => w.length_eq), List.map_const', List.sum_replicate,
      smul_eq_mul, Nat.mul_comm]
  have hlength := congrArg List.length h
  simp only [List.length_append, hnodes, bulkIndexBytes, List.length_cons, List.length_nil] at hlength
  obtain ⟨rfl, hrest⟩ := List.append_inj h (by omega)
  obtain ⟨hbytes, htail⟩ := List.append_inj hrest rfl
  refine ⟨rfl, ?_, flatMap_bytes_inj htail (by omega)⟩
  simp only [bulkIndexBytes, List.cons.injEq, and_true] at hbytes
  obtain ⟨hhigh, hmiddle, hlow⟩ := hbytes
  have hvalue : ∀ {m n : Nat}, m < 256 → n < 256 → UInt8.ofNat m = UInt8.ofNat n → m = n := fun hm hn hmn => by
    have := congrArg UInt8.toNat hmn
    rwa [UInt8.toNat_ofNat_of_lt' hm, UInt8.toNat_ofNat_of_lt' hn] at this
  have := hvalue (by omega) (by omega) hhigh
  have := hvalue (by omega) (by omega) hmiddle
  have := hvalue (by omega) (by omega) hlow
  omega

/-- **Signatures are told apart by their length.**  A bulk signature is recovered from its ECDSA part over the
root of the tree that has the order at its index, and its bytes have no other parts; one of 64 or 65 bytes is of
the single order; any other length is refused, whatever the hashing functions are. -/
theorem recoverSeaportSigner_exact (hashing : SeaportHashing) (chainId : Nat) (order : hashing.Order) :
    (∀ (height index : Nat) (tree : CompleteTree Word32 height) (components : hashing.Components)
      (domain : hashing.Domain) (digits : List Char) (ecdsa : List UInt8),
      hashing.buildSeaportOrderComponents order = .ok components →
      hashing.buildSeaportTypedDataDomain chainId order = .ok domain →
      1 ≤ height ∧ height ≤ 24 → index < 2 ^ 24 →
      tree.leaves[index % 2 ^ height]? = some (hashing.deriveSeaportOrderHash components) →
      ecdsa.length = 64 ∨ ecdsa.length = 65 → digits.all Js.isHexDigit = true → digits.length % 2 = 0 →
      hexBytes digits = ecdsa ++ (bulkIndexBytes index ++
        (tree.siblings hashing.node index).flatMap Word32.bytes) →
      recoverSeaportSigner hashing chainId order ('0' :: 'x' :: digits) =
        hashing.recoverAddress (bulkDigest hashing domain height (tree.root hashing.node))
          (ecdsaSignature ecdsa)) ∧
    (∀ (ecdsa ecdsa' : List UInt8) (index index' : Nat) (nodes nodes' : List Word32),
      ecdsa.length = 64 ∨ ecdsa.length = 65 → ecdsa'.length = 64 ∨ ecdsa'.length = 65 →
      index < 2 ^ 24 → index' < 2 ^ 24 →
      ecdsa ++ (bulkIndexBytes index ++ nodes.flatMap Word32.bytes) =
        ecdsa' ++ (bulkIndexBytes index' ++ nodes'.flatMap Word32.bytes) →
      ecdsa = ecdsa' ∧ index = index' ∧ nodes = nodes') ∧
    (∀ signature : List Char, signature.length = 130 ∨ signature.length = 132 →
      recoverSeaportSigner hashing chainId order signature =
        if isSignatureHex signature = false then .error "Invalid Seaport signature hex"
        else do
          let components ← hashing.buildSeaportOrderComponents order
          let domain ← hashing.buildSeaportTypedDataDomain chainId order
          hashing.recoverTypedDataAddress domain components (normalizeSeaportSignature signature)) ∧
    (∀ signature : List Char, ¬ (signature.length = 130 ∨ signature.length = 132) →
      ¬ (∃ ecdsa height, (ecdsa = 64 ∨ ecdsa = 65) ∧ (1 ≤ height ∧ height ≤ 24) ∧
        signature.length = bulkLength ecdsa height) →
      recoverSeaportSigner hashing chainId order signature =
        .error (if signature = [] then "Missing Seaport signature"
          else "Unsupported Seaport signature length")) := by
  refine ⟨fun _ _ _ _ _ _ _ => recover_bulk, fun _ _ _ _ _ _ => bulkParts_inj, ?_, ?_⟩
  · intro signature hlength
    have hsingle := singleOrder_iff.mpr hlength
    have hne : signature ≠ [] := List.ne_nil_of_length_pos (by omega)
    rw [recoverSeaportSigner, if_neg hne, if_neg (by simp [hsingle])]
    simp [hsingle]
  · intro signature hsingle hbulk
    rw [recoverSeaportSigner]
    by_cases hne : signature = []
    · rw [if_pos hne, if_pos hne]
    rw [if_neg hne, if_neg hne, if_pos]
    refine ⟨by rw [← Bool.not_eq_true, singleOrder_iff]; exact hsingle, ?_⟩
    by_contra hguard
    rw [not_or, not_or, not_lt, gt_iff_lt, not_lt, Bool.not_eq_false] at hguard
    obtain ⟨hint, hlow, hhigh⟩ := hguard
    obtain ⟨k, hk⟩ := isInt_iff.mp hint
    rw [hk] at hlow hhigh
    have hpos : 1 ≤ k := by exact_mod_cast hlow
    have hmost : k ≤ 24 := by exact_mod_cast hhigh
    obtain ⟨ecdsa, height, hecdsa, hlength, rfl⟩ := bulk_of_height hne hk hpos
    exact hbulk ⟨ecdsa, height, hecdsa, by omega, hlength⟩

end Artgod.Indexer
