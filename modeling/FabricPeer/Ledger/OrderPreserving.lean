import FabricPeer.Ledger.KvRwSet
import FabricPeer.Lib.ByteOrder
import FabricPeer.Lib.Varint

/-! # Order-preserving numbers and heights in keys

`util.EncodeOrderPreservingVarUint64` writes a `uint64` as its bytes from the first nonzero one,
behind their count; `version.Height.ToBytes` writes the block number and then the transaction
number so. Every ledger key that holds a height is built this way, and its range scans rest on
three facts proved here: the encoding is read back from the front of any longer key
(`decodeOrderPreservingVarUint64_encode_append`), its byte order is the order of the numbers
(`encodeOrderPreservingVarUint64_lt_iff`), and no encoding extends another
(`encodeOrderPreservingVarUint64_prefix_free`), so that the byte order of `ToBytes` is the
lexicographic order of the two numbers.

`Height.Compare` does not use the bytes: it takes the sign of a wrapping `uint64` difference as
a signed `int`, which is the order of the numbers only while they are less than `2^63` apart.
-/

namespace FabricPeer.Ledger

open ByteOrder Asn1

set_option autoImplicit false

def startingIndexAndSize (bytes : Bytes) : ℕ × ℕ :=
  match bytes.findIdx? (· != 0) with
  | some i => (i, 8 - i)
  | none => (0, 0)

/-- `util.EncodeOrderPreservingVarUint64`. Go panics when the size takes more than one varint
byte; `length_sizeBytes` shows that it never does. -/
def encodeOrderPreservingVarUint64 (number : UInt64) : Bytes :=
  let bytes := putUint64 number
  let (startingIndex, size) := startingIndexAndSize bytes
  let sizeBytes := Varint.encode size
  sizeBytes.headD 0 :: (bytes.drop startingIndex).take size

/-- `util.DecodeOrderPreservingVarUint64`: the number and the count of bytes it took. -/
def decodeOrderPreservingVarUint64 (bytes : Bytes) : Except String (UInt64 × ℕ) :=
  let (s, numBytes) := (Varint.decode bytes).getD (0, 0)
  let available := bytes.length - 1
  if numBytes ≠ 1 then
    .error s!"number of consumed bytes from DecodeVarint is invalid, expected 1, but got {numBytes}"
  else if s > 8 then
    .error s!"decoded size from DecodeVarint is invalid, expected <=8, but got {s}"
  else if s > available then
    .error s!"decoded size ({s}) from DecodeVarint is more than available bytes ({available})"
  else
    let size := s
    let decodedBytes := List.replicate (8 - size) 0 ++ (bytes.drop 1).take size
    .ok (uint64 decodedBytes, size + 1)

/-- `Height.ToBytes`. -/
def Height.toBytes (h : Height) : Bytes :=
  encodeOrderPreservingVarUint64 h.blockNum ++ encodeOrderPreservingVarUint64 h.txNum

def Height.lexLt (h1 h2 : Height) : Prop :=
  h1.blockNum < h2.blockNum ∨ h1.blockNum = h2.blockNum ∧ h1.txNum < h2.txNum

instance (h1 h2 : Height) : Decidable (h1.lexLt h2) := inferInstanceAs (Decidable (_ ∨ _))

/-- `version.NewHeightFromBytes`: the height and the count of bytes it took. -/
def newHeightFromBytes (b : Bytes) : Except String (Height × ℕ) := do
  let (blockNum, n1) ← decodeOrderPreservingVarUint64 b
  let (txNum, n2) ← decodeOrderPreservingVarUint64 (b.drop n1)
  return (⟨blockNum, txNum⟩, n1 + n2)

section Encoding

theorem length_bigEndian_toNat_le (n : UInt64) : (bigEndian n.toNat).length ≤ 8 :=
  (length_bigEndian_le_iff _ 8).2 n.toNat_lt

theorem startingIndexAndSize_putUint64 (n : UInt64) :
    startingIndexAndSize (putUint64 n) =
      if bigEndian n.toNat = [] then (0, 0)
      else (8 - (bigEndian n.toNat).length, (bigEndian n.toNat).length) := by
  have hLen := length_bigEndian_toNat_le n
  unfold startingIndexAndSize
  rw [putUint64_eq, findIdx?_replicate_zero_append _ (head?_bigEndian_ne_zero _)]
  by_cases hNil : bigEndian n.toNat = []
  · simp only [hNil, if_true]
  · simp only [hNil, if_false, Prod.mk.injEq, true_and]
    omega

theorem length_sizeBytes (n : UInt64) :
    (Varint.encode (startingIndexAndSize (putUint64 n)).2).length = 1 := by
  have hSize : (startingIndexAndSize (putUint64 n)).2 < 128 := by
    have hLen := length_bigEndian_toNat_le n
    rw [startingIndexAndSize_putUint64]
    split <;> omega
  rw [Varint.encode_of_lt hSize, List.length_singleton]

theorem encodeOrderPreservingVarUint64_eq (n : UInt64) :
    encodeOrderPreservingVarUint64 n =
      UInt8.ofNat (bigEndian n.toNat).length :: bigEndian n.toNat := by
  have hLen := length_bigEndian_toNat_le n
  dsimp only [encodeOrderPreservingVarUint64]
  rw [startingIndexAndSize_putUint64]
  by_cases hNil : bigEndian n.toNat = []
  · simp only [hNil, if_true]
    rfl
  · simp only [hNil, if_false]
    rw [Varint.encode_of_lt (by omega), List.headD_cons, putUint64_eq,
      List.drop_left' (List.length_replicate ..), List.take_of_length_le (Nat.le_refl _)]

theorem length_encodeOrderPreservingVarUint64 (n : UInt64) :
    (encodeOrderPreservingVarUint64 n).length = (bigEndian n.toNat).length + 1 := by
  rw [encodeOrderPreservingVarUint64_eq, List.length_cons]

theorem toNat_sizeByte (n : UInt64) :
    (UInt8.ofNat (bigEndian n.toNat).length).toNat = (bigEndian n.toNat).length :=
  Varint.toNat_ofNat_of_lt (by have := length_bigEndian_toNat_le n; omega)

theorem decode_sizeByte (n : UInt64) (rest : Bytes) :
    Varint.decode (UInt8.ofNat (bigEndian n.toNat).length :: rest) =
      some ((bigEndian n.toNat).length, 1) := by
  have hLen := length_bigEndian_toNat_le n
  rw [Varint.decode, toNat_sizeByte, if_pos (by omega)]

theorem decodeOrderPreservingVarUint64_encode_append (n : UInt64) (rest : Bytes) :
    decodeOrderPreservingVarUint64 (encodeOrderPreservingVarUint64 n ++ rest) =
      .ok (n, (encodeOrderPreservingVarUint64 n).length) := by
  have hLen := length_bigEndian_toNat_le n
  have hTake : ((bigEndian n.toNat ++ rest).take (bigEndian n.toNat).length) = bigEndian n.toNat :=
    List.take_left' rfl
  rw [encodeOrderPreservingVarUint64_eq, List.cons_append]
  unfold decodeOrderPreservingVarUint64
  rw [decode_sizeByte]
  simp only [Option.getD_some, ne_eq, not_true_eq_false, if_false, List.length_cons,
    List.length_append, List.drop_one, List.tail_cons, hTake]
  rw [if_neg (by omega), if_neg (by omega), uint64_replicate_zero_append _ n.toNat_lt,
    UInt64.ofNat_toNat]

theorem encodeOrderPreservingVarUint64_lt_iff (m n : UInt64) :
    encodeOrderPreservingVarUint64 m < encodeOrderPreservingVarUint64 n ↔ m < n := by
  rw [encodeOrderPreservingVarUint64_eq, encodeOrderPreservingVarUint64_eq, List.cons_lt_cons_iff,
    UInt8.lt_iff_toNat_lt, toNat_sizeByte, toNat_sizeByte, UInt64.lt_iff_toNat_lt]
  constructor
  · rintro (hShorter | ⟨hSame, hLt⟩)
    · by_contra hNot
      exact absurd (length_bigEndian_le_of_le (Nat.le_of_not_lt hNot)) (Nat.not_le_of_lt hShorter)
    · have hLen : (bigEndian m.toNat).length = (bigEndian n.toNat).length := by
        have := congrArg UInt8.toNat hSame
        rwa [toNat_sizeByte, toNat_sizeByte] at this
      simpa using (lt_iff_ofBigEndian_lt hLen).1 hLt
  · intro hLt
    rcases Nat.lt_or_eq_of_le (length_bigEndian_le_of_le (Nat.le_of_lt hLt)) with hShorter | hLen
    · exact .inl hShorter
    · refine .inr ⟨by rw [hLen], ?_⟩
      rw [lt_iff_ofBigEndian_lt hLen, ofBigEndian_bigEndian, ofBigEndian_bigEndian]
      exact hLt

theorem encodeOrderPreservingVarUint64_injective {m n : UInt64}
    (h : encodeOrderPreservingVarUint64 m = encodeOrderPreservingVarUint64 n) : m = n := by
  have hRead := decodeOrderPreservingVarUint64_encode_append m []
  rw [h, decodeOrderPreservingVarUint64_encode_append n []] at hRead
  cases hRead
  rfl

theorem encodeOrderPreservingVarUint64_prefix_free {m n : UInt64}
    (h : encodeOrderPreservingVarUint64 m <+: encodeOrderPreservingVarUint64 n) : m = n := by
  have hHead := h
  rw [encodeOrderPreservingVarUint64_eq, encodeOrderPreservingVarUint64_eq,
    List.cons_prefix_cons] at hHead
  have hLen : (encodeOrderPreservingVarUint64 m).length = (encodeOrderPreservingVarUint64 n).length := by
    have := congrArg UInt8.toNat hHead.1
    rw [toNat_sizeByte, toNat_sizeByte] at this
    rw [length_encodeOrderPreservingVarUint64, length_encodeOrderPreservingVarUint64, this]
  exact encodeOrderPreservingVarUint64_injective (h.eq_of_length hLen)

end Encoding

section Heights

theorem Height.toBytes_lt_iff (h1 h2 : Height) :
    h1.toBytes < h2.toBytes ↔ h1.lexLt h2 := by
  unfold Height.toBytes Height.lexLt
  by_cases hBlock : h1.blockNum = h2.blockNum
  · rw [hBlock, append_lt_append_left_iff, encodeOrderPreservingVarUint64_lt_iff]
    simp [UInt64.lt_irrefl]
  · have hAB : ¬ encodeOrderPreservingVarUint64 h1.blockNum <+: encodeOrderPreservingVarUint64 h2.blockNum :=
      fun hPre => hBlock (encodeOrderPreservingVarUint64_prefix_free hPre)
    have hBA : ¬ encodeOrderPreservingVarUint64 h2.blockNum <+: encodeOrderPreservingVarUint64 h1.blockNum :=
      fun hPre => hBlock (encodeOrderPreservingVarUint64_prefix_free hPre).symm
    rw [append_lt_append_iff _ _ hAB hBA, encodeOrderPreservingVarUint64_lt_iff]
    simp [hBlock]

theorem newHeightFromBytes_toBytes_append (h : Height) (rest : Bytes) :
    newHeightFromBytes (h.toBytes ++ rest) = .ok (h, h.toBytes.length) := by
  unfold newHeightFromBytes Height.toBytes
  rw [List.append_assoc, decodeOrderPreservingVarUint64_encode_append]
  simp only [bind, Except.bind, List.drop_left, decodeOrderPreservingVarUint64_encode_append,
    List.length_append]
  rfl

theorem Height.toBytes_injective {h1 h2 : Height} (h : h1.toBytes = h2.toBytes) : h1 = h2 := by
  have hRead := newHeightFromBytes_toBytes_append h1 []
  rw [h, newHeightFromBytes_toBytes_append h2 []] at hRead
  cases hRead
  rfl

theorem Height.bytesCompare_toBytes (h1 h2 : Height) :
    bytesCompare h1.toBytes h2.toBytes =
      if h1.lexLt h2 then -1
      else if h1 = h2 then 0 else 1 :=
  bytesCompare_of_iff (Height.toBytes_lt_iff h1 h2) ⟨Height.toBytes_injective, congrArg _⟩

/-- The encoding is a prefix-free code for the order of `uint64`, read back from the front of any
key, and so is `ToBytes` for the lexicographic order of heights. -/
theorem orderPreservingVarUint64_prefix_free_order_code :
    (∀ (n : UInt64) (rest : Bytes),
      decodeOrderPreservingVarUint64 (encodeOrderPreservingVarUint64 n ++ rest) =
        .ok (n, (encodeOrderPreservingVarUint64 n).length)) ∧
    (∀ m n : UInt64,
      bytesCompare (encodeOrderPreservingVarUint64 m) (encodeOrderPreservingVarUint64 n) =
        if m < n then -1 else if m = n then 0 else 1) ∧
    (∀ m n : UInt64, encodeOrderPreservingVarUint64 m <+: encodeOrderPreservingVarUint64 n →
      encodeOrderPreservingVarUint64 m = encodeOrderPreservingVarUint64 n) ∧
    (∀ (h : Height) (rest : Bytes),
      newHeightFromBytes (h.toBytes ++ rest) = .ok (h, h.toBytes.length)) ∧
    (∀ h1 h2 : Height, bytesCompare h1.toBytes h2.toBytes =
      if h1.lexLt h2 then -1
      else if h1 = h2 then 0 else 1) := by
  refine ⟨decodeOrderPreservingVarUint64_encode_append, ?_, ?_, newHeightFromBytes_toBytes_append,
    Height.bytesCompare_toBytes⟩
  · intro m n
    exact bytesCompare_of_iff (encodeOrderPreservingVarUint64_lt_iff m n)
      ⟨encodeOrderPreservingVarUint64_injective, congrArg _⟩
  · intro m n hPre
    rw [encodeOrderPreservingVarUint64_prefix_free hPre]

end Heights

section Compare

theorem toInt_toInt64 (x : UInt64) :
    x.toInt64.toInt = if x.toNat < 2 ^ 63 then (x.toNat : Int) else x.toNat - 2 ^ 64 := by
  rw [Int64.toInt, UInt64.toBitVec_toInt64, BitVec.toInt_eq_toNat_cond]
  simp only [UInt64.toNat_toBitVec]
  split <;> split <;> omega

theorem toNat_sub_of_lt {a b : UInt64} (h : a.toNat < b.toNat) :
    (a - b).toNat = 2 ^ 64 - b.toNat + a.toNat := by
  rw [UInt64.toNat_sub]
  have hb := b.toNat_lt
  exact Nat.mod_eq_of_lt (by omega)

theorem toNat_sub_of_le {a b : UInt64} (h : b.toNat ≤ a.toNat) : (a - b).toNat = a.toNat - b.toNat :=
  UInt64.toNat_sub_of_le a b (UInt64.le_iff_toNat_le.2 h)

theorem toInt_toInt64_sub_pos_iff {a b : UInt64} (hNe : a ≠ b) :
    0 < (a - b).toInt64.toInt ↔ (a - b).toNat < 2 ^ 63 := by
  have hNonzero : (a - b).toNat ≠ 0 := by
    intro hZero
    apply hNe
    apply UInt64.toNat_inj.1
    rcases Nat.lt_or_ge a.toNat b.toNat with hLt | hLe
    · rw [toNat_sub_of_lt hLt] at hZero
      have := b.toNat_lt
      omega
    · rw [toNat_sub_of_le hLe] at hZero
      omega
  have hBound := (a - b).toNat_lt
  rw [toInt_toInt64]
  split <;> omega

theorem Height.compare_of_blockNum_ne {h h1 : Height} (hBlock : h.blockNum ≠ h1.blockNum) :
    h.compare h1 = if (h.blockNum - h1.blockNum).toNat < 2 ^ 63 then 1 else -1 := by
  simp only [Height.compare, ne_eq, hBlock, not_false_eq_true, if_true, gt_iff_lt]
  exact if_congr (toInt_toInt64_sub_pos_iff hBlock) rfl rfl

theorem Height.compare_of_txNum_ne {h h1 : Height} (hBlock : h.blockNum = h1.blockNum)
    (hTx : h.txNum ≠ h1.txNum) :
    h.compare h1 = if (h.txNum - h1.txNum).toNat < 2 ^ 63 then 1 else -1 := by
  simp only [Height.compare, ne_eq, hBlock, hTx, not_true_eq_false, not_false_eq_true, if_false,
    if_true, gt_iff_lt]
  exact if_congr (toInt_toInt64_sub_pos_iff hTx) rfl rfl

theorem toNat_sub_lt_half_iff {a b : UInt64} (hNe : a ≠ b) (ha : a.toNat < 2 ^ 63)
    (hb : b.toNat < 2 ^ 63) : (a - b).toNat < 2 ^ 63 ↔ b < a := by
  have hNe' : a.toNat ≠ b.toNat := fun h => hNe (UInt64.toNat_inj.1 h)
  rw [UInt64.lt_iff_toNat_lt]
  rcases Nat.lt_or_ge a.toNat b.toNat with hLt | hLe
  · rw [toNat_sub_of_lt hLt]
    omega
  · rw [toNat_sub_of_le hLe]
    omega

theorem sign_of_ne {a b : UInt64} (hNe : a ≠ b) :
    (if b < a then (1 : Int) else -1) = if a < b then -1 else 1 := by
  have hNe' : a.toNat ≠ b.toNat := fun h => hNe (UInt64.toNat_inj.1 h)
  simp only [UInt64.lt_iff_toNat_lt]
  split <;> split <;> omega

theorem Height.compare_eq_of_lt_half (h1 h2 : Height)
    (hBlocks : h1.blockNum.toNat < 2 ^ 63 ∧ h2.blockNum.toNat < 2 ^ 63)
    (hTxs : h1.txNum.toNat < 2 ^ 63 ∧ h2.txNum.toNat < 2 ^ 63) :
    h1.compare h2 = if h1.lexLt h2 then -1 else if h1 = h2 then 0 else 1 := by
  by_cases hBlock : h1.blockNum = h2.blockNum
  · by_cases hTx : h1.txNum = h2.txNum
    · obtain rfl : h1 = h2 := by
        cases h1
        cases h2
        simp_all
      rw [(Height.compare_eq_zero_iff _ _).2 rfl]
      simp [Height.lexLt, UInt64.lt_irrefl]
    · have hNe : h1 ≠ h2 := fun h => hTx (h ▸ rfl)
      have hLex : h1.lexLt h2 ↔ h1.txNum < h2.txNum := by
        simp [Height.lexLt, hBlock, UInt64.lt_irrefl]
      rw [Height.compare_of_txNum_ne hBlock hTx,
        if_congr (toNat_sub_lt_half_iff hTx hTxs.1 hTxs.2) rfl rfl, sign_of_ne hTx,
        if_congr hLex rfl rfl, if_neg hNe]
  · have hNe : h1 ≠ h2 := fun h => hBlock (h ▸ rfl)
    have hLex : h1.lexLt h2 ↔ h1.blockNum < h2.blockNum := by
      simp [Height.lexLt, hBlock]
    rw [Height.compare_of_blockNum_ne hBlock,
      if_congr (toNat_sub_lt_half_iff hBlock hBlocks.1 hBlocks.2) rfl rfl, sign_of_ne hBlock,
      if_congr hLex rfl rfl, if_neg hNe]

def Height.BelowHalf (h : Height) : Prop := h.blockNum.toNat < 2 ^ 63 ∧ h.txNum.toNat < 2 ^ 63

theorem Height.lexLt_iff_toNat (h1 h2 : Height) :
    h1.lexLt h2 ↔ h1.blockNum.toNat < h2.blockNum.toNat ∨
      h1.blockNum.toNat = h2.blockNum.toNat ∧ h1.txNum.toNat < h2.txNum.toNat := by
  simp only [Height.lexLt, UInt64.lt_iff_toNat_lt, UInt64.toNat_inj]

theorem Height.eq_iff_toNat (h1 h2 : Height) :
    h1 = h2 ↔ h1.blockNum.toNat = h2.blockNum.toNat ∧ h1.txNum.toNat = h2.txNum.toNat := by
  obtain ⟨b1, t1⟩ := h1
  obtain ⟨b2, t2⟩ := h2
  simp only [Height.mk.injEq, UInt64.toNat_inj]

theorem Height.compare_le_zero_iff {h1 h2 : Height} (hs1 : h1.BelowHalf) (hs2 : h2.BelowHalf) :
    h1.compare h2 ≤ 0 ↔ ¬ h2.lexLt h1 := by
  rw [Height.compare_eq_of_lt_half h1 h2 ⟨hs1.1, hs2.1⟩ ⟨hs1.2, hs2.2⟩]
  simp only [Height.lexLt_iff_toNat, Height.eq_iff_toNat]
  split_ifs <;> omega

theorem Height.compare_pos_iff {h1 h2 : Height} (hs1 : h1.BelowHalf) (hs2 : h2.BelowHalf) :
    h1.compare h2 > 0 ↔ h2.lexLt h1 := by
  rw [gt_iff_lt, ← not_le, Height.compare_le_zero_iff hs1 hs2, not_not]

/-- Block numbers more than `2^63` apart compare the wrong way round, while their keys keep the
order: the smaller height compares as the greater. -/
theorem Height.compare_reverses_distant_blocks (h1 h2 : Height)
    (hFar : h1.blockNum.toNat + 2 ^ 63 < h2.blockNum.toNat) :
    h1.lexLt h2 ∧
      bytesCompare h1.toBytes h2.toBytes = -1 ∧ h1.compare h2 = 1 ∧ h2.compare h1 = -1 := by
  have hLt : h1.blockNum < h2.blockNum := UInt64.lt_iff_toNat_lt.2 (by omega)
  have hNe : h1.blockNum ≠ h2.blockNum := UInt64.ne_of_lt hLt
  have hLex : h1.lexLt h2 := .inl hLt
  refine ⟨hLex, by rw [Height.bytesCompare_toBytes, if_pos hLex], ?_, ?_⟩
  · rw [Height.compare_of_blockNum_ne hNe, toNat_sub_of_lt (by omega)]
    have := h2.blockNum.toNat_lt
    exact if_pos (by omega)
  · rw [Height.compare_of_blockNum_ne (Ne.symm hNe), toNat_sub_of_le (by omega)]
    exact if_neg (by omega)

theorem Height.compare_reverses_zero_and_past_half :
    (Height.mk 0 0).blockNum.toNat + 2 ^ 63 < (Height.mk 9223372036854775809 0).blockNum.toNat ∧
      (Height.mk 0 0).lexLt ⟨9223372036854775809, 0⟩ ∧
      bytesCompare (Height.mk 0 0).toBytes (Height.mk 9223372036854775809 0).toBytes = -1 ∧
      (Height.mk 0 0).compare ⟨9223372036854775809, 0⟩ = 1 ∧
      (Height.mk 9223372036854775809 0).compare ⟨0, 0⟩ = -1 :=
  ⟨by decide, Height.compare_reverses_distant_blocks ⟨0, 0⟩ ⟨9223372036854775809, 0⟩ (by decide)⟩

end Compare

end FabricPeer.Ledger
