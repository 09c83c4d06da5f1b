import FabricPeer.Pvtdatastorage.Store
import FabricPeer.Ledger.OrderPreserving

/-! # The encoding of the missing-data keys

The bitmaps of missing private data are keyed by namespace, collection and block.
`encodeReverseOrderVarUint64` writes the block number as the bytes of `MaxUint64 - number` after
their leading `0xff` bytes, behind the count of those bytes, so that a later block has the
smaller key; the eligible keys put it first, behind their group byte, and the ineligible keys
put it last, behind the namespace and the collection, each name ended by a `0x00` byte.

The facts that the reads of these maps rest on are proved here: the number is read back from the
front of any longer key (`decodeReverseOrderVarUint64_encode_append`), the byte order of
encodings is the reverse of the order of the numbers (`encodeReverseOrderVarUint64_lt_iff`), no
encoding extends another (`encodeReverseOrderVarUint64_prefix_free`), and so the eligible keys of
one group are ordered by block, latest first, then by namespace and collection
(`encodeElgMissingDataKey_lt_iff`), which is the order `NsCollBlk.lexKey` gives their map in the
store. Go strings are sequences of bytes, and the names here are their bytes.
-/

namespace FabricPeer.Pvtdatastorage

open FabricPeer.Ledger ByteOrder Asn1 GoRun

set_option autoImplicit false

/-! ## Reverse-order numbers -/

/-- `encodeReverseOrderVarUint64`: the bytes of `MaxUint64 - number` after its leading `0xff`
bytes, behind their count. -/
def encodeReverseOrderVarUint64 (number : UInt64) : Bytes :=
  let bytes := putUint64 (maxUint64 - number)
  let numFFBytes := (bytes.takeWhile (· == 0xff)).length
  let size := 8 - numFFBytes
  (Varint.encode numFFBytes).headD 0 :: (bytes.drop numFFBytes).take size

/-- `decodeReverseOrderVarUint64`: the number and the count of bytes it took. The count byte is
read with `proto.DecodeVarint`, a failed read being zero, and the slices are not checked: a count
above `8` or too few bytes make them panic. -/
def decodeReverseOrderVarUint64 (bytes : Bytes) : Run (UInt64 × ℕ) :=
  let s := ((Varint.decode bytes).getD (0, 0)).1
  if 8 < s then .error (.panic "runtime error: slice bounds out of range")
  else
    let numFFBytes := s
    let realBytesNum := 8 - numFFBytes
    if bytes.length < realBytesNum + 1 then .error (.panic "runtime error: slice bounds out of range")
    else
      let decodedBytes := List.replicate numFFBytes 0xff ++ (bytes.drop 1).take realBytesNum
      .ok (maxUint64 - uint64 decodedBytes, realBytesNum + 1)

section Reverse

theorem takeWhile_replicate_append (c : UInt8) (k : ℕ) {l : Bytes} (hHead : l.head? ≠ some c) :
    (List.replicate k c ++ l).takeWhile (· == c) = List.replicate k c := by
  induction k with
  | zero =>
    cases l with
    | nil => rfl
    | cons b l =>
      have hb : b ≠ c := fun hb => hHead (by rw [hb]; rfl)
      simp [hb]
  | succ k ih => simp [List.replicate_succ, ih]

theorem takeWhile_complement_putUint64 (n : UInt64) :
    ((putUint64 n).map (0xff - ·)).takeWhile (· == 0xff) =
      List.replicate (8 - (bigEndian n.toNat).length) 0xff := by
  rw [putUint64_eq, List.map_append, List.map_replicate]
  apply takeWhile_replicate_append
  intro hHead
  cases hBytes : bigEndian n.toNat with
  | nil => rw [hBytes] at hHead; cases hHead
  | cons b bs =>
    rw [hBytes, List.map_cons, List.head?_cons, Option.some_inj] at hHead
    have hb : b ≠ 0 := fun hb => head?_bigEndian_ne_zero n.toNat (by rw [hBytes, hb]; rfl)
    apply hb
    have hNat := congrArg UInt8.toNat hHead
    simp only [toNat_complement, UInt8.reduceToNat] at hNat
    have hLt := b.toNat_lt
    exact UInt8.toNat_inj.1 (by simp only [UInt8.reduceToNat]; omega)

theorem encodeReverseOrderVarUint64_eq (n : UInt64) :
    encodeReverseOrderVarUint64 n =
      UInt8.ofNat (8 - (bigEndian n.toNat).length) :: (bigEndian n.toNat).map (0xff - ·) := by
  have hLen : (bigEndian n.toNat).length ≤ 8 := length_bigEndian_toNat_le n
  dsimp only [encodeReverseOrderVarUint64]
  rw [maxUint64, putUint64_complement, takeWhile_complement_putUint64, List.length_replicate,
    Varint.encode_of_lt (by omega), List.headD_cons, putUint64_eq, List.map_append,
    List.drop_left' (by simp), List.take_of_length_le (by simp; omega)]

theorem length_encodeReverseOrderVarUint64 (n : UInt64) :
    (encodeReverseOrderVarUint64 n).length = (bigEndian n.toNat).length + 1 := by
  rw [encodeReverseOrderVarUint64_eq, List.length_cons, List.length_map]

theorem toNat_countByte (n : UInt64) :
    (UInt8.ofNat (8 - (bigEndian n.toNat).length)).toNat = 8 - (bigEndian n.toNat).length :=
  Varint.toNat_ofNat_of_lt (by omega)

theorem maxUint64_sub_sub (n : UInt64) : maxUint64 - (maxUint64 - n) = n := by
  have hn := n.toNat_lt
  have hLe : n ≤ maxUint64 := UInt64.le_iff_toNat_le.2 (by simp only [maxUint64, UInt64.reduceToNat]; omega)
  apply UInt64.toNat_inj.1
  rw [UInt64.toNat_sub_of_le _ _ (UInt64.le_iff_toNat_le.2 (by rw [UInt64.toNat_sub_of_le _ _ hLe]; omega)),
    UInt64.toNat_sub_of_le _ _ hLe]
  have := UInt64.le_iff_toNat_le.1 hLe
  omega

theorem decodeReverseOrderVarUint64_encode_append (n : UInt64) (rest : Bytes) :
    decodeReverseOrderVarUint64 (encodeReverseOrderVarUint64 n ++ rest) =
      .ok (n, (encodeReverseOrderVarUint64 n).length) := by
  have hLen : (bigEndian n.toNat).length ≤ 8 := length_bigEndian_toNat_le n
  have hCount : Varint.decode (encodeReverseOrderVarUint64 n ++ rest) =
      some (8 - (bigEndian n.toNat).length, 1) := by
    rw [encodeReverseOrderVarUint64_eq, List.cons_append, Varint.decode, toNat_countByte,
      if_pos (by omega)]
  have hBytes : List.replicate (8 - (bigEndian n.toNat).length) 0xff ++
      ((encodeReverseOrderVarUint64 n ++ rest).drop 1).take (8 - (8 - (bigEndian n.toNat).length)) =
        putUint64 (maxUint64 - n) := by
    rw [maxUint64, putUint64_complement, putUint64_eq, List.map_append, List.map_replicate,
      encodeReverseOrderVarUint64_eq, List.cons_append, List.drop_one, List.tail_cons,
      show 8 - (8 - (bigEndian n.toNat).length) = (bigEndian n.toNat).length by omega,
      List.take_left' (by simp)]
    rfl
  unfold decodeReverseOrderVarUint64
  simp only [hCount, Option.getD_some]
  rw [if_neg (by omega), if_neg (by rw [List.length_append, length_encodeReverseOrderVarUint64]; omega),
    hBytes, uint64_putUint64, maxUint64_sub_sub, length_encodeReverseOrderVarUint64]
  congr 2
  omega

theorem encodeReverseOrderVarUint64_lt_iff (m n : UInt64) :
    encodeReverseOrderVarUint64 m < encodeReverseOrderVarUint64 n ↔ n < m := by
  rw [encodeReverseOrderVarUint64_eq, encodeReverseOrderVarUint64_eq, List.cons_lt_cons_iff,
    UInt8.lt_iff_toNat_lt, toNat_countByte, toNat_countByte, UInt64.lt_iff_toNat_lt]
  have hm : (bigEndian m.toNat).length ≤ 8 := length_bigEndian_toNat_le m
  have hn : (bigEndian n.toNat).length ≤ 8 := length_bigEndian_toNat_le n
  constructor
  · rintro (hLonger | ⟨hSame, hLt⟩)
    · by_contra hNot
      have := length_bigEndian_le_of_le (Nat.le_of_not_lt hNot)
      omega
    · have hLen : (bigEndian m.toNat).length = (bigEndian n.toNat).length := by
        have := congrArg UInt8.toNat hSame
        rw [toNat_countByte, toNat_countByte] at this
        omega
      rw [map_complement_lt_iff hLen, lt_iff_ofBigEndian_lt hLen.symm, ofBigEndian_bigEndian,
        ofBigEndian_bigEndian] at hLt
      exact hLt
  · intro hLt
    rcases Nat.lt_or_eq_of_le (length_bigEndian_le_of_le (Nat.le_of_lt hLt)) with hShorter | hLen
    · exact .inl (by omega)
    · refine .inr ⟨by rw [hLen], ?_⟩
      rw [map_complement_lt_iff hLen.symm, lt_iff_ofBigEndian_lt hLen, ofBigEndian_bigEndian,
        ofBigEndian_bigEndian]
      exact hLt

theorem encodeReverseOrderVarUint64_injective {m n : UInt64}
    (h : encodeReverseOrderVarUint64 m = encodeReverseOrderVarUint64 n) : m = n := by
  have hRead := decodeReverseOrderVarUint64_encode_append m []
  rw [h, decodeReverseOrderVarUint64_encode_append n []] at hRead
  cases hRead
  rfl

theorem encodeReverseOrderVarUint64_prefix_free {m n : UInt64}
    (h : encodeReverseOrderVarUint64 m <+: encodeReverseOrderVarUint64 n) : m = n := by
  have hHead := h
  rw [encodeReverseOrderVarUint64_eq, encodeReverseOrderVarUint64_eq, List.cons_prefix_cons] at hHead
  have hLen : (encodeReverseOrderVarUint64 m).length = (encodeReverseOrderVarUint64 n).length := by
    have := congrArg UInt8.toNat hHead.1
    rw [toNat_countByte, toNat_countByte] at this
    have hm : (bigEndian m.toNat).length ≤ 8 := length_bigEndian_toNat_le m
    have hn : (bigEndian n.toNat).length ≤ 8 := length_bigEndian_toNat_le n
    rw [length_encodeReverseOrderVarUint64, length_encodeReverseOrderVarUint64]
    omega
  exact encodeReverseOrderVarUint64_injective (h.eq_of_length hLen)

end Reverse

/-! ## Missing-data keys -/

def elgPrioritizedMissingDataGroup : Bytes := [4]

def inelgMissingDataGroup : Bytes := [5]

def elgDeprioritizedMissingDataGroup : Bytes := [8]

def nilByte : UInt8 := 0

/-- `missingDataKey`, its namespace and collection as the bytes of the Go strings. -/
structure MissingDataKey where
  ns : Bytes
  coll : Bytes
  blkNum : UInt64
  deriving DecidableEq, Repr

def encodeElgMissingDataKey (group : Bytes) (key : MissingDataKey) : Bytes :=
  group ++ encodeReverseOrderVarUint64 key.blkNum ++ key.ns ++ [nilByte] ++ key.coll

def encodeElgPrioMissingDataKey (key : MissingDataKey) : Bytes :=
  encodeElgMissingDataKey elgPrioritizedMissingDataGroup key

def encodeElgDeprioMissingDataKey (key : MissingDataKey) : Bytes :=
  encodeElgMissingDataKey elgDeprioritizedMissingDataGroup key

/-- `decodeElgMissingDataKey`: `bytes.Split` of what follows the number, its first two parts. -/
def decodeElgMissingDataKey (keyBytes : Bytes) : Run MissingDataKey := do
  let rest ← sliceFrom keyBytes 1
  let (blkNum, numBytesConsumed) ← decodeReverseOrderVarUint64 rest
  let names ← sliceFrom keyBytes (numBytesConsumed + 1)
  let splittedKey := names.splitOn nilByte
  let ns ← index splittedKey 0
  let coll ← index splittedKey 1
  pure ⟨ns, coll, blkNum⟩

/-- `encodeInelgMissingDataKey`: the names first, the number last. -/
def encodeInelgMissingDataKey (key : MissingDataKey) : Bytes :=
  inelgMissingDataGroup ++ key.ns ++ [nilByte] ++ key.coll ++ [nilByte] ++
    encodeReverseOrderVarUint64 key.blkNum

/-- `decodeInelgMissingDataKey`: `bytes.SplitN` into at most three parts, since the bytes of the
number may hold zeros. -/
def decodeInelgMissingDataKey (keyBytes : Bytes) : Run MissingDataKey := do
  let rest ← sliceFrom keyBytes 1
  let splittedKey := splitN rest nilByte 3
  let ns ← index splittedKey 0
  let coll ← index splittedKey 1
  let blkNumBytes ← index splittedKey 2
  let (blkNum, _) ← decodeReverseOrderVarUint64 blkNumBytes
  pure ⟨ns, coll, blkNum⟩

section Keys

theorem decodeElgMissingDataKey_encodeElgMissingDataKey (group : UInt8) (key : MissingDataKey)
    (hNs : nilByte ∉ key.ns) (hColl : nilByte ∉ key.coll) :
    decodeElgMissingDataKey (encodeElgMissingDataKey [group] key) = .ok key := by
  have hRead := decodeReverseOrderVarUint64_encode_append key.blkNum (key.ns ++ nilByte :: key.coll)
  unfold decodeElgMissingDataKey encodeElgMissingDataKey
  generalize encodeReverseOrderVarUint64 key.blkNum = e at hRead ⊢
  have hKey : [group] ++ e ++ key.ns ++ [nilByte] ++ key.coll =
      group :: (e ++ (key.ns ++ nilByte :: key.coll)) := by
    simp only [List.cons_append, List.nil_append, List.append_assoc]
  have hNames : sliceFrom (group :: (e ++ (key.ns ++ nilByte :: key.coll))) (e.length + 1) =
      .ok (key.ns ++ nilByte :: key.coll) := by
    rw [sliceFrom_of_le _ (by simp only [List.length_cons, List.length_append]; omega),
      List.drop_succ_cons, List.drop_left]
  rw [hKey, sliceFrom_of_le _ (by simp only [List.length_cons]; omega), bind_ok, List.drop_one,
    List.tail_cons, hRead, bind_ok]
  dsimp only
  rw [hNames, bind_ok, splitOn_append_sep hNs hColl]
  rfl

theorem decodeInelgMissingDataKey_encodeInelgMissingDataKey (key : MissingDataKey)
    (hNs : nilByte ∉ key.ns) (hColl : nilByte ∉ key.coll) :
    decodeInelgMissingDataKey (encodeInelgMissingDataKey key) = .ok key := by
  have hRead := decodeReverseOrderVarUint64_encode_append key.blkNum []
  rw [List.append_nil] at hRead
  unfold decodeInelgMissingDataKey encodeInelgMissingDataKey
  generalize encodeReverseOrderVarUint64 key.blkNum = e at hRead ⊢
  have hKey : inelgMissingDataGroup ++ key.ns ++ [nilByte] ++ key.coll ++ [nilByte] ++ e =
      5 :: (key.ns ++ nilByte :: (key.coll ++ nilByte :: e)) := by
    simp only [inelgMissingDataGroup, List.cons_append, List.nil_append, List.append_assoc]
  have hSplit : splitN (key.ns ++ nilByte :: (key.coll ++ nilByte :: e)) nilByte 3 =
      [key.ns, key.coll, e] := by
    rw [splitN_append_sep hNs, splitN_append_sep hColl]
    rfl
  rw [hKey, sliceFrom_of_le _ (by simp only [List.length_cons]; omega), bind_ok, List.drop_one,
    List.tail_cons, hSplit]
  have hNsAt : index [key.ns, key.coll, e] 0 = .ok key.ns := rfl
  have hCollAt : index [key.ns, key.coll, e] 1 = .ok key.coll := rfl
  have hBlkAt : index [key.ns, key.coll, e] 2 = .ok e := rfl
  dsimp only
  rw [hNsAt, bind_ok, hCollAt, bind_ok, hBlkAt, bind_ok, hRead, bind_ok]
  rfl

theorem encodeElgMissingDataKey_lt_iff (group : Bytes) {k1 k2 : MissingDataKey}
    (h1 : nilByte ∉ k1.ns) (h2 : nilByte ∉ k2.ns) :
    encodeElgMissingDataKey group k1 < encodeElgMissingDataKey group k2 ↔
      k2.blkNum < k1.blkNum ∨
        k1.blkNum = k2.blkNum ∧ (k1.ns < k2.ns ∨ k1.ns = k2.ns ∧ k1.coll < k2.coll) := by
  have hKey : ∀ k : MissingDataKey, encodeElgMissingDataKey group k =
      group ++ (encodeReverseOrderVarUint64 k.blkNum ++ (k.ns ++ 0 :: k.coll)) := fun k => by
    simp only [encodeElgMissingDataKey, nilByte, List.append_assoc, List.singleton_append]
  rw [hKey, hKey, append_lt_append_left_iff]
  by_cases hBlk : k1.blkNum = k2.blkNum
  · rw [hBlk, append_lt_append_left_iff, append_zero_lt_append_zero_iff h1 h2]
    simp only [UInt64.lt_irrefl, false_or, true_and]
  · have hNot : ∀ {m n : UInt64}, m ≠ n →
        ¬ encodeReverseOrderVarUint64 m <+: encodeReverseOrderVarUint64 n :=
      fun hmn hPre => hmn (encodeReverseOrderVarUint64_prefix_free hPre)
    rw [append_lt_append_iff _ _ (hNot hBlk) (hNot (Ne.symm hBlk)),
      encodeReverseOrderVarUint64_lt_iff]
    simp only [hBlk, false_and, or_false]

end Keys

/-- The reverse-order number is read back from the front of any longer key, later numbers have
smaller encodings and no encoding extends another; so the three kinds of missing-data keys read
back as the keys they encode, for names without a `0x00` byte. -/
theorem reverseOrderVarUint64_codes_missingDataKeys :
    (∀ (n : UInt64) (rest : Bytes),
      decodeReverseOrderVarUint64 (encodeReverseOrderVarUint64 n ++ rest) =
        .ok (n, (encodeReverseOrderVarUint64 n).length)) ∧
    (∀ a b : UInt64, a < b → encodeReverseOrderVarUint64 b < encodeReverseOrderVarUint64 a) ∧
    (∀ m n : UInt64, encodeReverseOrderVarUint64 m <+: encodeReverseOrderVarUint64 n → m = n) ∧
    (∀ key : MissingDataKey, nilByte ∉ key.ns → nilByte ∉ key.coll →
      decodeElgMissingDataKey (encodeElgPrioMissingDataKey key) = .ok key ∧
      decodeElgMissingDataKey (encodeElgDeprioMissingDataKey key) = .ok key ∧
      decodeInelgMissingDataKey (encodeInelgMissingDataKey key) = .ok key) := by
  refine ⟨decodeReverseOrderVarUint64_encode_append,
    fun a b hLt => (encodeReverseOrderVarUint64_lt_iff b a).2 hLt,
    fun m n hPre => encodeReverseOrderVarUint64_prefix_free hPre, fun key hNs hColl => ?_⟩
  exact ⟨decodeElgMissingDataKey_encodeElgMissingDataKey 4 key hNs hColl,
    decodeElgMissingDataKey_encodeElgMissingDataKey 8 key hNs hColl,
    decodeInelgMissingDataKey_encodeInelgMissingDataKey key hNs hColl⟩

end FabricPeer.Pvtdatastorage
