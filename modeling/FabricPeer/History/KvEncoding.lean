import FabricPeer.Ledger.OrderPreserving

/-! # The keys of the history database

`constructDataKey` writes one key per write of a committed transaction: the namespace, a `0x00`
separator, the length of the key and the key, a separator, and the height of the transaction.
`constructRangeScan` bounds the keys of one namespace and key by everything up to the second
separator, and that followed by `0xff`, which no size byte of a block number reaches.

The range holds the records of its namespace and key and no others (`mem_range_iff`). A namespace
ends at its first `0x00` when it holds none; the length of the key, in a prefix-free encoding, ends
where the key starts; and keys of one length differ within it. Inside the range the records are in
the order of their heights, and each one is read back.
-/

namespace FabricPeer.History

open FabricPeer.Ledger ByteOrder

set_option autoImplicit false

def compositeKeySep : Bytes := [0x00]

def savePointKey : Bytes := [0x73]

def emptyValue : Bytes := []

def goBytes (s : String) : Bytes := s.toUTF8.toList

/-- `constructDataKey`: `ns~len(key)~key~blocknum~trannum`. A Go string is taken as its bytes. -/
def constructDataKey (ns key : Bytes) (blocknum trannum : UInt64) : Bytes :=
  ns ++ compositeKeySep ++ encodeOrderPreservingVarUint64 (UInt64.ofNat key.length) ++ key ++
    compositeKeySep ++ encodeOrderPreservingVarUint64 blocknum ++
    encodeOrderPreservingVarUint64 trannum

/-- `rangeScan`. -/
structure RangeScan where
  startKey : Bytes
  endKey : Bytes
  deriving DecidableEq, Repr

/-- `constructRangeScan`: `ns~len(key)~key~` and the same followed by `0xff`. -/
def constructRangeScan (ns key : Bytes) : RangeScan :=
  let k := ns ++ compositeKeySep ++ encodeOrderPreservingVarUint64 (UInt64.ofNat key.length) ++
    key ++ compositeKeySep
  { startKey := k, endKey := k ++ [0xff] }

/-- `rangeScan.decodeBlockNumTranNum`. -/
def RangeScan.decodeBlockNumTranNum (r : RangeScan) (dataKey : Bytes) :
    Except String (UInt64 × UInt64) := do
  let blockNumTranNumBytes := trimPrefix dataKey r.startKey
  let (blockNum, blockBytesConsumed) ← decodeOrderPreservingVarUint64 blockNumTranNumBytes
  let (tranNum, tranBytesConsumed) ←
    decodeOrderPreservingVarUint64 (blockNumTranNumBytes.drop blockBytesConsumed)
  let consumed := blockBytesConsumed + tranBytesConsumed
  let available := blockNumTranNumBytes.length
  if consumed ≠ available then
    throw s!"number of decoded bytes ({consumed}) is not equal to the length of blockNumTranNumBytes ({available})"
  return (blockNum, tranNum)

/-- Whether a key lies in the range that an iterator over `r` visits. -/
def RangeScan.contains (r : RangeScan) (k : Bytes) : Bool := decide (r.startKey ≤ k ∧ k < r.endKey)

section Layout

variable (ns key : Bytes)

theorem startKey_eq : (constructRangeScan ns key).startKey =
    (ns ++ [0]) ++ (encodeOrderPreservingVarUint64 (UInt64.ofNat key.length) ++ (key ++ [0])) := by
  simp [constructRangeScan, compositeKeySep]

theorem endKey_eq : (constructRangeScan ns key).endKey =
    (ns ++ [0]) ++
      (encodeOrderPreservingVarUint64 (UInt64.ofNat key.length) ++ (key ++ ([0] ++ [0xff]))) := by
  simp [constructRangeScan, compositeKeySep]

theorem constructDataKey_eq (b t : UInt64) : constructDataKey ns key b t =
    (ns ++ [0]) ++ (encodeOrderPreservingVarUint64 (UInt64.ofNat key.length) ++
      (key ++ ([0] ++ (Height.mk b t).toBytes))) := by
  simp [constructDataKey, compositeKeySep, Height.toBytes]

theorem constructDataKey_eq_startKey_append (b t : UInt64) :
    constructDataKey ns key b t = (constructRangeScan ns key).startKey ++ (Height.mk b t).toBytes := by
  simp [constructDataKey, constructRangeScan, Height.toBytes]

theorem endKey_eq_startKey_append :
    (constructRangeScan ns key).endKey = (constructRangeScan ns key).startKey ++ [0xff] := rfl

end Layout

theorem toBytes_lt_ff (h : Height) : h.toBytes < [0xff] := by
  rw [Height.toBytes, encodeOrderPreservingVarUint64_eq, List.cons_append, List.cons_lt_cons_iff]
  left
  rw [UInt8.lt_iff_toNat_lt, toNat_sizeByte]
  have := length_bigEndian_toNat_le h.blockNum
  simp only [UInt8.reduceToNat]
  omega

theorem mem_range_constructDataKey (ns key : Bytes) (b t : UInt64) :
    (constructRangeScan ns key).contains (constructDataKey ns key b t) := by
  rw [RangeScan.contains, decide_eq_true_iff, constructDataKey_eq_startKey_append,
    endKey_eq_startKey_append, append_lt_append_left_iff]
  exact ⟨le_append _ _, toBytes_lt_ff _⟩

theorem eq_of_ofNat_length_eq {key key' : Bytes} (hKey : key.length < 2 ^ 64)
    (hKey' : key'.length < 2 ^ 64) (h : UInt64.ofNat key'.length = UInt64.ofNat key.length) :
    key'.length = key.length := by
  have hNat := congrArg UInt64.toNat h
  rwa [UInt64.toNat_ofNat_of_lt' hKey', UInt64.toNat_ofNat_of_lt' hKey] at hNat

theorem eq_of_mem_range {ns ns' key key' : Bytes} {b t : UInt64} (hNs : 0 ∉ ns) (hNs' : 0 ∉ ns')
    (hKey : key.length < 2 ^ 64) (hKey' : key'.length < 2 ^ 64)
    (hMem : (constructRangeScan ns key).contains (constructDataKey ns' key' b t)) :
    ns' = ns ∧ key' = key := by
  rw [RangeScan.contains, decide_eq_true_iff] at hMem
  obtain ⟨hLow, hHigh⟩ := hMem
  rw [startKey_eq, constructDataKey_eq] at hLow
  rw [endKey_eq, constructDataKey_eq] at hHigh
  obtain rfl : ns' = ns := by
    rcases comparable_of_mem_range _ _ _ hLow hHigh with h | h
    · exact eq_of_prefix_append_sep hNs' hNs h
    · exact (eq_of_prefix_append_sep hNs hNs' h).symm
  rw [append_le_append_left_iff] at hLow
  rw [append_lt_append_left_iff] at hHigh
  have hLen : key'.length = key.length := by
    apply eq_of_ofNat_length_eq hKey hKey'
    rcases comparable_of_mem_range _ _ _ hLow hHigh with h | h
    · exact encodeOrderPreservingVarUint64_prefix_free h
    · exact (encodeOrderPreservingVarUint64_prefix_free h).symm
  rw [hLen, append_le_append_left_iff] at hLow
  rw [hLen, append_lt_append_left_iff] at hHigh
  refine ⟨rfl, ?_⟩
  rcases comparable_of_mem_range _ _ _ hLow hHigh with h | h
  · exact h.eq_of_length hLen
  · exact (h.eq_of_length hLen.symm).symm

theorem mem_range_iff {ns ns' key key' : Bytes} (b t : UInt64) (hNs : 0 ∉ ns) (hNs' : 0 ∉ ns')
    (hKey : key.length < 2 ^ 64) (hKey' : key'.length < 2 ^ 64) :
    (constructRangeScan ns key).contains (constructDataKey ns' key' b t) ↔ ns' = ns ∧ key' = key := by
  constructor
  · exact eq_of_mem_range hNs hNs' hKey hKey'
  · rintro ⟨rfl, rfl⟩
    exact mem_range_constructDataKey ns' key' b t

theorem savePointKey_not_mem_range (ns key : Bytes) :
    (constructRangeScan ns key).contains savePointKey = false := by
  have hLen : 2 ≤ (constructRangeScan ns key).startKey.length := by
    rw [startKey_eq, encodeOrderPreservingVarUint64_eq]
    simp only [List.length_append, List.length_cons]
    omega
  rw [RangeScan.contains, decide_eq_false_iff_not, not_and_or, not_le, not_lt,
    endKey_eq_startKey_append]
  obtain ⟨c, d, rest, hStart⟩ : ∃ c d rest, (constructRangeScan ns key).startKey = c :: d :: rest := by
    match hS : (constructRangeScan ns key).startKey, hLen with
    | c :: d :: rest, _ => exact ⟨c, d, rest, rfl⟩
  rw [hStart, List.cons_append, savePointKey]
  rcases lt_trichotomy c 0x73 with hc | rfl | hc
  · exact .inr (le_of_lt (List.cons_lt_cons_iff.2 (.inl hc)))
  · exact .inl (List.cons_lt_cons_iff.2 (.inr ⟨rfl, List.nil_lt_cons _ _⟩))
  · exact .inl (List.cons_lt_cons_iff.2 (.inl hc))

theorem constructDataKey_lt_iff (ns key : Bytes) (b1 t1 b2 t2 : UInt64) :
    constructDataKey ns key b1 t1 < constructDataKey ns key b2 t2 ↔
      (Height.mk b1 t1).lexLt ⟨b2, t2⟩ := by
  rw [constructDataKey_eq_startKey_append, constructDataKey_eq_startKey_append,
    append_lt_append_left_iff, Height.toBytes_lt_iff]

theorem decodeBlockNumTranNum_constructDataKey (ns key : Bytes) (b t : UInt64) :
    (constructRangeScan ns key).decodeBlockNumTranNum (constructDataKey ns key b t) = .ok (b, t) := by
  have hTran := decodeOrderPreservingVarUint64_encode_append t []
  rw [List.append_nil] at hTran
  rw [RangeScan.decodeBlockNumTranNum, constructDataKey_eq_startKey_append, trimPrefix_append,
    Height.toBytes]
  simp only [decodeOrderPreservingVarUint64_encode_append, hTran, bind, Except.bind, List.drop_left,
    List.length_append, ne_eq, not_true_eq_false, if_false]
  rfl

end FabricPeer.History
