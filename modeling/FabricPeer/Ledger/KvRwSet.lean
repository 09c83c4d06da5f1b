import FabricPeer.Lib.Fault

/-! # Read-write set records and transaction heights

The records of `kvrwset` that the state validator and the simulator exchange, the
`rwsetutil.TxRwSet` that groups them by namespace and collection, and `version.Height` with
its comparison. Byte strings are lists of bytes; a proto `Version` and a `version.Height`
carry the same two numbers and share one type here, a nil pointer being `none`. A repeated
proto field decodes to a nil slice when empty, so an empty list stands for nil. Key hashes are
kept as the Go strings `string(keyHash)` that every map of the validator is keyed by.
-/

namespace FabricPeer.Ledger

open GoRun

set_option autoImplicit false

/-- A Go `[]byte`. -/
abbrev Bytes := List UInt8

/-- `version.Height`: the block and the position in the block of a committing transaction. -/
structure Height where
  blockNum : UInt64
  txNum : UInt64
  deriving DecidableEq, Repr

/-- `Height.Compare`: the sign of `int(h.BlockNum - h1.BlockNum)`, else of the transaction
numbers, with Go's wrapping `uint64` subtraction; the `default` case of the switch returns 0. -/
def Height.compare (h h1 : Height) : Int :=
  let res : Option Int :=
    if h.blockNum ≠ h1.blockNum then some (h.blockNum - h1.blockNum).toInt64.toInt
    else if h.txNum ≠ h1.txNum then some (h.txNum - h1.txNum).toInt64.toInt
    else none
  match res with
  | none => 0
  | some res => if res > 0 then 1 else -1

/-- `version.AreSame`: both nil, or both present and comparing equal. -/
def areSame : Option Height → Option Height → Bool
  | none, h2 => h2.isNone
  | some _, none => false
  | some h1, some h2 => h1.compare h2 == 0

theorem Height.compare_eq_zero_iff (h h1 : Height) : h.compare h1 = 0 ↔ h = h1 := by
  have hSign : ∀ r : Int, (if r > 0 then (1 : Int) else -1) ≠ 0 := by
    intro r
    split <;> omega
  constructor
  · intro hCmp
    unfold Height.compare at hCmp
    by_cases hBlock : h.blockNum = h1.blockNum
    · by_cases hTx : h.txNum = h1.txNum
      · cases h
        cases h1
        simp_all
      · simp only [hBlock, hTx, ne_eq, not_true_eq_false, not_false_eq_true, if_false,
          if_true] at hCmp
        exact absurd hCmp (hSign _)
    · simp only [ne_eq, hBlock, not_false_eq_true, if_true] at hCmp
      exact absurd hCmp (hSign _)
  · rintro rfl
    simp [Height.compare]

@[simp] theorem areSame_iff (h1 h2 : Option Height) : areSame h1 h2 = true ↔ h1 = h2 := by
  cases h1 <;> cases h2 <;> simp [areSame, Height.compare_eq_zero_iff]

/-- `kvrwset.KVRead`: a key read during simulation, with the version it had (nil if absent). -/
structure KVRead where
  key : String
  version : Option Height
  deriving DecidableEq, Repr

/-- `rwsetutil.NewKVRead`. -/
def newKVRead (key : String) (version : Option Height) : KVRead := ⟨key, version⟩

/-- `kvrwset.QueryReadsMerkleSummary`. -/
structure QueryReadsMerkleSummary where
  maxDegree : Nat
  maxLevel : Nat
  maxLevelHashes : List Bytes
  deriving DecidableEq, Repr

/-- The `reads_info` of a `kvrwset.RangeQueryInfo`: the raw reads, or their merkle summary. -/
inductive ReadsInfo where
  | rawReads (kvReads : List KVRead)
  | readsMerkleHashes (summary : QueryReadsMerkleSummary)
  deriving DecidableEq, Repr

/-- `kvrwset.RangeQueryInfo`; `readsInfo = none` is a message whose oneof was never set. -/
structure RangeQueryInfo where
  startKey : String
  endKey : String
  itrExhausted : Bool
  readsInfo : Option ReadsInfo
  deriving DecidableEq, Repr

/-- `GetRawReads().GetKvReads()`: empty unless raw reads were recorded. -/
def RangeQueryInfo.getRawReads (rqi : RangeQueryInfo) : List KVRead :=
  match rqi.readsInfo with
  | some (.rawReads kvReads) => kvReads
  | _ => []

/-- `GetReadsMerkleHashes()`: nil unless a summary was recorded. -/
def RangeQueryInfo.getReadsMerkleHashes (rqi : RangeQueryInfo) : Option QueryReadsMerkleSummary :=
  match rqi.readsInfo with
  | some (.readsMerkleHashes summary) => some summary
  | _ => none

/-- `statedb.VersionedKV` with its `VersionedValue` flattened in; a nil `Value` is `none`, the
mark of a delete in an update batch. -/
structure VersionedKV where
  ns : String
  key : String
  value : Option Bytes
  metadata : Bytes
  version : Height
  deriving DecidableEq, Repr

/-- `convertToVersionHeight`: dereferences the proto version, a panic on a nil one. -/
def convertToVersionHeight : Option Height → Run Height
  | some h => .ok h
  | none => .error (.panic "invalid memory address or nil pointer dereference")

/-- `kvrwset.KVWrite`. -/
structure KVWrite where
  key : String
  isDelete : Bool
  value : Bytes
  deriving DecidableEq, Repr

/-- `kvrwset.KVMetadataEntry`. -/
structure KVMetadataEntry where
  name : String
  value : Bytes
  deriving DecidableEq, Repr

/-- `kvrwset.KVMetadataWrite`; nil entries delete the key's metadata. -/
structure KVMetadataWrite where
  key : String
  entries : List KVMetadataEntry
  deriving DecidableEq, Repr

/-- `kvrwset.KVRWSet`. -/
structure KVRWSet where
  reads : List KVRead
  rangeQueriesInfo : List RangeQueryInfo
  writes : List KVWrite
  metadataWrites : List KVMetadataWrite
  deriving DecidableEq, Repr

/-- `kvrwset.KVReadHash`. -/
structure KVReadHash where
  keyHash : String
  version : Option Height
  deriving DecidableEq, Repr

/-- `kvrwset.KVWriteHash`. -/
structure KVWriteHash where
  keyHash : String
  isDelete : Bool
  valueHash : Bytes
  isPurge : Bool
  deriving DecidableEq, Repr

/-- `kvrwset.KVMetadataWriteHash`. -/
structure KVMetadataWriteHash where
  keyHash : String
  entries : List KVMetadataEntry
  deriving DecidableEq, Repr

/-- `kvrwset.HashedRWSet`. -/
structure HashedRWSet where
  hashedReads : List KVReadHash
  hashedWrites : List KVWriteHash
  metadataWrites : List KVMetadataWriteHash
  deriving DecidableEq, Repr

/-- `rwsetutil.CollHashedRwSet`, without the `PvtRwSetHash` that the state validator does not
read. -/
structure CollHashedRwSet where
  collectionName : String
  hashedRwSet : HashedRWSet
  deriving DecidableEq, Repr

/-- `rwsetutil.NsRwSet`. -/
structure NsRwSet where
  nameSpace : String
  kvRwSet : KVRWSet
  collHashedRwSets : List CollHashedRwSet
  deriving DecidableEq, Repr

/-- `rwsetutil.TxRwSet`. -/
structure TxRwSet where
  nsRwSets : List NsRwSet
  deriving DecidableEq, Repr

/-- `rwsetutil.IsKVWriteDelete`. -/
def isKVWriteDelete (kvWrite : KVWrite) : Bool := kvWrite.isDelete || kvWrite.value.length == 0

def hashOfZeroLengthByteArray : Bytes :=
  [0xe3, 0xb0, 0xc4, 0x42, 0x98, 0xfc, 0x1c, 0x14, 0x9a, 0xfb, 0xf4, 0xc8, 0x99, 0x6f, 0xb9, 0x24,
    0x27, 0xae, 0x41, 0xe4, 0x64, 0x9b, 0x93, 0x4c, 0xa4, 0x95, 0x99, 0x1b, 0x78, 0x52, 0xb8, 0x55]

/-- `rwsetutil.IsKVWriteHashDelete`. -/
def isKVWriteHashDelete (kvWriteHash : KVWriteHash) : Bool :=
  kvWriteHash.isDelete || kvWriteHash.valueHash.length == 0 ||
    kvWriteHash.valueHash == hashOfZeroLengthByteArray

end FabricPeer.Ledger
