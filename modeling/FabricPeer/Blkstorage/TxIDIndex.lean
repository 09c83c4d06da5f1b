import FabricPeer.Blkstorage.BlockIndex
import FabricPeer.History.KvEncoding
import FabricPeer.Lib.SortedMap
import FabricPeer.Snapshot.File

/-! # The transaction ids of the block index, as bytes

`blockIndex` keeps one entry per transaction of an indexed block under
`constructTxIDKey(txID, blkNum, txNum)`: the byte `'t'`, the length of the id in the
order-preserving encoding, the id, and the block and transaction numbers so encoded.
`constructTxIDRangeScan(txID)` bounds the keys of one id by everything up to the id, and that
followed by `0xff`; `getTxIDVal` takes the first entry of that range and `txIDExists` asks whether
there is one.

For a snapshot, `exportUniqueTxIDs` walks the keys of prefix `'t'` in order, reads each id back
with `retrieveTxID`, skips an id equal to the previous one, which starts as the empty id, and
writes the others to a data file and their count to a metadata file; it writes no file when it
wrote no id. `importTxIDsFromSnapshot` reads them back into a fresh index, each under the last
block of the snapshot and its position, with an empty value, writing a batch after every
`importTxIDsBatchSize`-th id, and at the end the save point.

The index is the map of its leveldb handle, which reads and writes a map of its own. A Go string
is taken as its bytes. Not modelled: the other attributes' entries, the errors of leveldb and of
the file system, the hashes of the snapshot files; `proto.Unmarshal` of an entry's value is given.
-/

namespace FabricPeer.Blkstorage

open FabricPeer.Ledger FabricPeer.Snapshot KVStore GoRun

set_option autoImplicit false

def txIDIdxKeyPrefix : UInt8 := 0x74

def indexSavePointKey : Bytes := History.goBytes "indexCheckpointKey"

def snapshotFileFormat : UInt8 := 1

def snapshotDataFileName : String := "txids.data"

def snapshotMetadataFileName : String := "txids.metadata"

def importTxIDsBatchSize : Nat := 10000

def errNilValue : String := ""

/-- `encodeBlockNum`, `proto.EncodeVarint`. -/
def encodeBlockNum (blockNum : UInt64) : Bytes := Varint.encode blockNum.toNat

/-- `decodeBlockNum`, `proto.DecodeVarint` with its count dropped. -/
def decodeBlockNum (blockNumBytes : Bytes) : UInt64 :=
  UInt64.ofNat ((Varint.decode blockNumBytes).getD (0, 0)).1

def goString (b : Bytes) : String := String.ofList (b.map fun c => Char.ofNat c.toNat)

/-- `constructTxIDKey`: `prefix:len(TxID):TxID:BlkNum:TxNum`. -/
def constructTxIDKey (txID : Bytes) (blkNum txNum : UInt64) : Bytes :=
  [txIDIdxKeyPrefix] ++ encodeOrderPreservingVarUint64 (UInt64.ofNat txID.length) ++ txID ++
    encodeOrderPreservingVarUint64 blkNum ++ encodeOrderPreservingVarUint64 txNum

/-- `rangeScan`. -/
structure RangeScan where
  startKey : Bytes
  stopKey : Bytes
  deriving DecidableEq, Repr

/-- `constructTxIDRangeScan`: `prefix:len(TxID):TxID` and the same followed by `0xff`. -/
def constructTxIDRangeScan (txID : Bytes) : RangeScan :=
  let sk := [txIDIdxKeyPrefix] ++ encodeOrderPreservingVarUint64 (UInt64.ofNat txID.length) ++ txID
  { startKey := sk, stopKey := sk ++ [0xff] }

/-- Whether an iterator from `startKey` to `stopKey` visits a key. -/
def RangeScan.contains (r : RangeScan) (k : Bytes) : Bool := decide (r.startKey ≤ k ∧ k < r.stopKey)

/-- `retrieveTxID`: the id of a key of the format `prefix:len(TxID):TxID:BlkNum:TxNum`. From `2^63`
on, `int(txIDLen)` is negative: the length check passes and the slice panics. -/
def retrieveTxID (encodedTxIDKey : Bytes) : Run Bytes :=
  match encodedTxIDKey with
  | [] => .error (.error "invalid txIDKey - zero-length slice")
  | c :: remainingBytes =>
    if c ≠ txIDIdxKeyPrefix then
      .error (.error ("invalid txIDKey \x7b" ++ goHex encodedTxIDKey ++ "\x7d - unexpected prefix"))
    else
      match decodeOrderPreservingVarUint64 remainingBytes with
      | .error err =>
        .error (.error ("invalid txIDKey \x7b" ++ goHex encodedTxIDKey ++ "\x7d: " ++ err))
      | .ok (txIDLen, n) =>
        let remainingBytes := remainingBytes.drop n
        if 2 ^ 63 ≤ txIDLen.toNat then .error (.panic "runtime error: slice bounds out of range")
        else if remainingBytes.length ≤ txIDLen.toNat then
          .error (.error ("invalid txIDKey \x7b" ++ goHex encodedTxIDKey ++
            "\x7d, fewer bytes present"))
        else .ok (remainingBytes.take txIDLen.toNat)

/-- `retrieveBlockNum`: the number encoded from `BlkNumStartingIndex` on. -/
def retrieveBlockNum (encodedTxIDKey : Bytes) (BlkNumStartingIndex : Nat) : Run UInt64 := do
  let rest ← sliceFrom encodedTxIDKey BlkNumStartingIndex
  let (n, _) ← ofExcept (decodeOrderPreservingVarUint64 rest)
  pure n

/-- `blockIndex` over the bytes of its leveldb handle: the attributes it indexes and the map the
handle reads and writes. -/
structure LevelBlockIndex where
  attrsToIndex : List IndexableAttr
  db : SortedMap Bytes Bytes

namespace LevelBlockIndex

def isAttributeIndexed (index : LevelBlockIndex) (attr : IndexableAttr) : Bool :=
  decide (attr ∈ index.attrsToIndex)

/-- `getLastBlockIndexed`. -/
def getLastBlockIndexed (index : LevelBlockIndex) : Except String UInt64 :=
  match index.db.get? indexSavePointKey with
  | none => .error errIndexSavePointKeyNotPresent
  | some blockNumBytes => .ok (decodeBlockNum blockNumBytes)

/-- `txIDExists`: whether `itr.Next()` finds an entry in the range of the id. -/
def txIDExists (index : LevelBlockIndex) (txID : Bytes) : Run Bool :=
  if !index.isAttributeIndexed .txID then .error (.error "transaction IDs not maintained in index")
  else
    let rangeScan := constructTxIDRangeScan txID
    pure !(index.db.scan rangeScan.contains).isEmpty

/-- `getTxIDVal`: the value of the first entry in the range of the id, with the block number of its
key, `proto.Unmarshal` into a `TxIDIndexValue` being `unmarshal`. -/
def getTxIDVal (unmarshal : Bytes → Except String TxIDIndexValue) (index : LevelBlockIndex)
    (txID : Bytes) : Run (TxIDIndexValue × UInt64) :=
  if !index.isAttributeIndexed .txID then .error (.error "transaction IDs not maintained in index")
  else
    let rangeScan := constructTxIDRangeScan txID
    match index.db.scan rangeScan.contains with
    | [] => .error (.error ("no such transaction ID [" ++ goString txID ++ "] in index"))
    | (key, valBytes) :: _ =>
      if valBytes.length = 0 then .error (.error errNilValue)
      else
        match unmarshal valBytes with
        | .error err =>
          .error (.error ("unexpected error while unmarshalling bytes [" ++
            goSyntaxBytes valBytes ++ "] into TxIDIndexValProto: " ++ err))
        | .ok val =>
          match retrieveBlockNum key rangeScan.startKey.length with
          | .error (.error err) =>
            .error (.error ("error while decoding block number from txID index key: " ++ err))
          | .error fault => .error fault
          | .ok blockNum => .ok (val, blockNum)

structure ExportState where
  previousTxID : Bytes
  numTxIDs : Nat
  dataFile : Option FileWriter
  deriving DecidableEq, Repr

def ExportState.dataFileForNext (s : ExportState) : Run FileWriter :=
  if s.numTxIDs = 0 then pure (createFile snapshotDataFileName snapshotFileFormat)
  else
    match s.dataFile with
    | some dataFile => pure dataFile
    | none => .error (.panic "runtime error: invalid memory address or nil pointer dereference")

def exportStep (s : ExportState) (key : Bytes) : Run ExportState := do
  let txID ← retrieveTxID key
  if s.previousTxID = txID then pure s
  else do
    let dataFile ← s.dataFileForNext
    pure ⟨txID, s.numTxIDs + 1, some (dataFile.EncodeBytes txID)⟩

/-- `exportUniqueTxIDs`: the files it writes, none when it wrote no id. -/
def exportUniqueTxIDs (index : LevelBlockIndex) : Run (List (String × Bytes)) :=
  if !index.isAttributeIndexed .txID then .error (.error "transaction IDs not maintained in index")
  else do
    let keys := index.db.scan fun k => decide ([txIDIdxKeyPrefix] ≤ k ∧ k < [txIDIdxKeyPrefix + 1])
    let s ← keys.foldlM (fun s e => exportStep s e.1) ⟨[], 0, none⟩
    match s.dataFile with
    | none => pure []
    | some dataFile =>
      let metadataFile :=
        (createFile snapshotMetadataFileName snapshotFileFormat).EncodeUVarint s.numTxIDs
      pure [(snapshotDataFileName, dataFile.contents), (snapshotMetadataFileName, metadataFile.contents)]

end LevelBlockIndex

def importLoop (lastBlockNumInSnapshot : UInt64) :
    Nat → Nat → FileReader → SortedMap Bytes Bytes → List (BatchOp Bytes Bytes) →
      SortedMap Bytes Bytes × Except String (List (BatchOp Bytes Bytes))
  | 0, _, _, db, batch => (db, .ok batch)
  | n + 1, i, txIDsData, db, batch =>
    match txIDsData.decodeBytes with
    | .error err => (db, .error err)
    | .ok (txID, txIDsData) =>
      let batch := batch ++ [.put (constructTxIDKey txID lastBlockNumInSnapshot (UInt64.ofNat i)) []]
      if (i + 1) % importTxIDsBatchSize = 0 then
        importLoop lastBlockNumInSnapshot n (i + 1) txIDsData (db.writeBatch batch) []
      else importLoop lastBlockNumInSnapshot n (i + 1) txIDsData db batch

/-- `importTxIDsFromSnapshot`: the database after the call, and what the call returned. -/
def importTxIDsFromSnapshot (snapshotDir : Dir) (lastBlockNumInSnapshot : UInt64)
    (db : SortedMap Bytes Bytes) : SortedMap Bytes Bytes × Except String Unit :=
  match Snapshot.openFile snapshotDir snapshotMetadataFileName snapshotFileFormat with
  | .error err => (db, .error err)
  | .ok txIDsMetadata =>
    match txIDsMetadata.DecodeUVarInt with
    | .error err => (db, .error err)
    | .ok (numTxIDs, _) =>
      match Snapshot.openFile snapshotDir snapshotDataFileName snapshotFileFormat with
      | .error err => (db, .error err)
      | .ok txIDsData =>
        match importLoop lastBlockNumInSnapshot numTxIDs 0 txIDsData db [] with
        | (db, .error err) => (db, .error err)
        | (db, .ok batch) =>
          (db.writeBatch (batch ++ [.put indexSavePointKey (encodeBlockNum lastBlockNumInSnapshot)]),
            .ok ())

end FabricPeer.Blkstorage
