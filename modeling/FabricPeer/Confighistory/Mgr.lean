import FabricPeer.History.KvEncoding
import FabricPeer.Lib.GoMap
import FabricPeer.Lib.SortedMap
import FabricPeer.Snapshot.File

/-! # The collection config history

`confighistory.Mgr` keeps, for each ledger, the collection config packages of its chaincodes
with the block that committed them. `HandleStateUpdates` puts one entry per chaincode whose
package a block changed, under `encodeCompositeKey("lscc", cc + "~collection", block)`, where the
block is written as the big-endian bytes of `MaxUint64 - block`, so that a later block sorts
first. `MostRecentCollectionConfigBelow(b, cc)` scans from the key of `b - 1` to the key of `0`
and takes the first hit. `ExportConfigHistory` writes the entries of the namespace to snapshot
files and `ImportFromSnapshot` puts them back into an empty database, in batches of a megabyte.

The chaincode info provider is taken as given: `HandleStateUpdates` receives the
`ChaincodeInfo` of every chaincode the block updated. A package is written by `proto.Marshal`
as its `config` records, each a tag, a length and the bytes of one `CollectionConfig`.
-/

namespace FabricPeer.Confighistory

open FabricPeer.Ledger FabricPeer.History FabricPeer.Snapshot ByteOrder KVStore GoRun

set_option autoImplicit false

def keyPrefix : Bytes := goBytes "s"

def separatorByte : UInt8 := 0

def nsStopper : UInt8 := 1

def collectionConfigNamespace : Bytes := goBytes "lscc"

def snapshotFileFormat : UInt8 := 1

def snapshotDataFileName : String := "confighistory.data"

def snapshotMetadataFileName : String := "confighistory.metadata"

def importConfigsBatchSize : Nat := 1024 * 1024

/-- `math.MaxUint64`. -/
def maxUint64 : UInt64 := 0xFFFFFFFFFFFFFFFF

/-- The database of one ledger. -/
abbrev DB := SortedMap Bytes Bytes

structure CompositeKey where
  ns : Bytes
  key : Bytes
  blockNum : UInt64
  deriving DecidableEq, Repr

structure CompositeKV where
  compositeKey : CompositeKey
  value : Bytes
  deriving DecidableEq, Repr

structure CollectionConfigPackage where
  config : List Bytes
  deriving DecidableEq, Repr

/-- `ledger.DeployedChaincodeInfo` as far as the history reads it: the name and the explicit
collection config package, `none` for a nil one. -/
structure ChaincodeInfo where
  name : Bytes
  explicitCollectionConfigPkg : Option CollectionConfigPackage
  deriving DecidableEq, Repr

structure CollectionConfigInfo where
  collectionConfig : CollectionConfigPackage
  committingBlockNum : UInt64
  deriving DecidableEq, Repr

section Keys

def isNameByte (c : UInt8) : Bool :=
  (0x30 ≤ c && c ≤ 0x39) || (0x41 ≤ c && c ≤ 0x5a) || (0x61 ≤ c && c ≤ 0x7a)

def matchesAfterNameByte : Bytes → Bool
  | [] => true
  | [c] => isNameByte c
  | c :: d :: rest =>
    if isNameByte c then matchesAfterNameByte (d :: rest)
    else (c == 0x2d || c == 0x5f) && isNameByte d && matchesAfterNameByte rest

/-- `ChaincodeNameRegExp`, `^[a-zA-Z0-9]+([-_][a-zA-Z0-9]+)*$`, of the lifecycle. -/
def chaincodeNameRegExpMatches : Bytes → Bool
  | [] => false
  | c :: rest => isNameByte c && matchesAfterNameByte rest

/-- `encodeBlockNum`: the big-endian bytes of `MaxUint64 - blockNum`. -/
def encodeBlockNum (blockNum : UInt64) : Bytes := putUint64 (maxUint64 - blockNum)

def decodeBlockNum (blockNumBytes : Bytes) : UInt64 := maxUint64 - uint64 blockNumBytes

def encodeCompositeKey (ns key : Bytes) (blockNum : UInt64) : Bytes :=
  keyPrefix ++ ns ++ [separatorByte] ++ key ++ encodeBlockNum blockNum

/-- `decodeCompositeKey`: the namespace up to the first `0x00` after the prefix byte, the key
after it, the block in the last eight bytes. A key of fewer than nine bytes, or without a
`0x00`, makes a slice expression panic. -/
def decodeCompositeKey (b : Bytes) : Run CompositeKey :=
  if b.length < 9 then .error (.panic "slice bounds out of range")
  else
    let blockNumStartIndex := b.length - 8
    let nsKeyBytes := (b.take blockNumStartIndex).drop 1
    let blockNumBytes := b.drop blockNumStartIndex
    match nsKeyBytes.idxOf? separatorByte with
    | none => .error (.panic "slice bounds out of range")
    | some separatorIndex =>
      .ok ⟨nsKeyBytes.take separatorIndex, nsKeyBytes.drop (separatorIndex + 1),
        decodeBlockNum blockNumBytes⟩

/-- `constructCollectionConfigKey`. -/
def constructCollectionConfigKey (chaincodeName : Bytes) : Bytes :=
  chaincodeName ++ goBytes "~collection"

end Keys

section Marshal

def configTag : UInt8 := 0x0a

/-- `proto.Marshal` of a package: each config as a tag, its length and its bytes. -/
def marshal (pkg : CollectionConfigPackage) : Bytes :=
  pkg.config.flatMap fun config => configTag :: (Varint.encode config.length ++ config)

def errInvalidWireFormat : String := "proto: cannot parse invalid wire-format data"

def unmarshalConfigs : Nat → Bytes → Except String (List Bytes)
  | _, [] => .ok []
  | 0, _ :: _ => .error errInvalidWireFormat
  | fuel + 1, tag :: rest =>
    if tag ≠ configTag then .error errInvalidWireFormat
    else
      match Varint.decode rest with
      | none => .error "unexpected EOF"
      | some (len, n) =>
        if n + len ≤ rest.length then
          (unmarshalConfigs fuel (rest.drop (n + len))).map fun configs =>
            (rest.drop n).take len :: configs
        else .error "unexpected EOF"

def unmarshal (b : Bytes) : Except String CollectionConfigPackage :=
  (unmarshalConfigs b.length b).map CollectionConfigPackage.mk

end Marshal

section Db

/-- `db.mostRecentEntryBelow`: the first entry of the range from the key of `blockNum - 1` to the
key of `0` followed by a `0x00`. -/
def mostRecentEntryBelow (d : DB) (blockNum : UInt64) (ns key : Bytes) : Run (Option CompositeKV) :=
  if blockNum = 0 then .error (.error "blockNum should be greater than 0")
  else
    let startKey := encodeCompositeKey ns key (blockNum - 1)
    let stopKey := encodeCompositeKey ns key 0 ++ [0]
    match d.scan fun k => decide (startKey ≤ k ∧ k < stopKey) with
    | [] => .ok none
    | (k, v) :: _ => do
      let k ← decodeCompositeKey k
      pure (some ⟨k, v⟩)

/-- `db.getNamespaceIterator`: the entries from `"s" + ns + 0x00` up to `"s" + ns + 0x01`. -/
def getNamespaceIterator (d : DB) (ns : Bytes) : List (Bytes × Bytes) :=
  let nsStartKey := keyPrefix ++ ns ++ [separatorByte]
  let nsEndKey := keyPrefix ++ ns ++ [nsStopper]
  d.scan fun k => decide (nsStartKey ≤ k ∧ k < nsEndKey)

/-- `DBHandle.IsEmpty`. -/
def isEmpty (d : DB) : Bool := d.entries.isEmpty

end Db

section Mgr

/-- `prepareDBBatch`: a put of each package under its chaincode's key at the committing
block. -/
def prepareDBBatch (chaincodeCollConfigs : GoMap Bytes CollectionConfigPackage)
    (committingBlockNum : UInt64) : List (BatchOp Bytes Bytes) :=
  chaincodeCollConfigs.entries.map fun (ccName, collConfig) =>
    .put (encodeCompositeKey collectionConfigNamespace (constructCollectionConfigKey ccName)
      committingBlockNum) (marshal collConfig)

def collectUpdatedCollConfigs (updatedCCs : List ChaincodeInfo) :
    GoMap Bytes CollectionConfigPackage :=
  updatedCCs.foldl (fun updatedCollConfigs ccInfo =>
    match ccInfo.explicitCollectionConfigPkg with
    | none => updatedCollConfigs
    | some pkg =>
      if pkg.config.length = 0 then updatedCollConfigs
      else updatedCollConfigs.insert ccInfo.name pkg) GoMap.empty

/-- `Mgr.HandleStateUpdates`, given the `ChaincodeInfo` of each chaincode the block updated. -/
def handleStateUpdates (d : DB) (committingBlockNum : UInt64) (updatedCCs : List ChaincodeInfo) :
    DB :=
  if updatedCCs.length = 0 then d
  else
    let updatedCollConfigs := collectUpdatedCollConfigs updatedCCs
    if updatedCollConfigs.entries.length = 0 then d
    else d.writeBatch (prepareDBBatch updatedCollConfigs committingBlockNum)

def wrap {α : Type} (msg : String) : Except String α → Run α
  | .ok a => .ok a
  | .error err => .error (.error (msg ++ ": " ++ err))

def compositeKVToCollectionConfig (compositeKV : CompositeKV) : Run CollectionConfigInfo := do
  let conf ← wrap "error unmarshalling compositeKV to collection config"
    (unmarshal compositeKV.value)
  pure ⟨conf, compositeKV.compositeKey.blockNum⟩

/-- `Retriever.MostRecentCollectionConfigBelow`. -/
def mostRecentCollectionConfigBelow (d : DB) (blockNum : UInt64) (chaincodeName : Bytes) :
    Run (Option CollectionConfigInfo) := do
  match ← mostRecentEntryBelow d blockNum collectionConfigNamespace
      (constructCollectionConfigKey chaincodeName) with
  | none => pure none
  | some compositeKV => some <$> compositeKVToCollectionConfig compositeKV

/-- `Retriever.ExportConfigHistory`: the files it writes, none for a namespace without entries.
The data file holds each entry's key and value, the metadata file their count. -/
def exportConfigHistory (d : DB) : List (String × Bytes) :=
  match getNamespaceIterator d collectionConfigNamespace with
  | [] => []
  | entries@(_ :: _) =>
    let dataFileWriter := entries.foldl (fun w e => (w.EncodeBytes e.1).EncodeBytes e.2)
      (createFile snapshotDataFileName snapshotFileFormat)
    let metadataFileWriter :=
      (createFile snapshotMetadataFileName snapshotFileFormat).EncodeUVarint entries.length
    [(snapshotDataFileName, dataFileWriter.contents),
      (snapshotMetadataFileName, metadataFileWriter.contents)]

def importLoop : Nat → FileReader → DB → List (BatchOp Bytes Bytes) → Nat →
    DB × Except String (List (BatchOp Bytes Bytes))
  | 0, _, d, batch, _ => (d, .ok batch)
  | i + 1, collectionConfigData, d, batch, currentBatchSize =>
    match collectionConfigData.decodeBytes with
    | .error err => (d, .error err)
    | .ok (key, collectionConfigData) =>
      match collectionConfigData.decodeBytes with
      | .error err => (d, .error err)
      | .ok (val, collectionConfigData) =>
        let batch := batch ++ [.put key val]
        let currentBatchSize := currentBatchSize + key.length + val.length
        if importConfigsBatchSize ≤ currentBatchSize then
          importLoop i collectionConfigData (d.writeBatch batch) [] 0
        else importLoop i collectionConfigData d batch currentBatchSize

/-- `Mgr.ImportFromSnapshot`: the database after the call, and what the call returned. -/
def importFromSnapshot (d : DB) (ledgerID : String) (dir : Dir) : DB × Except String Unit :=
  if (dir snapshotDataFileName).isNone then (d, .ok ())
  else if !isEmpty d then
    (d, .error ("config history for ledger [" ++ ledgerID ++ "] exists. Incremental import is " ++
      "not supported. Remove the existing ledger data before retry"))
  else
    match openFile dir snapshotMetadataFileName snapshotFileFormat with
    | .error err => (d, .error err)
    | .ok configMetadata =>
      match configMetadata.DecodeUVarInt with
      | .error err => (d, .error err)
      | .ok (numCollectionConfigs, _) =>
        match openFile dir snapshotDataFileName snapshotFileFormat with
        | .error err => (d, .error err)
        | .ok collectionConfigData =>
          match importLoop numCollectionConfigs collectionConfigData d [] 0 with
          | (d, .error err) => (d, .error err)
          | (d, .ok batch) => (d.writeBatch batch, .ok ())

end Mgr

end FabricPeer.Confighistory
