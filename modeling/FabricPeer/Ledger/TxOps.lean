import FabricPeer.Ledger.StateDb

/-! # The operations of one transaction on its keys

`validation/tx_ops.go`: the writes and metadata writes of a valid transaction are gathered per
key, with a flag byte that records which kinds of operation the key received, and then
completed from the latest state: a value written without metadata takes the key's latest
metadata, and metadata written without a value takes the key's latest value, or is dropped
when the key has no latest state. The latest state of a key is its entry in the updates of
the preceding valid transactions of the block if it has one, else the committed state.
-/

namespace FabricPeer.Ledger

open GoRun

set_option autoImplicit false

/-- The updates of the preceding valid transactions of a block. -/
structure PublicAndHashUpdates where
  publicUpdates : UpdateBatch
  hashUpdates : HashedUpdateBatch

def newPubAndHashUpdates : PublicAndHashUpdates :=
  ⟨.newUpdateBatch, .newHashedUpdateBatch⟩

/-- The flags of `keyOpsFlag`, a `uint8`. -/
def upsertVal : UInt8 := 1
def metadataUpdate : UInt8 := 2
def metadataDelete : UInt8 := 4
def keyDelete : UInt8 := 8

/-- `compositeKey`; an empty `coll` marks a public key. -/
structure CompositeKey where
  ns : String
  coll : String
  key : String
  deriving DecidableEq, Repr

structure KeyOps where
  flag : UInt8
  value : Option Bytes
  metadata : Bytes
  deriving DecidableEq, Repr

namespace KeyOps

def isDelete (keyops : KeyOps) : Bool := keyops.flag &&& keyDelete == keyDelete

def isUpsertAndMetadataUpdate (keyops : KeyOps) : Bool :=
  if keyops.flag &&& upsertVal == upsertVal then
    keyops.flag &&& metadataUpdate == metadataUpdate ||
      keyops.flag &&& metadataDelete == metadataDelete
  else false

def isOnlyUpsert (keyops : KeyOps) : Bool := keyops.flag ||| upsertVal == upsertVal

end KeyOps

abbrev TxOps := GoMap CompositeKey KeyOps

namespace TxOps

/-- `getOrCreateKeyEntry`: a fresh entry has no flag, a nil value and nil metadata. -/
def getOrCreateKeyEntry (txops : TxOps) (k : CompositeKey) : KeyOps :=
  (txops.get? k).getD ⟨0, none, []⟩

def record (txops : TxOps) (k : CompositeKey) (flag : UInt8) (set : KeyOps → KeyOps) : TxOps :=
  let keyops := txops.getOrCreateKeyEntry k
  txops.insert k (set { keyops with flag := keyops.flag + flag })

def upsert (txops : TxOps) (k : CompositeKey) (val : Bytes) : TxOps :=
  txops.record k upsertVal fun keyops => { keyops with value := some val }

def delete (txops : TxOps) (k : CompositeKey) : TxOps :=
  txops.record k keyDelete id

def metadataUpdate (txops : TxOps) (k : CompositeKey) (metadata : Bytes) : TxOps :=
  txops.record k Ledger.metadataUpdate fun keyops => { keyops with metadata := metadata }

def metadataDelete (txops : TxOps) (k : CompositeKey) : TxOps :=
  txops.record k Ledger.metadataDelete id

def applyKVWrite (txops : TxOps) (ns coll : String) (kvWrite : KVWrite) : TxOps :=
  if isKVWriteDelete kvWrite then txops.delete ⟨ns, coll, kvWrite.key⟩
  else txops.upsert ⟨ns, coll, kvWrite.key⟩ kvWrite.value

section

variable (serialize : List KVMetadataEntry → Except String Bytes)

def applyMetadata (txops : TxOps) (ns coll : String) (metadataWrite : KVMetadataWrite) :
    Run TxOps :=
  match metadataWrite.entries with
  | [] => .ok (txops.metadataDelete ⟨ns, coll, metadataWrite.key⟩)
  | entries => do
    let metadataBytes ← ofExcept (serialize entries)
    pure (txops.metadataUpdate ⟨ns, coll, metadataWrite.key⟩ metadataBytes)

def applyCollHashedRwSet (ns : String) (txops : TxOps) (collHashRWset : CollHashedRwSet) :
    Run TxOps := do
  let coll := collHashRWset.collectionName
  let txops := collHashRWset.hashedRwSet.hashedWrites.foldl (fun txops hashedWrite =>
    txops.applyKVWrite ns coll
      ⟨hashedWrite.keyHash, isKVWriteHashDelete hashedWrite, hashedWrite.valueHash⟩) txops
  collHashRWset.hashedRwSet.metadataWrites.foldlM (fun txops metadataWrite =>
    txops.applyMetadata serialize ns coll ⟨metadataWrite.keyHash, metadataWrite.entries⟩) txops

def applyNsRwSet (txops : TxOps) (nsRWSet : NsRwSet) : Run TxOps := do
  let ns := nsRWSet.nameSpace
  let txops := nsRWSet.kvRwSet.writes.foldl (fun txops kvWrite => txops.applyKVWrite ns "" kvWrite)
    txops
  let txops ← nsRWSet.kvRwSet.metadataWrites.foldlM
    (fun txops kvMetadataWrite => txops.applyMetadata serialize ns "" kvMetadataWrite) txops
  nsRWSet.collHashedRwSets.foldlM (applyCollHashedRwSet serialize ns) txops

def applyTxRwset (txops : TxOps) (rwset : TxRwSet) : Run TxOps :=
  rwset.nsRwSets.foldlM (applyNsRwSet serialize) txops

end

end TxOps

/-- `retrieveLatestState`: the entry of the preceding updates, delete markers included, else
the committed state. -/
def retrieveLatestState (ns coll key : String) (precedingUpdates : PublicAndHashUpdates)
    (db : DB) : Option VersionedValue :=
  if coll = "" then
    match precedingUpdates.publicUpdates.get ns key with
    | none => db.getState ns key
    | some vv => some vv
  else
    match precedingUpdates.hashUpdates.get ns coll key with
    | none => db.getValueHash ns coll key
    | some vv => some vv

def retrieveLatestMetadata (ns coll key : String) (precedingUpdates : PublicAndHashUpdates)
    (db : DB) : Bytes :=
  if coll = "" then
    match precedingUpdates.publicUpdates.get ns key with
    | some vv => vv.metadata
    | none => db.getStateMetadata ns key
  else
    match precedingUpdates.hashUpdates.get ns coll key with
    | some vv => vv.metadata
    | none => db.getPrivateDataMetadataByHash ns coll key

def prepareKeyOps (precedingUpdates : PublicAndHashUpdates) (db : DB) (ck : CompositeKey)
    (keyop : KeyOps) : Option KeyOps :=
  if keyop.isDelete || keyop.isUpsertAndMetadataUpdate then some keyop
  else if keyop.isOnlyUpsert then
    some { keyop with metadata := retrieveLatestMetadata ck.ns ck.coll ck.key precedingUpdates db }
  else
    match retrieveLatestState ck.ns ck.coll ck.key precedingUpdates db with
    | some latestVal => some { keyop with value := latestVal.value }
    | none => none

def prepareTxOps (serialize : List KVMetadataEntry → Except String Bytes) (rwset : TxRwSet)
    (precedingUpdates : PublicAndHashUpdates) (db : DB) : Run TxOps := do
  let txops ← TxOps.applyTxRwset serialize GoMap.empty rwset
  pure (txops.filterMapVal (prepareKeyOps precedingUpdates db))

end FabricPeer.Ledger
