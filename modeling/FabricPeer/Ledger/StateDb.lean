import FabricPeer.Ledger.KvRwSet
import FabricPeer.Lib.GoMap
import Mathlib.Data.String.Basic

/-! # The state database and its update batches

The committed state as `privacyenabledstate.DB` serves it to the validator, and the update
batches of `statedb` in which the validator gathers the writes of a block. A batch records a
delete as a value whose `Value` is nil; the committed state has no such entries, a deleted key
being absent from it. The hashes of private data live in the same state, under the namespace
that `deriveHashedDataNs` builds from the namespace and the collection.
-/

namespace FabricPeer.Ledger

open GoRun

set_option autoImplicit false

/-- `statedb.VersionedValue`. -/
structure VersionedValue where
  value : Option Bytes
  metadata : Bytes
  version : Height
  deriving DecidableEq, Repr

/-- `statedb.UpdateBatch`; its map of namespaces to maps of keys is one map on pairs here. -/
structure UpdateBatch where
  containsPostOrderWrites : Bool
  updates : GoMap (String × String) VersionedValue

namespace UpdateBatch

def newUpdateBatch : UpdateBatch := ⟨false, .empty⟩

def get (batch : UpdateBatch) (ns key : String) : Option VersionedValue :=
  batch.updates.get? (ns, key)

def update (batch : UpdateBatch) (ns key : String) (vv : VersionedValue) : UpdateBatch :=
  { batch with updates := batch.updates.insert (ns, key) vv }

def putValAndMetadata (batch : UpdateBatch) (ns key : String) (value : Option Bytes)
    (metadata : Bytes) (version : Height) : Run UpdateBatch :=
  match value with
  | none => .error (.panic "Nil value not allowed. Instead call 'Delete' function")
  | some value => .ok (batch.update ns key ⟨some value, metadata, version⟩)

def delete (batch : UpdateBatch) (ns key : String) (version : Height) : UpdateBatch :=
  batch.update ns key ⟨none, [], version⟩

/-- `UpdateBatch.Exists`. -/
def keyExists (batch : UpdateBatch) (ns key : String) : Bool := batch.updates.contains (ns, key)

def searchStrings (sortedKeys : List String) (x : String) : Nat :=
  (sortedKeys.takeWhile (· < x)).length

/-- The results of `GetRangeScanIterator(ns, startKey, endKey)`, the `nsIterator` over the
sorted keys of the namespace, delete markers included. -/
def getRangeScanIterator (batch : UpdateBatch) (ns startKey endKey : String) :
    List VersionedKV :=
  let sortedKeys := ((batch.updates.keys.filter (·.1 = ns)).map (·.2)).mergeSort
    (fun a b => decide (a ≤ b))
  let nextIndex := if startKey = "" then 0 else searchStrings sortedKeys startKey
  let lastIndex := if endKey = "" then sortedKeys.length else searchStrings sortedKeys endKey
  ((sortedKeys.take lastIndex).drop nextIndex).filterMap fun key =>
    (batch.get ns key).map fun vv => ⟨ns, key, vv.value, vv.metadata, vv.version⟩

@[simp] theorem get_update_self (batch : UpdateBatch) (ns key : String) (vv : VersionedValue) :
    (batch.update ns key vv).get ns key = some vv :=
  GoMap.get?_insert_self _ _ _

@[simp] theorem get_delete_self (batch : UpdateBatch) (ns key : String) (version : Height) :
    (batch.delete ns key version).get ns key = some ⟨none, [], version⟩ :=
  get_update_self _ _ _ _

end UpdateBatch

/-- `privacyenabledstate.HashedUpdateBatch`: for each namespace an `NsBatch`, a
`statedb.UpdateBatch` whose namespaces are the collections. -/
structure HashedUpdateBatch where
  updateMap : GoMap String UpdateBatch

namespace HashedUpdateBatch

def newHashedUpdateBatch : HashedUpdateBatch := ⟨.empty⟩

def getOrCreateNsBatch (b : HashedUpdateBatch) (ns : String) : UpdateBatch :=
  (b.updateMap.get? ns).getD .newUpdateBatch

def get (b : HashedUpdateBatch) (ns coll key : String) : Option VersionedValue :=
  (b.updateMap.get? ns).bind fun nsBatch => nsBatch.get coll key

def contains (b : HashedUpdateBatch) (ns coll keyHash : String) : Bool :=
  match b.updateMap.get? ns with
  | none => false
  | some nsBatch => nsBatch.keyExists coll keyHash

def putValHashAndMetadata (b : HashedUpdateBatch) (ns coll keyHash : String)
    (value : Option Bytes) (metadata : Bytes) (version : Height) : Run HashedUpdateBatch := do
  let nsBatch ← (b.getOrCreateNsBatch ns).putValAndMetadata coll keyHash value metadata version
  pure ⟨b.updateMap.insert ns nsBatch⟩

def delete (b : HashedUpdateBatch) (ns coll keyHash : String) (version : Height) :
    HashedUpdateBatch :=
  ⟨b.updateMap.insert ns ((b.getOrCreateNsBatch ns).delete coll keyHash version)⟩

end HashedUpdateBatch

/-- A value of the committed state; its `Value` is never nil. -/
structure StoredValue where
  value : Bytes
  metadata : Bytes
  version : Height
  deriving DecidableEq, Repr

def StoredValue.toVersionedValue (sv : StoredValue) : VersionedValue :=
  ⟨some sv.value, sv.metadata, sv.version⟩

/-- The committed state behind `privacyenabledstate.DB`: the keys of each namespace in
increasing order with their values, and the namespaces that the metadata hint marks as having
used metadata. The bulk-read cache only saves reads and is left out. -/
structure DB where
  state : String → List (String × StoredValue)
  sorted : ∀ ns, (state ns).Pairwise (fun a b => a.1 < b.1)
  metadataHint : String → Bool

namespace DB

def getState (db : DB) (ns key : String) : Option VersionedValue :=
  ((db.state ns).lookup key).map StoredValue.toVersionedValue

def getVersion (db : DB) (ns key : String) : Option Height :=
  (db.getState ns key).map (·.version)

/-- `GetStateMetadata`: nil for a namespace that never used metadata. -/
def getStateMetadata (db : DB) (ns key : String) : Bytes :=
  if !db.metadataHint ns then []
  else match db.getState ns key with
    | none => []
    | some vv => vv.metadata

/-- `deriveHashedDataNs`: `namespace + nsJoiner + hashDataPrefix + collection`. -/
def deriveHashedDataNs (ns coll : String) : String := ns ++ "$$" ++ "h" ++ coll

/-- `GetValueHash`, for a state that supports byte keys. -/
def getValueHash (db : DB) (ns coll keyHash : String) : Option VersionedValue :=
  db.getState (deriveHashedDataNs ns coll) keyHash

def getKeyHashVersion (db : DB) (ns coll keyHash : String) : Option Height :=
  db.getVersion (deriveHashedDataNs ns coll) keyHash

def getPrivateDataMetadataByHash (db : DB) (ns coll keyHash : String) : Bytes :=
  if !db.metadataHint ns then []
  else match db.getValueHash ns coll keyHash with
    | none => []
    | some vv => vv.metadata

/-- The results of `GetStateRangeScanIterator(ns, startKey, endKey)`: the keys from `startKey`
up to `endKey` excluded, to the end of the namespace for an empty `endKey`. -/
def getStateRangeScanIterator (db : DB) (ns startKey endKey : String) : List VersionedKV :=
  ((db.state ns).filter fun e => startKey ≤ e.1 ∧ (endKey = "" ∨ e.1 < endKey)).map fun e =>
    ⟨ns, e.1, some e.2.value, e.2.metadata, e.2.version⟩

end DB

end FabricPeer.Ledger
