import FabricPeer.Lib.StoreIterator
import FabricPeer.Lib.ByteOrder
import FabricPeer.Lib.Fault
import FabricPeer.Ledger.KvRwSet

/-! # Named handles over one LevelDB

`leveldbhelper.Provider` shares one LevelDB among named handles. A handle keeps its keys under
its name followed by a `0x00` (`constructLevelKey`); an iterator of a handle runs over the range
of those keys, the end of an unbounded one being the name followed by a `0x01`, and its `Key`
takes off everything up to the first `0x00`. `Drop` deletes every key of a handle in batches
of about a megabyte.

The LevelDB is a sorted store of byte strings, its I/O errors are not modelled, nor is the
provider's cache of handles, which only saves building a handle twice. A handle is its name.
Values are never nil here: `UpdateBatch.Put` of a nil value panics.
-/

namespace FabricPeer.Leveldbhelper

open FabricPeer.Ledger KVStore GoRun

set_option autoImplicit false

/-- The one LevelDB the handles share. -/
abbrev DB := SortedMap Bytes Bytes

def internalDBName : Bytes := [0x5f]

def formatVersionKey : Bytes := [0x66]

def maxBatchSize : Nat := 1000000

def dbNameKeySep : Bytes := [0x00]

def lastKeyIndicator : UInt8 := 0x01

/-- `constructLevelKey`: the name, the separator, the key. -/
def constructLevelKey (dbName key : Bytes) : Bytes := dbName ++ dbNameKeySep ++ key

/-- `retrieveAppKey`: `bytes.SplitN(levelKey, dbNameKeySep, 2)[1]`, what follows the first
separator, an index out of range when there is none. -/
def retrieveAppKey (levelKey : Bytes) : Run Bytes :=
  match levelKey.idxOf? 0 with
  | some i => .ok (levelKey.drop (i + 1))
  | none => .error (.indexOutOfRange 1 1)

section Handle

variable (db : DB) (dbName : Bytes)

/-- `DBHandle.Get`: `none` for a nil value, of a key not there. -/
def get (key : Bytes) : Option Bytes := db.get? (constructLevelKey dbName key)

def put (key value : Bytes) : DB := db.put (constructLevelKey dbName key) value

def delete (key : Bytes) : DB := db.delete (constructLevelKey dbName key)

end Handle

/-- `Provider.GetDataFormat`, the format as the bytes of its string, empty when none is set. -/
def getDataFormat (db : DB) : Bytes := (get db internalDBName formatVersionKey).getD []

def setDataFormat (db : DB) (format : Bytes) : DB := put db internalDBName formatVersionKey format

/-- An `UpdateBatch` of a handle: the operations on the level keys, in order, and their size. -/
structure UpdateBatch where
  dbName : Bytes
  leveldbBatch : List (BatchOp Bytes Bytes)
  size : Nat
  deriving DecidableEq, Repr

def newUpdateBatch (dbName : Bytes) : UpdateBatch := ⟨dbName, [], 0⟩

namespace UpdateBatch

def put (b : UpdateBatch) (key value : Bytes) : UpdateBatch :=
  let k := constructLevelKey b.dbName key
  { b with leveldbBatch := b.leveldbBatch ++ [.put k value], size := b.size + k.length + value.length }

def delete (b : UpdateBatch) (key : Bytes) : UpdateBatch :=
  let k := constructLevelKey b.dbName key
  { b with leveldbBatch := b.leveldbBatch ++ [.delete k], size := b.size + k.length }

end UpdateBatch

/-- `DBHandle.WriteBatch`: nothing for an empty batch, else its operations in one write. -/
def writeBatch (db : DB) (batch : UpdateBatch) : DB :=
  if batch.leveldbBatch.length = 0 then db else db.writeBatch batch.leveldbBatch

/-- An `Iterator` of a handle: the handle's name and the LevelDB iterator over its range. -/
structure Iterator where
  dbName : Bytes
  iterator : KVStore.Iterator Bytes Bytes

/-- `DBHandle.GetIterator`: the range from the level key of `startKey` up to that of `endKey`,
`none` standing for a nil key; for a nil end the last byte of the level key, the separator, is
replaced by `lastKeyIndicator`. -/
def getIterator (db : DB) (dbName : Bytes) (startKey endKey : Option Bytes) : Iterator :=
  let sKey := constructLevelKey dbName (startKey.getD [])
  let eKey := constructLevelKey dbName (endKey.getD [])
  let eKey := match endKey with
    | none => eKey.set (eKey.length - 1) lastKeyIndicator
    | some _ => eKey
  ⟨dbName, db.iterator sKey eKey⟩

namespace Iterator

/-- `Next`, and whether the iterator stands at an entry after it. -/
def next (itr : Iterator) : Iterator × Bool :=
  let it := itr.iterator.next
  (⟨itr.dbName, it⟩, it.current?.isSome)

/-- `Key`: the key the iterator stands at, its handle's name taken off. -/
def key (itr : Iterator) : Run Bytes :=
  retrieveAppKey ((itr.iterator.current?.map Prod.fst).getD [])

/-- `Value`: nil when the iterator stands at no entry. -/
def value (itr : Iterator) : Bytes := (itr.iterator.current?.map Prod.snd).getD []

/-- `Seek`: to the first entry of the range not below the level key of `key`. -/
def seek (itr : Iterator) (key : Bytes) : Iterator × Bool :=
  let it := itr.iterator.seek (constructLevelKey itr.dbName key)
  (⟨itr.dbName, it⟩, it.current?.isSome)

end Iterator

/-- `DBHandle.IsEmpty`: whether the iterator over the whole handle has no first entry. -/
def isEmpty (db : DB) (dbName : Bytes) : Bool := !((getIterator db dbName none none).next).2

def deleteAllLoop : List Bytes → DB → List (BatchOp Bytes Bytes) → Nat → DB
  | [], db, batch, _ => if 0 < batch.length then db.writeBatch batch else db
  | key :: keys, db, batch, batchSize =>
    let batchSize := batchSize + key.length
    let batch := batch ++ [.delete key]
    if maxBatchSize ≤ batchSize then deleteAllLoop keys (db.writeBatch batch) [] 0
    else deleteAllLoop keys db batch batchSize

/-- `DBHandle.deleteAll`, over the keys its iterator holds when it starts. -/
def deleteAll (db : DB) (dbName : Bytes) : DB :=
  deleteAllLoop ((getIterator db dbName none none).iterator.entries.map Prod.fst) db [] 0

/-- `Provider.Drop`. -/
def drop (db : DB) (dbName : Bytes) : DB := deleteAll db dbName

end FabricPeer.Leveldbhelper
