import FabricPeer.Pvtdatastorage.Reconcile
import FabricPeer.Lib.Transition

/-! # The purger and the store's concurrent actions

`performPurgeIfScheduled` starts a goroutine after every block whose number is a multiple of
the purge interval. Holding `purgerLock`, it first deletes what has expired
(`purgeExpiredData`, one batch per expiry entry), then the data marked for purge
(`deleteDataMarkedForPurge`): it iterates over the purge markers, for each marker over the
hashed index entries below the marker's height, trims the write of each from its write set,
and finally writes the trimmed write sets and deletes the hashed index entries and the markers
it has visited. `Commit` does not take `purgerLock`; `CommitPvtDataOfOldBlocks` does.

Each atomic action of these goroutines is one step of `Step`. An iterator reads a snapshot of
the database when it is opened, so a scan is one step that keeps what it saw; reads of single
keys happen in the step that uses them.
-/

namespace FabricPeer.Pvtdatastorage

open FabricPeer.Ledger GoRun KVStore Transition

set_option autoImplicit false

/-! ## `purgeExpiredData` -/

/-- `retrieveExpiryEntries`: the entries of the blocks from `minBlkNum` to `maxBlkNum` that
expire, in key order. -/
def DB.retrieveExpiryEntries (db : DB) (minBlkNum maxBlkNum : UInt64) :
    List (ExpiryKey × ExpiryData) :=
  db.expiry.scan fun k => !heightLt (k.expiringBlk, k.committingBlk) (minBlkNum, 0) &&
    heightLt (k.expiringBlk, k.committingBlk) (maxBlkNum + 1, 0)

/-- `deriveKeys`: the data keys and the missing-data keys an expiry entry lists. -/
def deriveKeys (expiryEntry : ExpiryKey × ExpiryData) : List DataKey × List NsCollBlk :=
  let committingBlk := expiryEntry.1.committingBlk
  let dataKeys := expiryEntry.2.entries.flatMap fun (ns, colls) =>
    colls.presentData.entries.flatMap fun (coll, txNums) =>
      txNums.map fun txNum => (⟨ns, coll, committingBlk, txNum⟩ : DataKey)
  let missingDataKeys := expiryEntry.2.entries.flatMap fun (ns, colls) =>
    colls.missingData.keys.map fun coll => (⟨ns, coll, committingBlk⟩ : NsCollBlk)
  (dataKeys, missingDataKeys)

/-- `retrieveDataEntries`: a key without a value decodes to an empty write set. -/
def DB.retrieveDataEntries (db : DB) (dataKeys : List DataKey) : List DataEntry :=
  dataKeys.map fun k => ⟨k, (db.data.get? k).getD ⟨"", []⟩⟩

def DB.purgeExpiryEntry (computeStringHash : KeyHasher) (db : DB)
    (expiryEntry : ExpiryKey × ExpiryData) : DB :=
  let dataKeys := (deriveKeys expiryEntry).1
  let missingDataKeys := (deriveKeys expiryEntry).2
  let hashedIndexEntries := prepareHashedIndexEntries computeStringHash
    (db.retrieveDataEntries dataKeys)
  db.writeBatch { UpdateBatch.empty with
    data := dataKeys.map .delete
    hashedIndex := hashedIndexEntries.map fun h => .delete h.1
    expiry := [.delete expiryEntry.1]
    elgPrioMissingData := missingDataKeys.map .delete
    elgDeprioMissingData := missingDataKeys.map .delete
    inelgMissingData := missingDataKeys.map .delete }

def DB.purgeExpiredData (computeStringHash : KeyHasher) (db : DB) (minBlkNum maxBlkNum : UInt64) :
    DB :=
  (db.retrieveExpiryEntries minBlkNum maxBlkNum).foldl (DB.purgeExpiryEntry computeStringHash) db

/-! ## `deleteDataMarkedForPurge` -/

/-- `purgeUpdatesProcessor`: the trimmed write sets read so far, and the deletions its batch
holds. -/
structure PurgeUpdatesProcessor where
  pvtWrites : GoMap DataKey CollPvtRwSet
  hashedIndexDeletes : List HashedIndexKey
  purgeMarkerDeletes : List PurgeMarkerKey

def newPurgeUpdatesProcessor : PurgeUpdatesProcessor := ⟨GoMap.empty, [], []⟩

/-- `deriveDataKeyFromEncodedHashedIndexKey`. -/
def HashedIndexKey.dataKey (k : HashedIndexKey) : DataKey := ⟨k.ns, k.coll, k.blkNum, k.txNum⟩

/-- `driveHashedIndexKeyRangeFromPurgeMarker` and its scan: the hashed index entries of the
marker's key below the height of the marker's transaction plus one. -/
def DB.hashedIndexRangeOf (db : DB) (marker : PurgeMarkerKey × Height) :
    List (HashedIndexKey × String) :=
  db.hashedIndex.scan fun k => k.ns == marker.1.ns && k.coll == marker.1.coll &&
    k.pvtkeyHash == marker.1.pvtkeyHash &&
    heightLt (k.blkNum, k.txNum) (marker.2.blockNum, marker.2.txNum + 1)

/-- `commitPendingChanges`: the trimmed write sets are put back and the batch written; the
processor then starts afresh. -/
def PurgeUpdatesProcessor.commitPendingChanges (p : PurgeUpdatesProcessor) (db : DB) : DB :=
  db.writeBatch { UpdateBatch.empty with
    data := p.pvtWrites.entries.map fun w => .put w.1 w.2
    hashedIndex := p.hashedIndexDeletes.map .delete
    purgeMarkers := p.purgeMarkerDeletes.map .delete }

def PurgeUpdatesProcessor.trim (p : PurgeUpdatesProcessor) (db : DB) (hashedIndexKey : HashedIndexKey)
    (hashedIndexVal : String) : PurgeUpdatesProcessor :=
  let dataKey := hashedIndexKey.dataKey
  let collWS := match p.pvtWrites.get? dataKey with
    | some collWS => collWS
    | none => (db.data.get? dataKey).getD ⟨"", []⟩
  { p with
    pvtWrites := p.pvtWrites.insert dataKey
      { collWS with writes := collWS.writes.eraseP fun w => w.key == hashedIndexVal }
    hashedIndexDeletes := p.hashedIndexDeletes ++ [hashedIndexKey] }

def PurgeUpdatesProcessor.addProcessedPurgeMarkerForDeletion (p : PurgeUpdatesProcessor)
    (purgeMarkerKey : PurgeMarkerKey) : PurgeUpdatesProcessor :=
  { p with purgeMarkerDeletes := p.purgeMarkerDeletes ++ [purgeMarkerKey] }

section Processor

variable (exceedsMaxBatchSize : PurgeUpdatesProcessor → Bool)

/-- `process`: trim, and commit the pending changes once they exceed `maxBatchSize`. -/
def PurgeUpdatesProcessor.process (p : PurgeUpdatesProcessor) (db : DB)
    (entry : HashedIndexKey × String) : PurgeUpdatesProcessor × DB :=
  let p := p.trim db entry.1 entry.2
  if exceedsMaxBatchSize p then (newPurgeUpdatesProcessor, p.commitPendingChanges db) else (p, db)

def processHashedIndexEntries (p : PurgeUpdatesProcessor) (db : DB)
    (entries : List (HashedIndexKey × String)) : PurgeUpdatesProcessor × DB :=
  entries.foldl (fun acc e => acc.1.process exceedsMaxBatchSize acc.2 e) (p, db)

def processPurgeMarkers (p : PurgeUpdatesProcessor) (db : DB) :
    List (PurgeMarkerKey × Height) → DB
  | [] => p.commitPendingChanges db
  | m :: ms =>
    let r := processHashedIndexEntries exceedsMaxBatchSize p db (db.hashedIndexRangeOf m)
    processPurgeMarkers (r.1.addProcessedPurgeMarkerForDeletion m.1) r.2 ms

/-- `deleteDataMarkedForPurge`, run alone. -/
def DB.deleteDataMarkedForPurge (db : DB) : DB :=
  processPurgeMarkers exceedsMaxBatchSize newPurgeUpdatesProcessor db db.purgeMarkers.entries

end Processor

/-! ## The concurrent system -/

/-- Where the purger goroutine that holds `purgerLock` is. -/
inductive PurgerPhase where
  /-- In `purgeExpiredData`, with the expiry entries still to delete. -/
  | expiring (entries : List (ExpiryKey × ExpiryData))
  /-- In `deleteDataMarkedForPurge`, with the purge markers not visited yet. -/
  | markers (p : PurgeUpdatesProcessor) (markers : List (PurgeMarkerKey × Height))
  /-- Processing the hashed index entries of `marker`, with those not processed yet. -/
  | hashedIndex (p : PurgeUpdatesProcessor) (marker : PurgeMarkerKey × Height)
      (markers : List (PurgeMarkerKey × Height)) (entries : List (HashedIndexKey × String))

/-- The store and its goroutines. -/
structure PeerState where
  store : Store
  /-- The purger goroutines that wait for `purgerLock`, by the block they purge up to. -/
  waiting : List UInt64
  /-- The purger goroutine that holds `purgerLock`. -/
  purger : Option PurgerPhase
  /-- The number of blocks committed so far; no code reads it. -/
  blocksCommitted : ℕ

def PeerState.init (purgeInterval : UInt64) : PeerState := ⟨Store.init purgeInterval, [], none, 0⟩

def PeerState.setDb (σ : PeerState) (db : DB) : PeerState := { σ with store := { σ.store with db } }

@[simp] theorem PeerState.setDb_purger (σ : PeerState) (db : DB) : (σ.setDb db).purger = σ.purger :=
  rfl

@[simp] theorem PeerState.setDb_db (σ : PeerState) (db : DB) : (σ.setDb db).store.db = db := rfl

section System

variable (btlPolicy : BTLPolicy) (computeStringHash : KeyHasher)
  (exceedsMaxBatchSize : PurgeUpdatesProcessor → Bool)

/-- One atomic action: a `Commit`, a `CommitPvtDataOfOldBlocks`, or a step of the purger
goroutine. -/
inductive Step : PeerState → PeerState → Prop where
  | commit (σ : PeerState) (blockNum : UInt64) (pvtData : List TxPvtData)
      (missingPvtData : TxMissingPvtData) (purgeMarkers : List PurgeMarker) (store : Store)
      (scheduled : Bool)
      (hCommit : σ.store.commit btlPolicy computeStringHash blockNum pvtData missingPvtData
        purgeMarkers = .ok (store, scheduled)) :
      Step σ { σ with
        store
        waiting := if scheduled then σ.waiting ++ [blockNum] else σ.waiting
        blocksCommitted := σ.blocksCommitted + 1 }
  | commitOldBlocks (σ : PeerState) (blocksPvtData : GoMap UInt64 (List TxPvtData))
      (unreconciledMissingData : MissingPvtDataInfo) (db : DB) (hFree : σ.purger = none)
      (hCommit : σ.store.db.commitPvtDataOfOldBlocks btlPolicy computeStringHash blocksPvtData
        unreconciledMissingData = .ok db) :
      Step σ (σ.setDb db)
  /-- A waiting purger takes `purgerLock` and reads the expiry entries up to its block. -/
  | acquire (σ : PeerState) (latestCommittedBlk : UInt64) (hFree : σ.purger = none)
      (hWaiting : latestCommittedBlk ∈ σ.waiting) :
      Step σ { σ with
        waiting := σ.waiting.erase latestCommittedBlk
        purger := some (.expiring (σ.store.db.retrieveExpiryEntries 0 latestCommittedBlk)) }
  | expire (σ : PeerState) (e : ExpiryKey × ExpiryData) (es : List (ExpiryKey × ExpiryData))
      (hPhase : σ.purger = some (.expiring (e :: es))) :
      Step σ { σ.setDb (σ.store.db.purgeExpiryEntry computeStringHash e) with
        purger := some (.expiring es) }
  /-- `deleteDataMarkedForPurge` opens its iterator over the purge markers. -/
  | scanPurgeMarkers (σ : PeerState) (hPhase : σ.purger = some (.expiring [])) :
      Step σ { σ with purger := some (.markers newPurgeUpdatesProcessor σ.store.db.purgeMarkers.entries) }
  | scanHashedIndex (σ : PeerState) (p : PurgeUpdatesProcessor) (m : PurgeMarkerKey × Height)
      (ms : List (PurgeMarkerKey × Height)) (hPhase : σ.purger = some (.markers p (m :: ms))) :
      Step σ { σ with purger := some (.hashedIndex p m ms (σ.store.db.hashedIndexRangeOf m)) }
  | process (σ : PeerState) (p : PurgeUpdatesProcessor) (m : PurgeMarkerKey × Height)
      (ms : List (PurgeMarkerKey × Height)) (e : HashedIndexKey × String)
      (es : List (HashedIndexKey × String)) (hPhase : σ.purger = some (.hashedIndex p m ms (e :: es))) :
      Step σ { σ.setDb (p.process exceedsMaxBatchSize σ.store.db e).2 with
        purger := some (.hashedIndex (p.process exceedsMaxBatchSize σ.store.db e).1 m ms es) }
  | markerProcessed (σ : PeerState) (p : PurgeUpdatesProcessor) (m : PurgeMarkerKey × Height)
      (ms : List (PurgeMarkerKey × Height)) (hPhase : σ.purger = some (.hashedIndex p m ms [])) :
      Step σ { σ with purger := some (.markers (p.addProcessedPurgeMarkerForDeletion m.1) ms) }
  /-- The final `commitPendingChanges`; the goroutine releases `purgerLock`. -/
  | release (σ : PeerState) (p : PurgeUpdatesProcessor) (hPhase : σ.purger = some (.markers p [])) :
      Step σ { σ.setDb (p.commitPendingChanges σ.store.db) with purger := none }

end System

end FabricPeer.Pvtdatastorage
