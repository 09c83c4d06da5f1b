import FabricPeer.Pvtdatastorage.Store

/-! # Committing reconciled private data of old blocks

`CommitPvtDataOfOldBlocks` stores private data that the reconciler fetched for blocks committed
earlier, and updates the missing-data bitmaps: a reconciled transaction leaves the prioritized
or the deprioritized bitmap of its collection, and an entry the reconciler could not fetch moves
from the prioritized bitmap to the deprioritized one. Pending entries overlay the store: each
read of a bitmap or of expiry data looks at the entries prepared so far before the database.
-/

namespace FabricPeer.Pvtdatastorage

open FabricPeer.Ledger GoRun KVStore

set_option autoImplicit false

/-- `entriesForPvtDataOfOldBlocks`, without the boot KV hashes of a store built from a
snapshot. -/
structure EntriesForPvtDataOfOldBlocks where
  dataEntries : GoMap DataKey CollPvtRwSet
  hashedIndexEntries : List (HashedIndexKey × String)
  expiryEntries : GoMap ExpiryKey ExpiryData
  prioritizedMissingDataEntries : GoMap NsCollBlk (Finset ℕ)
  deprioritizedMissingDataEntries : GoMap NsCollBlk (Finset ℕ)

def EntriesForPvtDataOfOldBlocks.empty : EntriesForPvtDataOfOldBlocks :=
  ⟨GoMap.empty, [], GoMap.empty, GoMap.empty, GoMap.empty⟩

section OldBlocks

variable (db : DB)

def getExpiryDataFromEntriesOrStore (e : EntriesForPvtDataOfOldBlocks) (expKey : ExpiryKey) :
    Option ExpiryData :=
  match e.expiryEntries.get? expKey with
  | some expiryData => some expiryData
  | none => db.expiry.get? expKey

def getPrioMissingDataFromEntriesOrStore (e : EntriesForPvtDataOfOldBlocks) (key : NsCollBlk) :
    Option (Finset ℕ) :=
  match e.prioritizedMissingDataEntries.get? key with
  | some missingData => some missingData
  | none => db.elgPrioMissingData.get? key

def getDeprioMissingDataFromEntriesOrStore (e : EntriesForPvtDataOfOldBlocks) (key : NsCollBlk) :
    Option (Finset ℕ) :=
  match e.deprioritizedMissingDataEntries.get? key with
  | some missingData => some missingData
  | none => db.elgDeprioMissingData.get? key

def constructExpiryKey (btlPolicy : BTLPolicy) (dataEntry : DataEntry) : Except String ExpiryKey :=
  match getExpiringBlock btlPolicy dataEntry.key.ns dataEntry.key.coll dataEntry.key.blkNum with
  | .error err => .error ("error while constructing expiry data key: " ++ err)
  | .ok expiringBlk => .ok ⟨expiringBlk, dataEntry.key.blkNum⟩

def prepareDataAndExpiryEntry (btlPolicy : BTLPolicy) (e : EntriesForPvtDataOfOldBlocks)
    (dataEntry : DataEntry) : Except String EntriesForPvtDataOfOldBlocks := do
  let expKey ← constructExpiryKey btlPolicy dataEntry
  if neverExpires expKey.expiringBlk then
    pure { e with dataEntries := e.dataEntries.insert dataEntry.key dataEntry.value }
  else match getExpiryDataFromEntriesOrStore db e expKey with
    | none => pure e
    | some expData =>
      let expData := expData.addPresentData dataEntry.key.ns dataEntry.key.coll dataEntry.key.txNum
      pure { e with
        dataEntries := e.dataEntries.insert dataEntry.key dataEntry.value
        expiryEntries := e.expiryEntries.insert expKey expData }

def prepareDataAndExpiryEntries (btlPolicy : BTLPolicy) (e : EntriesForPvtDataOfOldBlocks)
    (blocksPvtData : GoMap UInt64 (List TxPvtData)) : Except String EntriesForPvtDataOfOldBlocks :=
  let dataEntries := blocksPvtData.entries.flatMap fun (blkNum, pvtData) =>
    prepareDataEntries blkNum pvtData
  dataEntries.foldlM (prepareDataAndExpiryEntry db btlPolicy) e

def EntriesForPvtDataOfOldBlocks.prepareHashedIndexEntries (computeStringHash : KeyHasher)
    (e : EntriesForPvtDataOfOldBlocks) : EntriesForPvtDataOfOldBlocks :=
  let d : List DataEntry := e.dataEntries.entries.map fun (k, v) => ⟨k, v⟩
  { e with hashedIndexEntries := Pvtdatastorage.prepareHashedIndexEntries computeStringHash d }

def reflectReconciledData (e : EntriesForPvtDataOfOldBlocks) (dataKey : DataKey) :
    EntriesForPvtDataOfOldBlocks :=
  let key := dataKey.nsCollBlk
  let txNum := dataKey.txNum.toNat
  let clearDeprio := match getDeprioMissingDataFromEntriesOrStore db e key with
    | some deprioMissingData =>
      if txNum ∈ deprioMissingData then
        { e with deprioritizedMissingDataEntries :=
            e.deprioritizedMissingDataEntries.insert key (deprioMissingData.erase txNum) }
      else e
    | none => e
  match getPrioMissingDataFromEntriesOrStore db e key with
  | some prioMissingData =>
    if txNum ∈ prioMissingData then
      { e with prioritizedMissingDataEntries :=
          e.prioritizedMissingDataEntries.insert key (prioMissingData.erase txNum) }
    else clearDeprio
  | none => clearDeprio

def prepareMissingDataEntriesToReflectReconciledData (e : EntriesForPvtDataOfOldBlocks) :
    EntriesForPvtDataOfOldBlocks :=
  e.dataEntries.keys.foldl (reflectReconciledData db) e

def reflectPriority (e : EntriesForPvtDataOfOldBlocks) (key : NsCollBlk) (txNum : ℕ) :
    EntriesForPvtDataOfOldBlocks :=
  match getPrioMissingDataFromEntriesOrStore db e key with
  | none => e
  | some prioMissingData =>
    let e := { e with prioritizedMissingDataEntries :=
      e.prioritizedMissingDataEntries.insert key (prioMissingData.erase txNum) }
    let deprioMissingData := (getDeprioMissingDataFromEntriesOrStore db e key).getD ∅
    { e with deprioritizedMissingDataEntries :=
        e.deprioritizedMissingDataEntries.insert key (insert txNum deprioMissingData) }

def MissingPvtDataInfo.flatten (deprioritizedList : MissingPvtDataInfo) : List (NsCollBlk × ℕ) :=
  deprioritizedList.entries.flatMap fun (blkNum, blkMissingData) =>
    blkMissingData.entries.flatMap fun (txNum, txMissingData) =>
      txMissingData.map fun nsColl => (⟨nsColl.nameSpace, nsColl.collection, blkNum⟩, txNum.toNat)

def prepareMissingDataEntriesToReflectPriority (e : EntriesForPvtDataOfOldBlocks)
    (deprioritizedList : MissingPvtDataInfo) : EntriesForPvtDataOfOldBlocks :=
  deprioritizedList.flatten.foldl (fun e entry => reflectPriority db e entry.1 entry.2) e

end OldBlocks

def missingDataOp (entry : NsCollBlk × Finset ℕ) : BatchOp NsCollBlk (Finset ℕ) :=
  if entry.2 = ∅ then .delete entry.1 else .put entry.1 entry.2

def EntriesForPvtDataOfOldBlocks.constructDBUpdateBatch (e : EntriesForPvtDataOfOldBlocks) :
    UpdateBatch :=
  { UpdateBatch.empty with
    data := e.dataEntries.entries.map fun d => .put d.1 d.2
    hashedIndex := e.hashedIndexEntries.map fun h => .put h.1 h.2
    expiry := e.expiryEntries.entries.map fun x => .put x.1 x.2
    elgPrioMissingData := e.prioritizedMissingDataEntries.entries.map missingDataOp
    elgDeprioMissingData := e.deprioritizedMissingDataEntries.entries.map missingDataOp }

/-- `Store.CommitPvtDataOfOldBlocks`, run while it holds `purgerLock`. -/
def DB.commitPvtDataOfOldBlocks (btlPolicy : BTLPolicy) (computeStringHash : KeyHasher) (db : DB)
    (blocksPvtData : GoMap UInt64 (List TxPvtData)) (unreconciledMissingData : MissingPvtDataInfo) :
    Except String DB := do
  let e ← prepareDataAndExpiryEntries db btlPolicy .empty blocksPvtData
  let e := e.prepareHashedIndexEntries computeStringHash
  let e := prepareMissingDataEntriesToReflectReconciledData db e
  let e := prepareMissingDataEntriesToReflectPriority db e unreconciledMissingData
  pure (db.writeBatch e.constructDBUpdateBatch)

end FabricPeer.Pvtdatastorage
