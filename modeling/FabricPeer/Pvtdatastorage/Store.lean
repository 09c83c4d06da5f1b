import FabricPeer.Ledger.KvRwSet
import FabricPeer.Lib.SortedMap
import FabricPeer.Lib.GoMap
import Mathlib.Data.Finset.Sort
import Mathlib.Data.Prod.Lex
import Mathlib.Data.String.Basic

/-! # The private data store

`pvtdatastorage.Store` keeps the private write sets of committed blocks in one LevelDB
database, under key families that its first byte tells apart: the data entries, keyed by
block, transaction, namespace and collection; the hashed index that maps the hash of a private
key back to the data entry that writes it; one purge marker per purged key and one per
collection; the expiry entries that list what expires at a block; and the bitmaps of the
missing private data of eligible and ineligible collections. Here each family is a sorted map
of its own, its keys ordered as their encodings order them, so that an iterator over a key range
visits what LevelDB visits.

`Commit` writes one block's entries in one batch; `GetPvtDataByBlockNum` reads a block back,
hiding what has expired and the writes that a purge marker covers.
-/

namespace FabricPeer.Pvtdatastorage

open FabricPeer.Ledger GoRun KVStore

set_option autoImplicit false

/-- `rwset.CollectionPvtReadWriteSet`, its `Rwset` decoded: the private writes of one
collection. -/
structure CollPvtRwSet where
  collectionName : String
  writes : List KVWrite
  deriving DecidableEq, Repr

/-- `rwset.NsPvtReadWriteSet`. -/
structure NsPvtRwSet where
  nameSpace : String
  collectionPvtRwset : List CollPvtRwSet
  deriving DecidableEq, Repr

/-- `ledger.TxPvtData`, its `WriteSet` given by the namespaces it writes. -/
structure TxPvtData where
  seqInBlock : UInt64
  writeSet : List NsPvtRwSet
  deriving DecidableEq, Repr

structure MissingPvtData where
  nameSpace : String
  collection : String
  isEligible : Bool
  deriving DecidableEq, Repr

/-- `ledger.TxMissingPvtData`: the missing private data of each transaction. -/
abbrev TxMissingPvtData := GoMap UInt64 (List MissingPvtData)

structure MissingCollectionPvtDataInfo where
  nameSpace : String
  collection : String
  deriving DecidableEq, Repr

/-- `ledger.MissingPvtDataInfo`: by block, then by transaction. -/
abbrev MissingPvtDataInfo := GoMap UInt64 (GoMap UInt64 (List MissingCollectionPvtDataInfo))

/-- `PurgeMarker`: a key purged by the transaction `txNum` of the block. -/
structure PurgeMarker where
  ns : String
  coll : String
  pvtkeyHash : String
  txNum : UInt64
  deriving DecidableEq, Repr

/-- `ledger.PvtNsCollFilter`, by its `Has`; a nil filter is `none`. -/
abbrev PvtNsCollFilter := String → String → Bool

/-! ## Keys, ordered as their encodings -/

/-- `nsCollBlk`, also the `missingDataKey` of the missing-data bitmaps. -/
structure NsCollBlk where
  ns : String
  coll : String
  blkNum : UInt64
  deriving Repr

/-- `dataKey`, with the fields of its embedded `nsCollBlk`. -/
structure DataKey where
  ns : String
  coll : String
  blkNum : UInt64
  txNum : UInt64
  deriving Repr

structure HashedIndexKey where
  ns : String
  coll : String
  pvtkeyHash : String
  blkNum : UInt64
  txNum : UInt64
  deriving Repr

structure PurgeMarkerKey where
  ns : String
  coll : String
  pvtkeyHash : String
  deriving Repr

structure PurgeMarkerCollKey where
  ns : String
  coll : String
  deriving Repr

structure ExpiryKey where
  expiringBlk : UInt64
  committingBlk : UInt64
  deriving Repr

def DataKey.nsCollBlk (k : DataKey) : NsCollBlk := ⟨k.ns, k.coll, k.blkNum⟩

def DataKey.lexKey (k : DataKey) : Lex (ℕ × Lex (ℕ × Lex (String × String))) :=
  toLex (k.blkNum.toNat, toLex (k.txNum.toNat, toLex (k.ns, k.coll)))

def HashedIndexKey.lexKey (k : HashedIndexKey) :
    Lex (String × Lex (String × Lex (String × Lex (ℕ × ℕ)))) :=
  toLex (k.ns, toLex (k.coll, toLex (k.pvtkeyHash, toLex (k.blkNum.toNat, k.txNum.toNat))))

def PurgeMarkerKey.lexKey (k : PurgeMarkerKey) : Lex (String × Lex (String × String)) :=
  toLex (k.ns, toLex (k.coll, k.pvtkeyHash))

def PurgeMarkerCollKey.lexKey (k : PurgeMarkerCollKey) : Lex (String × String) :=
  toLex (k.ns, k.coll)

def ExpiryKey.lexKey (k : ExpiryKey) : Lex (ℕ × ℕ) :=
  toLex (k.expiringBlk.toNat, k.committingBlk.toNat)

def NsCollBlk.lexKey (k : NsCollBlk) : Lex (ℕᵒᵈ × Lex (String × String)) :=
  toLex (OrderDual.toDual k.blkNum.toNat, toLex (k.ns, k.coll))

theorem DataKey.lexKey_injective : Function.Injective DataKey.lexKey := by
  rintro ⟨a1, a2, a3, a4⟩ ⟨b1, b2, b3, b4⟩ h
  simp only [DataKey.lexKey, toLex_inj, Prod.mk.injEq] at h
  simp_all [UInt64.toNat_inj]

theorem HashedIndexKey.lexKey_injective : Function.Injective HashedIndexKey.lexKey := by
  rintro ⟨a1, a2, a3, a4, a5⟩ ⟨b1, b2, b3, b4, b5⟩ h
  simp only [HashedIndexKey.lexKey, toLex_inj, Prod.mk.injEq] at h
  simp_all [UInt64.toNat_inj]

theorem PurgeMarkerKey.lexKey_injective : Function.Injective PurgeMarkerKey.lexKey := by
  rintro ⟨a1, a2, a3⟩ ⟨b1, b2, b3⟩ h
  simp only [PurgeMarkerKey.lexKey, toLex_inj, Prod.mk.injEq] at h
  simp_all

theorem PurgeMarkerCollKey.lexKey_injective : Function.Injective PurgeMarkerCollKey.lexKey := by
  rintro ⟨a1, a2⟩ ⟨b1, b2⟩ h
  simp only [PurgeMarkerCollKey.lexKey, toLex_inj, Prod.mk.injEq] at h
  simp_all

theorem ExpiryKey.lexKey_injective : Function.Injective ExpiryKey.lexKey := by
  rintro ⟨a1, a2⟩ ⟨b1, b2⟩ h
  simp only [ExpiryKey.lexKey, toLex_inj, Prod.mk.injEq] at h
  simp_all [UInt64.toNat_inj]

theorem NsCollBlk.lexKey_injective : Function.Injective NsCollBlk.lexKey := by
  rintro ⟨a1, a2, a3⟩ ⟨b1, b2, b3⟩ h
  simp only [NsCollBlk.lexKey, toLex_inj, Prod.mk.injEq, OrderDual.toDual_inj] at h
  simp_all [UInt64.toNat_inj]

instance : LinearOrder DataKey := LinearOrder.lift' DataKey.lexKey DataKey.lexKey_injective

instance : LinearOrder HashedIndexKey :=
  LinearOrder.lift' HashedIndexKey.lexKey HashedIndexKey.lexKey_injective

instance : LinearOrder PurgeMarkerKey :=
  LinearOrder.lift' PurgeMarkerKey.lexKey PurgeMarkerKey.lexKey_injective

instance : LinearOrder PurgeMarkerCollKey :=
  LinearOrder.lift' PurgeMarkerCollKey.lexKey PurgeMarkerCollKey.lexKey_injective

instance : LinearOrder ExpiryKey := LinearOrder.lift' ExpiryKey.lexKey ExpiryKey.lexKey_injective

instance : LinearOrder NsCollBlk := LinearOrder.lift' NsCollBlk.lexKey NsCollBlk.lexKey_injective

def heightLt (a b : UInt64 × UInt64) : Bool :=
  a.1 < b.1 || (a.1 = b.1 && a.2 < b.2)

/-! ## Expiry data and the block-to-live policy -/

structure NamespaceExpiryData where
  presentData : GoMap String (List UInt64)
  missingData : GoMap String Bool

abbrev ExpiryData := GoMap String NamespaceExpiryData

def newExpiryData : ExpiryData := GoMap.empty

def getOrCreateCollections (e : ExpiryData) (ns : String) : NamespaceExpiryData :=
  (e.get? ns).getD ⟨GoMap.empty, GoMap.empty⟩

def ExpiryData.addPresentData (e : ExpiryData) (ns coll : String) (txNum : UInt64) : ExpiryData :=
  let nsExpiryData := getOrCreateCollections e ns
  let txNums := (nsExpiryData.presentData.get? coll).getD []
  e.insert ns { nsExpiryData with presentData := nsExpiryData.presentData.insert coll (txNums ++ [txNum]) }

def ExpiryData.addMissingData (e : ExpiryData) (ns coll : String) : ExpiryData :=
  let nsExpiryData := getOrCreateCollections e ns
  e.insert ns { nsExpiryData with missingData := nsExpiryData.missingData.insert coll true }

/-- `BTLPolicy.GetBTL`: the block-to-live of a collection, `MaxUint64` when it never expires;
looking up the collection's configuration can fail. -/
abbrev BTLPolicy := String → String → Except String UInt64

def maxUint64 : UInt64 := 18446744073709551615

/-- `ComputeExpiringBlock`: the block with which the data expires, `MaxUint64` when the sum
overflows. -/
def computeExpiringBlock (committingBlock btl : UInt64) : UInt64 :=
  let expiryBlk := committingBlock + btl + 1
  if expiryBlk ≤ committingBlock then maxUint64 else expiryBlk

section Policy

variable (btlPolicy : BTLPolicy)

def getExpiringBlock (ns coll : String) (committingBlock : UInt64) : Except String UInt64 := do
  let btl ← btlPolicy ns coll
  pure (computeExpiringBlock committingBlock btl)

def isExpired (key : NsCollBlk) (latestBlkNum : UInt64) : Except String Bool := do
  let expiringBlk ← getExpiringBlock btlPolicy key.ns key.coll key.blkNum
  pure (latestBlkNum ≥ expiringBlk)

end Policy

def neverExpires (expiringBlkNum : UInt64) : Bool := expiringBlkNum == maxUint64

/-! ## The database -/

/-- The key families of the database that the modelled functions read or write. -/
structure DB where
  data : SortedMap DataKey CollPvtRwSet
  hashedIndex : SortedMap HashedIndexKey String
  purgeMarkers : SortedMap PurgeMarkerKey Height
  purgeMarkerColls : SortedMap PurgeMarkerCollKey Height
  expiry : SortedMap ExpiryKey ExpiryData
  elgPrioMissingData : SortedMap NsCollBlk (Finset ℕ)
  elgDeprioMissingData : SortedMap NsCollBlk (Finset ℕ)
  inelgMissingData : SortedMap NsCollBlk (Finset ℕ)
  lastCommittedBlk : Option UInt64

def DB.empty : DB :=
  ⟨.empty, .empty, .empty, .empty, .empty, .empty, .empty, .empty, none⟩

/-- `leveldbhelper.UpdateBatch`, its operations split by key family. -/
structure UpdateBatch where
  data : List (BatchOp DataKey CollPvtRwSet)
  hashedIndex : List (BatchOp HashedIndexKey String)
  purgeMarkers : List (BatchOp PurgeMarkerKey Height)
  purgeMarkerColls : List (BatchOp PurgeMarkerCollKey Height)
  expiry : List (BatchOp ExpiryKey ExpiryData)
  elgPrioMissingData : List (BatchOp NsCollBlk (Finset ℕ))
  elgDeprioMissingData : List (BatchOp NsCollBlk (Finset ℕ))
  inelgMissingData : List (BatchOp NsCollBlk (Finset ℕ))

def UpdateBatch.empty : UpdateBatch := ⟨[], [], [], [], [], [], [], []⟩

/-- `WriteBatch`. -/
def DB.writeBatch (db : DB) (b : UpdateBatch) : DB :=
  { db with
    data := db.data.writeBatch b.data
    hashedIndex := db.hashedIndex.writeBatch b.hashedIndex
    purgeMarkers := db.purgeMarkers.writeBatch b.purgeMarkers
    purgeMarkerColls := db.purgeMarkerColls.writeBatch b.purgeMarkerColls
    expiry := db.expiry.writeBatch b.expiry
    elgPrioMissingData := db.elgPrioMissingData.writeBatch b.elgPrioMissingData
    elgDeprioMissingData := db.elgDeprioMissingData.writeBatch b.elgDeprioMissingData
    inelgMissingData := db.inelgMissingData.writeBatch b.inelgMissingData }

/-- The state of a `Store` that the modelled functions use. -/
structure Store where
  db : DB
  purgeInterval : UInt64
  isEmpty : Bool
  lastCommittedBlock : UInt64

/-- A store opened on an empty database. -/
def Store.init (purgeInterval : UInt64) : Store := ⟨.empty, purgeInterval, true, 0⟩

def Store.nextBlockNum (s : Store) : UInt64 :=
  if s.isEmpty then 0 else s.lastCommittedBlock + 1

/-! ## `Commit` -/

structure DataEntry where
  key : DataKey
  value : CollPvtRwSet

/-- `storeEntries`; a Go map of missing data is kept as its entries. -/
structure StoreEntries where
  dataEntries : List DataEntry
  hashedIndexEntries : List (HashedIndexKey × String)
  purgeMarkerEntries : List (PurgeMarkerKey × Height)
  purgeMarkerCollEntries : List (PurgeMarkerCollKey × Height)
  expiryEntries : List (ExpiryKey × ExpiryData)
  elgMissingDataEntries : GoMap NsCollBlk (Finset ℕ)
  inelgMissingDataEntries : GoMap NsCollBlk (Finset ℕ)

def prepareDataEntries (blockNum : UInt64) (pvtData : List TxPvtData) : List DataEntry :=
  pvtData.flatMap fun txPvtdata => txPvtdata.writeSet.flatMap fun nsPvtdata =>
    nsPvtdata.collectionPvtRwset.map fun collPvtdata =>
      ⟨⟨nsPvtdata.nameSpace, collPvtdata.collectionName, blockNum, txPvtdata.seqInBlock⟩, collPvtdata⟩

/-- `util.ComputeStringHash` of a private key, kept as a string. -/
abbrev KeyHasher := String → String

def prepareHashedIndexEntries (computeStringHash : KeyHasher) (dataEntires : List DataEntry) :
    List (HashedIndexKey × String) :=
  dataEntires.flatMap fun d => d.value.writes.map fun w =>
    (⟨d.key.ns, d.key.coll, computeStringHash w.key, d.key.blkNum, d.key.txNum⟩, w.key)

def setMissingBit (entries : GoMap NsCollBlk (Finset ℕ)) (key : NsCollBlk) (txNum : UInt64) :
    GoMap NsCollBlk (Finset ℕ) :=
  entries.insert key (insert txNum.toNat ((entries.get? key).getD ∅))

def prepareMissingDataEntries (committingBlk : UInt64) (missingPvtData : TxMissingPvtData) :
    GoMap NsCollBlk (Finset ℕ) × GoMap NsCollBlk (Finset ℕ) :=
  missingPvtData.entries.foldl (fun acc (txNum, missingData) =>
    missingData.foldl (fun (elg, inelg) nsColl =>
      let key : NsCollBlk := ⟨nsColl.nameSpace, nsColl.collection, committingBlk⟩
      if nsColl.isEligible then (setMissingBit elg key txNum, inelg)
      else (elg, setMissingBit inelg key txNum)) acc) (GoMap.empty, GoMap.empty)

section Policy

variable (btlPolicy : BTLPolicy)

def prepareExpiryEntriesForPresentData (mapByExpiringBlk : GoMap UInt64 ExpiryData)
    (dataKey : DataKey) : Except String (GoMap UInt64 ExpiryData) := do
  let expiringBlk ← getExpiringBlock btlPolicy dataKey.ns dataKey.coll dataKey.blkNum
  if neverExpires expiringBlk then pure mapByExpiringBlk
  else
    let expiryData := (mapByExpiringBlk.get? expiringBlk).getD newExpiryData
    pure (mapByExpiringBlk.insert expiringBlk
      (expiryData.addPresentData dataKey.ns dataKey.coll dataKey.txNum))

def prepareExpiryEntriesForMissingData (mapByExpiringBlk : GoMap UInt64 ExpiryData)
    (missingKey : NsCollBlk) : Except String (GoMap UInt64 ExpiryData) := do
  let expiringBlk ← getExpiringBlock btlPolicy missingKey.ns missingKey.coll missingKey.blkNum
  if neverExpires expiringBlk then pure mapByExpiringBlk
  else
    let expiryData := (mapByExpiringBlk.get? expiringBlk).getD newExpiryData
    pure (mapByExpiringBlk.insert expiringBlk (expiryData.addMissingData missingKey.ns missingKey.coll))

def prepareExpiryEntries (committingBlk : UInt64) (dataEntries : List DataEntry)
    (elgMissingDataEntries inelgMissingDataEntries : GoMap NsCollBlk (Finset ℕ)) :
    Except String (List (ExpiryKey × ExpiryData)) := do
  let m ← dataEntries.foldlM (fun m d => prepareExpiryEntriesForPresentData btlPolicy m d.key)
    GoMap.empty
  let m ← elgMissingDataEntries.keys.foldlM (prepareExpiryEntriesForMissingData btlPolicy) m
  let m ← inelgMissingDataEntries.keys.foldlM (prepareExpiryEntriesForMissingData btlPolicy) m
  pure (m.entries.map fun (expiryBlk, expiryData) => (⟨expiryBlk, committingBlk⟩, expiryData))

end Policy

def visitPurgeMarker (blkNum : UInt64)
    (acc : List (PurgeMarkerKey × Height) × List (PurgeMarkerCollKey × Height) ×
      GoMap (String × String) Height) (m : PurgeMarker) :
    List (PurgeMarkerKey × Height) × List (PurgeMarkerCollKey × Height) ×
      GoMap (String × String) Height :=
  let purgeMarkersEntries := acc.1 ++ [(⟨m.ns, m.coll, m.pvtkeyHash⟩, ⟨blkNum, m.txNum⟩)]
  let version : Height := ⟨blkNum, m.txNum⟩
  let addCollEntry := (purgeMarkersEntries, acc.2.1 ++ [(⟨m.ns, m.coll⟩, version)],
    acc.2.2.insert (m.ns, m.coll) version)
  match acc.2.2.get? (m.ns, m.coll) with
  | some visitedVersion =>
    if visitedVersion.compare version > 0 then (purgeMarkersEntries, acc.2.1, acc.2.2)
    else addCollEntry
  | none => addCollEntry

def preparePurgerMarkerEntries (blkNum : UInt64) (purgeMarkers : List PurgeMarker) :
    List (PurgeMarkerKey × Height) × List (PurgeMarkerCollKey × Height) :=
  let acc := purgeMarkers.foldl (visitPurgeMarker blkNum) ([], [], GoMap.empty)
  (acc.1, acc.2.1)

def prepareStoreEntries (btlPolicy : BTLPolicy) (computeStringHash : KeyHasher)
    (blockNum : UInt64) (pvtData : List TxPvtData) (missingPvtData : TxMissingPvtData)
    (purgeMarkers : List PurgeMarker) : Except String StoreEntries := do
  let dataEntries := prepareDataEntries blockNum pvtData
  let hashedIndexEntries := prepareHashedIndexEntries computeStringHash dataEntries
  let (elgMissingDataEntries, inelgMissingDataEntries) :=
    prepareMissingDataEntries blockNum missingPvtData
  let expiryEntries ← prepareExpiryEntries btlPolicy blockNum dataEntries elgMissingDataEntries
    inelgMissingDataEntries
  let (purgeMarkerEntries, purgeMarkerCollEntries) := preparePurgerMarkerEntries blockNum purgeMarkers
  pure ⟨dataEntries, hashedIndexEntries, purgeMarkerEntries, purgeMarkerCollEntries, expiryEntries,
    elgMissingDataEntries, inelgMissingDataEntries⟩

def StoreEntries.toBatch (e : StoreEntries) : UpdateBatch :=
  { UpdateBatch.empty with
    data := e.dataEntries.map fun d => .put d.key d.value
    hashedIndex := e.hashedIndexEntries.map fun h => .put h.1 h.2
    purgeMarkers := e.purgeMarkerEntries.map fun m => .put m.1 m.2
    purgeMarkerColls := e.purgeMarkerCollEntries.map fun m => .put m.1 m.2
    expiry := e.expiryEntries.map fun x => .put x.1 x.2
    elgPrioMissingData := e.elgMissingDataEntries.entries.map fun m => .put m.1 m.2
    inelgMissingData := e.inelgMissingDataEntries.entries.map fun m => .put m.1 m.2 }

section Commit

variable (btlPolicy : BTLPolicy) (computeStringHash : KeyHasher)

/-- `Store.Commit`: the store after the batch, and whether `performPurgeIfScheduled` starts a
purger goroutine (the block number is a multiple of the purge interval). A zero purge interval
makes the modulo a runtime panic. -/
def Store.commit (s : Store) (blockNum : UInt64) (pvtData : List TxPvtData)
    (missingPvtData : TxMissingPvtData) (purgeMarkers : List PurgeMarker) : Run (Store × Bool) := do
  let expectedBlockNum := s.nextBlockNum
  if expectedBlockNum ≠ blockNum then
    throw (.error ("expected block number=" ++ toString expectedBlockNum ++
      ", received block number=" ++ toString blockNum))
  let storeEntries ← ofExcept (prepareStoreEntries btlPolicy computeStringHash blockNum pvtData
    missingPvtData purgeMarkers)
  let committingBlockNum := s.nextBlockNum
  let db := { s.db.writeBatch storeEntries.toBatch with lastCommittedBlk := some committingBlockNum }
  if s.purgeInterval = 0 then throw (.panic "runtime error: integer divide by zero")
  pure ({ s with db, isEmpty := false, lastCommittedBlock := committingBlockNum },
    committingBlockNum % s.purgeInterval = 0)

end Commit

/-! ## `GetPvtDataByBlockNum` -/

def passesFilter (dataKey : DataKey) (filter : Option PvtNsCollFilter) : Bool :=
  match filter with
  | none => true
  | some filter => filter dataKey.ns dataKey.coll

/-- `keyPotentiallyPurged`: the collection has a purge marker at or above the key's height. -/
def DB.keyPotentiallyPurged (db : DB) (k : DataKey) : Bool :=
  match db.purgeMarkerColls.get? ⟨k.ns, k.coll⟩ with
  | none => false
  | some purgeKeyCollMarkerHt => (Height.mk k.blkNum k.txNum).compare purgeKeyCollMarkerHt ≤ 0

def DB.writeNotPurged (db : DB) (computeStringHash : KeyHasher) (k : DataKey) (w : KVWrite) : Bool :=
  match db.purgeMarkers.get? ⟨k.ns, k.coll, computeStringHash w.key⟩ with
  | none => true
  | some purgeMarkerHt => (Height.mk k.blkNum k.txNum).compare purgeMarkerHt > 0

def DB.removePurgedDataFromCollPvtRWset (db : DB) (computeStringHash : KeyHasher) (k : DataKey)
    (v : CollPvtRwSet) : CollPvtRwSet :=
  if !db.keyPotentiallyPurged k then v
  else { v with writes := v.writes.filter (db.writeNotPurged computeStringHash k) }

/-- `txPvtdataAssembler`; `firstCall` holds exactly while `currentNsWSet` is nil. -/
structure TxPvtdataAssembler where
  blockNum : UInt64
  txNum : UInt64
  txWset : List NsPvtRwSet
  currentNsWSet : Option NsPvtRwSet

def newTxPvtdataAssembler (blockNum txNum : UInt64) : TxPvtdataAssembler :=
  ⟨blockNum, txNum, [], none⟩

def TxPvtdataAssembler.add (a : TxPvtdataAssembler) (ns : String) (collPvtWset : CollPvtRwSet) :
    TxPvtdataAssembler :=
  match a.currentNsWSet with
  | none => { a with currentNsWSet := some ⟨ns, [collPvtWset]⟩ }
  | some current =>
    if current.nameSpace ≠ ns then
      { a with txWset := a.txWset ++ [current], currentNsWSet := some ⟨ns, [collPvtWset]⟩ }
    else { a with currentNsWSet := some { current with
      collectionPvtRwset := current.collectionPvtRwset ++ [collPvtWset] } }

def TxPvtdataAssembler.getTxPvtdata (a : TxPvtdataAssembler) : TxPvtData :=
  ⟨a.txNum, a.txWset ++ a.currentNsWSet.toList⟩

def assembleEntry (blockNum : UInt64)
    (acc : List TxPvtData × Option TxPvtdataAssembler) (e : DataKey × CollPvtRwSet) :
    List TxPvtData × Option TxPvtdataAssembler :=
  let (blockPvtdata, current) := acc
  let (blockPvtdata, assembler) := match current with
    | none => (blockPvtdata, newTxPvtdataAssembler blockNum e.1.txNum)
    | some assembler =>
      if e.1.txNum ≠ assembler.txNum then
        (blockPvtdata ++ [assembler.getTxPvtdata], newTxPvtdataAssembler blockNum e.1.txNum)
      else (blockPvtdata, assembler)
  (blockPvtdata, some (assembler.add e.1.ns e.2))

def assembleBlockPvtdata (blockNum : UInt64) (entries : List (DataKey × CollPvtRwSet)) :
    List TxPvtData :=
  let acc := entries.foldl (assembleEntry blockNum) ([], none)
  acc.1 ++ (acc.2.map TxPvtdataAssembler.getTxPvtdata).toList

section Read

variable (btlPolicy : BTLPolicy) (computeStringHash : KeyHasher)

def Store.visibleEntry (s : Store) (filter : Option PvtNsCollFilter) (e : DataKey × CollPvtRwSet) :
    Except String (Option (DataKey × CollPvtRwSet)) := do
  let expired ← isExpired btlPolicy e.1.nsCollBlk s.lastCommittedBlock
  if expired || !passesFilter e.1 filter then pure none
  else pure (some (e.1, s.db.removePurgedDataFromCollPvtRWset computeStringHash e.1 e.2))

def Store.visibleDataEntries (s : Store) (blockNum : UInt64) (filter : Option PvtNsCollFilter) :
    Except String (List (DataKey × CollPvtRwSet)) := do
  let kept ← (s.db.data.scan fun k => !heightLt (k.blkNum, k.txNum) (blockNum, 0) &&
      heightLt (k.blkNum, k.txNum) (blockNum + 1, 0)).mapM
    (s.visibleEntry btlPolicy computeStringHash filter)
  pure kept.reduceOption

/-- `Store.GetPvtDataByBlockNum`. The loop of the source is split into the entries it keeps
and the assembly of those entries into transactions; the purge filter of an entry does not
depend on the assembler, so the split keeps the order of everything the loop does. -/
def Store.getPvtDataByBlockNum (s : Store) (blockNum : UInt64) (filter : Option PvtNsCollFilter) :
    Except String (List TxPvtData) := do
  if s.isEmpty then throw "the store is empty"
  let lastCommittedBlock := s.lastCommittedBlock
  if blockNum > lastCommittedBlock then
    throw ("last committed block number [" ++ toString lastCommittedBlock ++
      "] smaller than the requested block number [" ++ toString blockNum ++ "]")
  let entries ← s.visibleDataEntries btlPolicy computeStringHash blockNum filter
  pure (assembleBlockPvtdata blockNum entries)

end Read

/-! ## `getMissingData` -/

/-- The two groups of eligible missing data that the reconciler asks for. -/
inductive MissingDataGroup where
  | prioritized
  | deprioritized
  deriving DecidableEq, Repr

def DB.missingDataGroup (db : DB) : MissingDataGroup → SortedMap NsCollBlk (Finset ℕ)
  | .prioritized => db.elgPrioMissingData
  | .deprioritized => db.elgDeprioMissingData

/-- `MissingPvtDataInfo.Add`. -/
def MissingPvtDataInfo.add (info : MissingPvtDataInfo) (blkNum txNum : UInt64) (ns coll : String) :
    MissingPvtDataInfo :=
  let missingBlockPvtDataInfo := (info.get? blkNum).getD GoMap.empty
  let txMissing := (missingBlockPvtDataInfo.get? txNum).getD []
  info.insert blkNum (missingBlockPvtDataInfo.insert txNum (txMissing ++ [⟨ns, coll⟩]))

def MissingPvtDataInfo.addBitmap (info : MissingPvtDataInfo) (key : NsCollBlk) (bitmap : Finset ℕ) :
    MissingPvtDataInfo :=
  (bitmap.sort (· ≤ ·)).foldl (fun info index => info.add key.blkNum (UInt64.ofNat index) key.ns key.coll)
    info

structure MissingDataScan where
  missingPvtDataInfo : MissingPvtDataInfo
  numberOfBlockProcessed : ℕ
  lastProcessedBlock : UInt64
  isMaxBlockLimitReached : Bool

section MissingData

variable (btlPolicy : BTLPolicy)

def MissingDataScan.countBlock (st : MissingDataScan) (maxBlock : Int) (blkNum : UInt64) :
    MissingDataScan :=
  if (st.missingPvtDataInfo.get? blkNum).isSome then st
  else
    let numberOfBlockProcessed := st.numberOfBlockProcessed + 1
    if (numberOfBlockProcessed : Int) = maxBlock then
      { st with numberOfBlockProcessed, isMaxBlockLimitReached := true, lastProcessedBlock := blkNum }
    else { st with numberOfBlockProcessed }

def getMissingDataLoop (lastCommittedBlock : UInt64) (maxBlock : Int) :
    MissingDataScan → List (NsCollBlk × Finset ℕ) → Except String MissingPvtDataInfo
  | st, [] => .ok st.missingPvtDataInfo
  | st, (missingDataKey, bitmap) :: rest =>
    if st.isMaxBlockLimitReached && missingDataKey.blkNum != st.lastProcessedBlock then
      .ok st.missingPvtDataInfo
    else match isExpired btlPolicy missingDataKey lastCommittedBlock with
      | .error err => .error err
      | .ok true => getMissingDataLoop lastCommittedBlock maxBlock st rest
      | .ok false =>
        let st := st.countBlock maxBlock missingDataKey.blkNum
        getMissingDataLoop lastCommittedBlock maxBlock
          { st with missingPvtDataInfo := st.missingPvtDataInfo.addBitmap missingDataKey bitmap } rest

/-- `Store.getMissingData`: the iterator runs from `startingBlockNum` down to block 1, the
keys of a group being in decreasing block order. -/
def Store.getMissingData (s : Store) (group : MissingDataGroup) (startingBlockNum : UInt64)
    (maxBlock : Int) : Except String MissingPvtDataInfo :=
  getMissingDataLoop btlPolicy s.lastCommittedBlock maxBlock ⟨GoMap.empty, 0, 0, false⟩
    ((s.db.missingDataGroup group).scan fun k => 0 < k.blkNum && k.blkNum ≤ startingBlockNum)

end MissingData

end FabricPeer.Pvtdatastorage
