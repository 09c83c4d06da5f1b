import FabricPeer.Pvtdatastorage.Store
import Mathlib.Data.List.ReduceOption

/-! # What `Commit` writes and what `GetPvtDataByBlockNum` returns

The spec lemmas of the store's two entry points for the newest block: an inversion lemma for
`Commit`, which says everything a commit that returns normally does, and a read lemma, which
says that a write of the block comes back from `GetPvtDataByBlockNum` as long as no purge marker
stands for its key and its collection does not expire. The read is described through
`TxPvtData.flatten`, the collections of the returned transactions in order, each with its
transaction and namespace.
-/

namespace FabricPeer.Pvtdatastorage

open FabricPeer.Ledger GoRun KVStore

set_option autoImplicit false

/-! ## `Commit` -/

theorem visitPurgeMarker_fst (blkNum : UInt64)
    (acc : List (PurgeMarkerKey × Height) × List (PurgeMarkerCollKey × Height) ×
      GoMap (String × String) Height) (m : PurgeMarker) :
    (visitPurgeMarker blkNum acc m).1 = acc.1 ++ [(⟨m.ns, m.coll, m.pvtkeyHash⟩, ⟨blkNum, m.txNum⟩)] := by
  simp only [visitPurgeMarker]
  split
  · split <;> rfl
  · rfl

theorem preparePurgerMarkerEntries_fst (blkNum : UInt64) (purgeMarkers : List PurgeMarker) :
    (preparePurgerMarkerEntries blkNum purgeMarkers).1 =
      purgeMarkers.map fun m => (⟨m.ns, m.coll, m.pvtkeyHash⟩, ⟨blkNum, m.txNum⟩) := by
  have hFold : ∀ (ms : List PurgeMarker) acc, (ms.foldl (visitPurgeMarker blkNum) acc).1 =
      acc.1 ++ ms.map fun m => (⟨m.ns, m.coll, m.pvtkeyHash⟩, ⟨blkNum, m.txNum⟩) := by
    intro ms
    induction ms with
    | nil => simp
    | cons m ms ih =>
      intro acc
      rw [List.foldl_cons, ih, visitPurgeMarker_fst, List.map_cons, List.append_assoc]
      rfl
  have hAll := hFold purgeMarkers ([], [], GoMap.empty)
  rw [List.nil_append] at hAll
  exact hAll

section Commit

variable {btlPolicy : BTLPolicy} {computeStringHash : KeyHasher}

theorem prepareStoreEntries_eq_ok {blockNum : UInt64} {pvtData : List TxPvtData}
    {missingPvtData : TxMissingPvtData} {purgeMarkers : List PurgeMarker} {entries : StoreEntries}
    (h : prepareStoreEntries btlPolicy computeStringHash blockNum pvtData missingPvtData
      purgeMarkers = .ok entries) :
    ∃ expiryEntries, prepareExpiryEntries btlPolicy blockNum (prepareDataEntries blockNum pvtData)
        (prepareMissingDataEntries blockNum missingPvtData).1
        (prepareMissingDataEntries blockNum missingPvtData).2 = .ok expiryEntries ∧
      entries = ⟨prepareDataEntries blockNum pvtData,
        prepareHashedIndexEntries computeStringHash (prepareDataEntries blockNum pvtData),
        (preparePurgerMarkerEntries blockNum purgeMarkers).1,
        (preparePurgerMarkerEntries blockNum purgeMarkers).2, expiryEntries,
        (prepareMissingDataEntries blockNum missingPvtData).1,
        (prepareMissingDataEntries blockNum missingPvtData).2⟩ := by
  unfold prepareStoreEntries at h
  simp only at h
  cases hExpiry : prepareExpiryEntries btlPolicy blockNum (prepareDataEntries blockNum pvtData)
      (prepareMissingDataEntries blockNum missingPvtData).1
      (prepareMissingDataEntries blockNum missingPvtData).2 with
  | error err =>
    rw [hExpiry] at h
    cases h
  | ok expiryEntries =>
    rw [hExpiry] at h
    cases h
    exact ⟨expiryEntries, rfl, rfl⟩

theorem btl_of_prepareExpiryEntries {blockNum : UInt64} {dataEntries : List DataEntry}
    {elg inelg : GoMap NsCollBlk (Finset ℕ)} {expiryEntries : List (ExpiryKey × ExpiryData)}
    (h : prepareExpiryEntries btlPolicy blockNum dataEntries elg inelg = .ok expiryEntries)
    (d : DataEntry) (hd : d ∈ dataEntries) : ∃ btl, btlPolicy d.key.ns d.key.coll = .ok btl := by
  unfold prepareExpiryEntries at h
  obtain ⟨m, hm, -⟩ := (bind_eq_ok _ _ _).1 h
  obtain ⟨m', r, hStep⟩ := exists_of_foldlM_eq_ok hm d hd
  unfold prepareExpiryEntriesForPresentData getExpiringBlock at hStep
  cases hBtl : btlPolicy d.key.ns d.key.coll with
  | error err =>
    rw [hBtl] at hStep
    cases hStep
  | ok btl => exact ⟨btl, rfl⟩

theorem mem_prepareDataEntries {blockNum : UInt64} {pvtData : List TxPvtData} {d : DataEntry}
    (h : d ∈ prepareDataEntries blockNum pvtData) :
    d.key.blkNum = blockNum ∧ (∃ tx ∈ pvtData, d.key.txNum = tx.seqInBlock) ∧
      d.value.collectionName = d.key.coll := by
  simp only [prepareDataEntries, List.mem_flatMap, List.mem_map] at h
  obtain ⟨tx, hTx, nsWset, -, c, -, rfl⟩ := h
  exact ⟨rfl, ⟨tx, hTx, rfl⟩, rfl⟩

theorem nextBlockNum_of_isEmpty_eq_false {s : Store} (h : s.isEmpty = false) :
    s.nextBlockNum = s.lastCommittedBlock + 1 := by
  simp [Store.nextBlockNum, h]

theorem prepareStoreEntries_purgeMarkerEntries {blockNum : UInt64} {pvtData : List TxPvtData}
    {missingPvtData : TxMissingPvtData} {purgeMarkers : List PurgeMarker} {entries : StoreEntries}
    (h : prepareStoreEntries btlPolicy computeStringHash blockNum pvtData missingPvtData
      purgeMarkers = .ok entries) :
    entries.purgeMarkerEntries = (preparePurgerMarkerEntries blockNum purgeMarkers).1 := by
  obtain ⟨-, -, rfl⟩ := prepareStoreEntries_eq_ok h
  rfl

theorem Store.commit_eq_ok {s : Store} {blockNum : UInt64} {pvtData : List TxPvtData}
    {missingPvtData : TxMissingPvtData} {purgeMarkers : List PurgeMarker} {s' : Store}
    {scheduled : Bool}
    (h : s.commit btlPolicy computeStringHash blockNum pvtData missingPvtData purgeMarkers =
      .ok (s', scheduled)) :
    blockNum = s.nextBlockNum ∧ s.purgeInterval ≠ 0 ∧ ∃ entries,
      prepareStoreEntries btlPolicy computeStringHash blockNum pvtData missingPvtData
        purgeMarkers = .ok entries ∧
      s' = { s with
        db := { s.db.writeBatch entries.toBatch with lastCommittedBlk := some blockNum }
        isEmpty := false
        lastCommittedBlock := blockNum } ∧
      scheduled = decide (blockNum % s.purgeInterval = 0) := by
  unfold Store.commit at h
  by_cases hNext : s.nextBlockNum = blockNum
  · subst hNext
    cases hEntries : prepareStoreEntries btlPolicy computeStringHash s.nextBlockNum pvtData
        missingPvtData purgeMarkers with
    | error err =>
      simp only [ne_eq, not_true_eq_false, if_false, hEntries] at h
      cases h
    | ok entries =>
      by_cases hZero : s.purgeInterval = 0
      · simp only [ne_eq, not_true_eq_false, if_false, hEntries, hZero, if_true, ofExcept_ok,
          bind_ok] at h
        cases h
      · simp only [ne_eq, not_true_eq_false, if_false, hEntries, hZero, ofExcept_ok, bind_ok] at h
        cases h
        exact ⟨rfl, hZero, entries, rfl, rfl, rfl⟩
  · simp only [ne_eq, hNext, not_false_eq_true, if_true] at h
    cases h

theorem Store.commit_purgeMarkers {s : Store} {blockNum : UInt64} {pvtData : List TxPvtData}
    {missingPvtData : TxMissingPvtData} {purgeMarkers : List PurgeMarker} {s' : Store}
    {scheduled : Bool}
    (h : s.commit btlPolicy computeStringHash blockNum pvtData missingPvtData purgeMarkers =
      .ok (s', scheduled))
    {pk : PurgeMarkerKey} {mh : Height} (hGet : s'.db.purgeMarkers.get? pk = some mh) :
    mh.blockNum = blockNum ∨ s.db.purgeMarkers.get? pk = some mh := by
  obtain ⟨-, -, entries, hEntries, rfl, -⟩ := Store.commit_eq_ok h
  rcases SortedMap.get?_writeBatch_eq_some _ _ hGet with hPut | hOld
  · have hMem : (pk, mh) ∈ (preparePurgerMarkerEntries blockNum purgeMarkers).1 := by
      rw [← prepareStoreEntries_purgeMarkerEntries hEntries]
      simpa [StoreEntries.toBatch] using hPut
    rw [preparePurgerMarkerEntries_fst, List.mem_map] at hMem
    obtain ⟨m, -, hm⟩ := hMem
    cases hm
    exact .inl rfl
  · exact .inr hOld

end Commit

/-! ## `GetPvtDataByBlockNum` -/

def TxPvtData.flatten (tx : TxPvtData) : List (UInt64 × String × CollPvtRwSet) :=
  tx.writeSet.flatMap fun nsWset =>
    nsWset.collectionPvtRwset.map fun c => (tx.seqInBlock, nsWset.nameSpace, c)

/-- The returned private data holds the write `w` in a collection that transaction `txNum`
wrote in namespace `ns`. -/
def ReturnsWrite (result : List TxPvtData) (txNum : UInt64) (ns : String) (w : KVWrite) : Prop :=
  ∃ c, (txNum, ns, c) ∈ result.flatMap TxPvtData.flatten ∧ w ∈ c.writes

def closeAssembly (acc : List TxPvtData × Option TxPvtdataAssembler) : List TxPvtData :=
  acc.1 ++ (acc.2.map TxPvtdataAssembler.getTxPvtdata).toList

theorem flatten_getTxPvtdata_add (a : TxPvtdataAssembler) (ns : String) (c : CollPvtRwSet) :
    (a.add ns c).getTxPvtdata.flatten = a.getTxPvtdata.flatten ++ [(a.txNum, ns, c)] := by
  unfold TxPvtdataAssembler.add
  split
  case h_1 hNone =>
    simp [TxPvtdataAssembler.getTxPvtdata, TxPvtData.flatten, hNone]
  case h_2 current hSome =>
    split_ifs with hNs
    · simp [TxPvtdataAssembler.getTxPvtdata, TxPvtData.flatten, hSome]
    · simp only [not_not] at hNs
      simp [TxPvtdataAssembler.getTxPvtdata, TxPvtData.flatten, hSome, hNs]

@[simp] theorem flatten_getTxPvtdata_new (blockNum txNum : UInt64) :
    (newTxPvtdataAssembler blockNum txNum).getTxPvtdata.flatten = [] := rfl

@[simp] theorem txNum_newTxPvtdataAssembler (blockNum txNum : UInt64) :
    (newTxPvtdataAssembler blockNum txNum).txNum = txNum := rfl

theorem flatten_closeAssembly_assembleEntry (blockNum : UInt64)
    (acc : List TxPvtData × Option TxPvtdataAssembler) (e : DataKey × CollPvtRwSet) :
    (closeAssembly (assembleEntry blockNum acc e)).flatMap TxPvtData.flatten =
      (closeAssembly acc).flatMap TxPvtData.flatten ++ [(e.1.txNum, e.1.ns, e.2)] := by
  obtain ⟨blockPvtdata, current⟩ := acc
  cases current with
  | none => simp [assembleEntry, closeAssembly, flatten_getTxPvtdata_add]
  | some assembler =>
    by_cases hTx : e.1.txNum = assembler.txNum
    · simp [assembleEntry, closeAssembly, flatten_getTxPvtdata_add, hTx]
    · simp [assembleEntry, closeAssembly, flatten_getTxPvtdata_add, hTx]

theorem flatten_assembleBlockPvtdata (blockNum : UInt64) (entries : List (DataKey × CollPvtRwSet)) :
    (assembleBlockPvtdata blockNum entries).flatMap TxPvtData.flatten =
      entries.map fun e => (e.1.txNum, e.1.ns, e.2) := by
  have hFold : ∀ acc, (closeAssembly (entries.foldl (assembleEntry blockNum) acc)).flatMap
      TxPvtData.flatten = (closeAssembly acc).flatMap TxPvtData.flatten ++
        entries.map fun e => (e.1.txNum, e.1.ns, e.2) := by
    induction entries with
    | nil => simp
    | cons e es ih =>
      intro acc
      rw [List.foldl_cons, ih, flatten_closeAssembly_assembleEntry, List.map_cons,
        List.append_assoc]
      rfl
  show (closeAssembly (entries.foldl (assembleEntry blockNum) ([], none))).flatMap
    TxPvtData.flatten = _
  rw [hFold]
  rfl

theorem toNat_add_one_of_lt (b : UInt64) (h : b < maxUint64) : (b + 1).toNat = b.toNat + 1 := by
  have hLt : b.toNat < 2 ^ 64 - 1 := by simpa [maxUint64, UInt64.lt_iff_toNat_lt] using h
  rw [UInt64.toNat_add]
  simp only [UInt64.toNat_one]
  omega

section Read

variable (btlPolicy : BTLPolicy) (computeStringHash : KeyHasher)

theorem isExpired_of_btl (key : NsCollBlk) (latestBlkNum btl : UInt64)
    (hBtl : btlPolicy key.ns key.coll = .ok btl) :
    isExpired btlPolicy key latestBlkNum =
      .ok (decide (computeExpiringBlock key.blkNum btl ≤ latestBlkNum)) := by
  simp only [isExpired, getExpiringBlock, hBtl]
  rfl

theorem not_computeExpiringBlock_le (committingBlock btl : UInt64)
    (h : committingBlock < maxUint64) : ¬ computeExpiringBlock committingBlock btl ≤ committingBlock := by
  unfold computeExpiringBlock
  dsimp only
  split_ifs with hWrap
  · exact UInt64.not_le.2 h
  · exact hWrap

theorem mem_removePurgedDataFromCollPvtRWset (db : DB) (k : DataKey) (v : CollPvtRwSet)
    {w : KVWrite} (hWrite : w ∈ v.writes)
    (hUnmarked : db.purgeMarkers.get? ⟨k.ns, k.coll, computeStringHash w.key⟩ = none) :
    w ∈ (db.removePurgedDataFromCollPvtRWset computeStringHash k v).writes := by
  unfold DB.removePurgedDataFromCollPvtRWset
  split
  · exact hWrite
  · have hKept : db.writeNotPurged computeStringHash k w = true := by
      simp [DB.writeNotPurged, hUnmarked]
    exact List.mem_filter.2 ⟨hWrite, hKept⟩

theorem visibleEntry_isOk (s : Store) (filter : Option PvtNsCollFilter)
    (e : DataKey × CollPvtRwSet) (btl : UInt64) (hBtl : btlPolicy e.1.ns e.1.coll = .ok btl) :
    ∃ r, s.visibleEntry btlPolicy computeStringHash filter e = .ok r := by
  simp only [Store.visibleEntry, isExpired_of_btl btlPolicy e.1.nsCollBlk s.lastCommittedBlock btl hBtl]
  dsimp only [bind, Except.bind]
  split <;> exact ⟨_, rfl⟩

theorem visibleEntry_of_live (s : Store) (e : DataKey × CollPvtRwSet) (btl : UInt64)
    (hBtl : btlPolicy e.1.ns e.1.coll = .ok btl)
    (hLive : ¬ computeExpiringBlock e.1.blkNum btl ≤ s.lastCommittedBlock) :
    s.visibleEntry btlPolicy computeStringHash none e =
      .ok (some (e.1, s.db.removePurgedDataFromCollPvtRWset computeStringHash e.1 e.2)) := by
  simp only [Store.visibleEntry, isExpired_of_btl btlPolicy e.1.nsCollBlk s.lastCommittedBlock btl hBtl]
  simp [DataKey.nsCollBlk, hLive, passesFilter]
  rfl

theorem visibleDataEntries_of_live (s : Store) (blockNum : UInt64) (k : DataKey)
    (v : CollPvtRwSet) (hKnown : ∀ ns coll, ∃ btl, btlPolicy ns coll = .ok btl)
    (hBlock : k.blkNum = blockNum) (hRoom : blockNum < maxUint64)
    (hData : s.db.data.get? k = some v)
    (hLive : ∀ btl, btlPolicy k.ns k.coll = .ok btl →
      ¬ computeExpiringBlock blockNum btl ≤ s.lastCommittedBlock) :
    ∃ entries, s.visibleDataEntries btlPolicy computeStringHash blockNum none = .ok entries ∧
      (k, s.db.removePurgedDataFromCollPvtRWset computeStringHash k v) ∈ entries := by
  let inBlock : DataKey → Bool := fun k => !heightLt (k.blkNum, k.txNum) (blockNum, 0) &&
    heightLt (k.blkNum, k.txNum) (blockNum + 1, 0)
  obtain ⟨kept, hKept, hMem⟩ := mapM_eq_ok_of_forall
    (Store.visibleEntry btlPolicy computeStringHash s none) (s.db.data.scan inBlock) fun e _ => by
      obtain ⟨btl, hBtl⟩ := hKnown e.1.ns e.1.coll
      exact visibleEntry_isOk btlPolicy computeStringHash s none e btl hBtl
  refine ⟨kept.reduceOption, by simp only [Store.visibleDataEntries]; rw [hKept]; rfl, ?_⟩
  have hInBlock : inBlock k = true := by
    have hNext : blockNum.toNat + 1 = (blockNum + 1).toNat := (toNat_add_one_of_lt blockNum hRoom).symm
    simp [inBlock, heightLt, hBlock, UInt64.lt_iff_toNat_lt, ← hNext]
  have hScan : (k, v) ∈ s.db.data.scan inBlock := (SortedMap.mem_scan _ _ _ _).2 ⟨hData, hInBlock⟩
  obtain ⟨btl, hBtl⟩ := hKnown k.ns k.coll
  have hVisible := visibleEntry_of_live btlPolicy computeStringHash s (k, v) btl hBtl
    (hBlock ▸ hLive btl hBtl)
  exact List.reduceOption_mem_iff.2 (hMem _ hScan _ hVisible)

theorem getPvtDataByBlockNum_returnsWrite (s : Store) (blockNum : UInt64) (k : DataKey)
    (c : CollPvtRwSet) (w : KVWrite) (hKnown : ∀ ns coll, ∃ btl, btlPolicy ns coll = .ok btl)
    (hEmpty : s.isEmpty = false) (hLast : s.lastCommittedBlock = blockNum)
    (hRoom : blockNum < maxUint64) (hBlock : k.blkNum = blockNum)
    (hData : s.db.data.get? k = some c) (hWrite : w ∈ c.writes)
    (hUnmarked : s.db.purgeMarkers.get? ⟨k.ns, k.coll, computeStringHash w.key⟩ = none) :
    ∃ result, s.getPvtDataByBlockNum btlPolicy computeStringHash blockNum none = .ok result ∧
      ReturnsWrite result k.txNum k.ns w := by
  have hLive : ∀ btl, btlPolicy k.ns k.coll = .ok btl →
      ¬ computeExpiringBlock blockNum btl ≤ s.lastCommittedBlock := by
    intro btl _
    rw [hLast]
    exact not_computeExpiringBlock_le blockNum btl hRoom
  obtain ⟨entries, hEntries, hMem⟩ :=
    visibleDataEntries_of_live btlPolicy computeStringHash s blockNum k c hKnown hBlock hRoom hData
      hLive
  refine ⟨assembleBlockPvtdata blockNum entries, ?_, ?_⟩
  · simp [Store.getPvtDataByBlockNum, hEmpty, hLast, hEntries]
  · refine ⟨s.db.removePurgedDataFromCollPvtRWset computeStringHash k c, ?_,
      mem_removePurgedDataFromCollPvtRWset computeStringHash s.db k c hWrite hUnmarked⟩
    rw [flatten_assembleBlockPvtdata]
    exact List.mem_map.2 ⟨_, hMem, rfl⟩

end Read

end FabricPeer.Pvtdatastorage
