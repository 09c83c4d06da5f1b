import FabricPeer.Pvtdatastorage.Reconcile

/-! # The missing-data bitmaps after `CommitPvtDataOfOldBlocks`

The pass over the reconciled data clears a transaction's bit only where it is set. The pass over
the unreconciled list tests nothing but the presence of a prioritized bitmap for the block: it
clears the transaction's bit there and sets it in the deprioritized bitmap, whether or not the
bit was set. A transaction whose private data the store holds, because it was never missing or
because the same call reconciles it, then ends with its bit set in the deprioritized bitmap.
-/

namespace FabricPeer.Pvtdatastorage

open FabricPeer.Ledger GoRun KVStore

set_option autoImplicit false

def DeprioMarked (e : EntriesForPvtDataOfOldBlocks) (key : NsCollBlk) (tx : ℕ) : Prop :=
  ∃ bitmap, e.deprioritizedMissingDataEntries.get? key = some bitmap ∧ tx ∈ bitmap

theorem key_missingDataOp (entry : NsCollBlk × Finset ℕ) : (missingDataOp entry).key = entry.1 := by
  unfold missingDataOp
  split <;> rfl

section Priority

variable (db : DB)

theorem getPrioMissingDataFromEntriesOrStore_isSome (e : EntriesForPvtDataOfOldBlocks)
    {key : NsCollBlk} (hPrio : (db.elgPrioMissingData.get? key).isSome) :
    (getPrioMissingDataFromEntriesOrStore db e key).isSome := by
  unfold getPrioMissingDataFromEntriesOrStore
  split
  · rfl
  · exact hPrio

theorem deprioMarked_reflectPriority (e : EntriesForPvtDataOfOldBlocks) (key : NsCollBlk) (tx : ℕ)
    (hPrio : (getPrioMissingDataFromEntriesOrStore db e key).isSome) :
    DeprioMarked (reflectPriority db e key tx) key tx := by
  obtain ⟨prio, hGet⟩ := Option.isSome_iff_exists.1 hPrio
  unfold reflectPriority
  rw [hGet]
  exact ⟨_, GoMap.get?_insert_self _ _ _, Finset.mem_insert_self _ _⟩

theorem DeprioMarked.reflectPriority {e : EntriesForPvtDataOfOldBlocks} {key : NsCollBlk} {tx : ℕ}
    (h : DeprioMarked e key tx) (key' : NsCollBlk) (tx' : ℕ) :
    DeprioMarked (Pvtdatastorage.reflectPriority db e key' tx') key tx := by
  obtain ⟨bitmap, hGet, hMem⟩ := h
  unfold Pvtdatastorage.reflectPriority
  split
  · exact ⟨bitmap, hGet, hMem⟩
  · by_cases hKey : key = key'
    · subst hKey
      refine ⟨_, GoMap.get?_insert_self _ _ _, Finset.mem_insert_of_mem ?_⟩
      simpa [getDeprioMissingDataFromEntriesOrStore, hGet] using hMem
    · exact ⟨bitmap, by rw [GoMap.get?_insert_of_ne _ _ hKey]; exact hGet, hMem⟩

theorem deprioMarked_prepareMissingDataEntriesToReflectPriority (e : EntriesForPvtDataOfOldBlocks)
    (deprioritizedList : MissingPvtDataInfo) {key : NsCollBlk} {tx : ℕ}
    (hPrio : (db.elgPrioMissingData.get? key).isSome)
    (h : DeprioMarked e key tx ∨ (key, tx) ∈ deprioritizedList.flatten) :
    DeprioMarked (prepareMissingDataEntriesToReflectPriority db e deprioritizedList) key tx := by
  unfold prepareMissingDataEntriesToReflectPriority
  generalize deprioritizedList.flatten = entries at h
  induction entries generalizing e with
  | nil => exact h.resolve_right List.not_mem_nil
  | cons entry entries ih =>
    rw [List.foldl_cons]
    apply ih
    rcases h with hMarked | hMem
    · exact .inl (hMarked.reflectPriority db entry.1 entry.2)
    · rcases List.mem_cons.1 hMem with rfl | hRest
      · exact .inl (deprioMarked_reflectPriority db e _ _
          (getPrioMissingDataFromEntriesOrStore_isSome db e hPrio))
      · exact .inr hRest

end Priority

theorem get?_elgDeprioMissingData_constructDBUpdateBatch (db : DB) {e : EntriesForPvtDataOfOldBlocks}
    {key : NsCollBlk} {tx : ℕ} (h : DeprioMarked e key tx) :
    ∃ bitmap, (db.writeBatch e.constructDBUpdateBatch).elgDeprioMissingData.get? key = some bitmap ∧
      tx ∈ bitmap := by
  obtain ⟨bitmap, hGet, hMem⟩ := h
  have hEntry : (key, bitmap) ∈ e.deprioritizedMissingDataEntries.entries :=
    (GoMap.mem_entries _ _).2 hGet
  have hNodup : ((e.deprioritizedMissingDataEntries.entries.map missingDataOp).map BatchOp.key).Nodup := by
    rw [List.map_map, show BatchOp.key ∘ missingDataOp = Prod.fst from funext key_missingDataOp,
      GoMap.map_fst_entries]
    exact GoMap.nodup_keys _
  have hBatch := SortedMap.get?_writeBatch_of_mem_nodup db.elgDeprioMissingData hNodup
    (List.mem_map_of_mem hEntry)
  have hPut : missingDataOp (key, bitmap) = .put key bitmap :=
    if_neg (Finset.ne_empty_of_mem hMem)
  rw [hPut] at hBatch
  exact ⟨bitmap, hBatch, hMem⟩

theorem commitPvtDataOfOldBlocks_eq_ok {btlPolicy : BTLPolicy} {computeStringHash : KeyHasher}
    {db db' : DB} {blocksPvtData : GoMap UInt64 (List TxPvtData)}
    {unreconciledMissingData : MissingPvtDataInfo}
    (hCommit : db.commitPvtDataOfOldBlocks btlPolicy computeStringHash blocksPvtData
      unreconciledMissingData = .ok db') :
    ∃ e, prepareDataAndExpiryEntries db btlPolicy .empty blocksPvtData = .ok e ∧
      db' = db.writeBatch (prepareMissingDataEntriesToReflectPriority db
        (prepareMissingDataEntriesToReflectReconciledData db
          (e.prepareHashedIndexEntries computeStringHash)) unreconciledMissingData).constructDBUpdateBatch := by
  unfold DB.commitPvtDataOfOldBlocks at hCommit
  cases hPrepare : prepareDataAndExpiryEntries db btlPolicy .empty blocksPvtData with
  | error err =>
    rw [hPrepare] at hCommit
    cases hCommit
  | ok e =>
    rw [hPrepare] at hCommit
    exact ⟨e, rfl, (Except.ok.inj hCommit).symm⟩

/-- An entry of the unreconciled list of a block with a prioritized bitmap is marked missing in
the deprioritized bitmap after the call, whatever the store held for it: a transaction whose
private data is stored keeps it and is marked missing too. -/
theorem commitPvtDataOfOldBlocks_marks_stored_data_missing {btlPolicy : BTLPolicy}
    {computeStringHash : KeyHasher} {db db' : DB} {blocksPvtData : GoMap UInt64 (List TxPvtData)}
    {unreconciledMissingData : MissingPvtDataInfo}
    (hCommit : db.commitPvtDataOfOldBlocks btlPolicy computeStringHash blocksPvtData
      unreconciledMissingData = .ok db')
    {dataKey : DataKey} {v : CollPvtRwSet} (hStored : db.data.get? dataKey = some v)
    (hEntry : (dataKey.nsCollBlk, dataKey.txNum.toNat) ∈ unreconciledMissingData.flatten)
    (hPrio : (db.elgPrioMissingData.get? dataKey.nsCollBlk).isSome) :
    (db'.data.get? dataKey).isSome ∧
      ∃ bitmap, db'.elgDeprioMissingData.get? dataKey.nsCollBlk = some bitmap ∧
        dataKey.txNum.toNat ∈ bitmap := by
  obtain ⟨e, -, rfl⟩ := commitPvtDataOfOldBlocks_eq_ok hCommit
  constructor
  · show (db.data.writeBatch (List.map _ _)).get? dataKey |>.isSome
    rw [SortedMap.get?_writeBatch_puts, hStored]
    cases (List.lookup dataKey _) <;> rfl
  · exact get?_elgDeprioMissingData_constructDBUpdateBatch db
      (deprioMarked_prepareMissingDataEntriesToReflectPriority db _ _ hPrio (.inr hEntry))

theorem commitPvtDataOfOldBlocks_marks_never_missing_tx :
    ∃ store scheduled db',
      (Store.init 1).commit (fun _ _ => .ok maxUint64) id 0
        [⟨0, [⟨"ns", [⟨"coll", [⟨"k", false, [1]⟩]⟩]⟩]⟩] ⟨[(1, [⟨"ns", "coll", true⟩])]⟩ [] =
        .ok (store, scheduled) ∧
      store.db.commitPvtDataOfOldBlocks (fun _ _ => .ok maxUint64) id GoMap.empty
        ⟨[(0, ⟨[(0, [⟨"ns", "coll"⟩])]⟩)]⟩ = .ok db' ∧
      (db'.data.get? ⟨"ns", "coll", 0, 0⟩).isSome ∧
      ∃ bitmap, db'.elgDeprioMissingData.get? ⟨"ns", "coll", 0⟩ = some bitmap ∧ 0 ∈ bitmap := by
  refine ⟨_, _, ?db', rfl, ?hOld, ?main⟩
  case main =>
    refine commitPvtDataOfOldBlocks_marks_stored_data_missing ?hOld
      (v := ⟨"coll", [⟨"k", false, [1]⟩]⟩) ?_ ?_ ?_
    · rfl
    · decide
    · decide
  case hOld => rfl

end FabricPeer.Pvtdatastorage
