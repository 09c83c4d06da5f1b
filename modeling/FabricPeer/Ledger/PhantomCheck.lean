import FabricPeer.Ledger.BlockValidation
import FabricPeer.Ledger.QueryExecutor

/-! # A recorded range query against the state it was simulated on

The simulator records a range query as the range it actually scanned, and the validator scans
that range again, over the committed state overlaid with the block's updates, to look for
phantoms. With no updates the combined iterator is the scan of the committed state. A scan
that was opened but never advanced records no end key, and the validator reads the empty end
key as the end of the namespace: it then sees every key from the start key on.
-/

namespace FabricPeer.Ledger

open GoRun

set_option autoImplicit false

theorem DB.isDelete_of_mem_getStateRangeScanIterator (db : DB) (ns startKey endKey : String)
    (item : VersionedKV) (hMem : item ∈ db.getStateRangeScanIterator ns startKey endKey) :
    item.isDelete = false := by
  simp only [DB.getStateRangeScanIterator, List.mem_map] at hMem
  obtain ⟨_, -, rfl⟩ := hMem
  rfl

theorem DB.getStateRangeScanIterator_ne_nil (db : DB) (ns startKey key : String) (sv : StoredValue)
    (hMem : (key, sv) ∈ db.state ns) (hFrom : startKey ≤ key) :
    db.getStateRangeScanIterator ns startKey "" ≠ [] := by
  have hItem : (⟨ns, key, some sv.value, sv.metadata, sv.version⟩ : VersionedKV) ∈
      db.getStateRangeScanIterator ns startKey "" := by
    simp only [DB.getStateRangeScanIterator, List.mem_map, List.mem_filter]
    exact ⟨(key, sv), ⟨hMem, by simp [hFrom]⟩, rfl⟩
  exact List.ne_nil_of_mem hItem

theorem mergeItems_nil_right (items : List VersionedKV)
    (hLive : ∀ item ∈ items, item.isDelete = false) : mergeItems items [] = items := by
  induction items with
  | nil => simp [mergeItems]
  | cons item items ih =>
    have hItem : item.isDelete = false := hLive item List.mem_cons_self
    rw [mergeItems, ih fun item' hMem => hLive item' (List.mem_cons_of_mem _ hMem)]
    simp [serveItem, hItem]

@[simp] theorem UpdateBatch.getRangeScanIterator_newUpdateBatch (ns startKey endKey : String) :
    UpdateBatch.newUpdateBatch.getRangeScanIterator ns startKey endKey = [] := by
  simp [UpdateBatch.getRangeScanIterator, UpdateBatch.newUpdateBatch, GoMap.keys, GoMap.empty]

theorem combinedIterator_newUpdateBatch (db : DB) (ns startKey endKey : String)
    (includeEndKey : Bool) :
    combinedIterator db .newUpdateBatch ns startKey endKey includeEndKey =
      db.getStateRangeScanIterator ns startKey endKey ++
        serveEndKeyIfNeeded db .newUpdateBatch ns endKey includeEndKey := by
  rw [combinedIterator, UpdateBatch.getRangeScanIterator_newUpdateBatch,
    mergeItems_nil_right _ (db.isDelete_of_mem_getStateRangeScanIterator ns startKey endKey)]

section

variable (hashFunc : HashFunc) (serializeKVReads : List KVRead → Except String Bytes)

theorem recordRangeQuery_zero (db : DB) (ns startKey endKey : String) :
    recordRangeQuery hashFunc serializeKVReads db ns startKey endKey 0 =
      .ok ⟨startKey, "", false, none⟩ := rfl

/-- The validator rejects the range query of a scan that was opened but never advanced,
against the very state it was simulated on, as soon as that state holds a key of the
namespace from the start key on. -/
theorem validateRangeQuery_rejects_unadvanced_scan (db : DB) (ns startKey endKey key : String)
    (sv : StoredValue) (hMem : (key, sv) ∈ db.state ns) (hFrom : startKey ≤ key) :
    recordRangeQuery hashFunc serializeKVReads db ns startKey endKey 0 =
        .ok ⟨startKey, "", false, none⟩ ∧
      validateRangeQuery hashFunc serializeKVReads db ns ⟨startKey, "", false, none⟩
        .newUpdateBatch = .ok false := by
  refine ⟨recordRangeQuery_zero hashFunc serializeKVReads db ns startKey endKey, ?_⟩
  obtain ⟨item, items, hScan⟩ :=
    List.exists_cons_of_ne_nil (db.getStateRangeScanIterator_ne_nil ns startKey key sv hMem hFrom)
  simp only [validateRangeQuery, combinedIterator_newUpdateBatch, RangeQueryInfo.getReadsMerkleHashes,
    rangeQueryResultsValidate, RangeQueryInfo.getRawReads, List.length_nil, if_pos, hScan]
  rfl

end

theorem validateRangeQuery_rejects_unadvanced_scan_from_a :
    recordRangeQuery (fun b => .ok b) (fun _ => .ok []) committedK "cc" "a" "z" 0 =
        .ok ⟨"a", "", false, none⟩ ∧
      validateRangeQuery (fun b => .ok b) (fun _ => .ok []) committedK "cc"
        ⟨"a", "", false, none⟩ .newUpdateBatch = .ok false :=
  validateRangeQuery_rejects_unadvanced_scan (fun b => .ok b) (fun _ => .ok []) committedK "cc" "a"
    "z" "k" ⟨[1], [], ⟨1, 0⟩⟩ (by decide) (by decide)

end FabricPeer.Ledger
