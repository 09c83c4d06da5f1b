import FabricPeer.Ledger.CombinedIterator
import FabricPeer.Lib.SortedMap

/-! # The combined iterator serves the range of the updated state

Both scans that `newCombinedIterator` opens list each key of their range once and in increasing
order: the committed state because it is kept sorted, the batch because `nsIterator` sorts its
keys and cuts the range out of them with `sort.SearchStrings` (`pairwise_getRangeScanIterator`).
Over two such lists, `Next` serves an item of the batch, or one of the state whose key the batch
does not hold, and never a delete (`mem_mergeItems_iff`), in key order. So the iterator serves the
range of the state the batch overlays, and then the end key (`combinedIterator_serves_overlay`).
-/

namespace FabricPeer.Ledger

open GoRun KVStore

set_option autoImplicit false

/-- A key of the range from `startKey` up to `endKey`, which bounds nothing when it is empty. -/
def InRange (startKey endKey key : String) : Prop :=
  startKey ≤ key ∧ (endKey = "" ∨ key < endKey)

instance (startKey endKey key : String) : Decidable (InRange startKey endKey key) :=
  inferInstanceAs (Decidable (_ ∧ _))

def versionedKV (ns key : String) (vv : VersionedValue) : VersionedKV :=
  ⟨ns, key, vv.value, vv.metadata, vv.version⟩

/-- What a key reads in the state that the batch overlays: the batch's entry, a delete included,
and else the committed value. -/
def overlayItem (db : DB) (updates : UpdateBatch) (ns key : String) : Option VersionedKV :=
  ((updates.get ns key).or (db.getState ns key)).map (versionedKV ns key)

theorem key_of_map_versionedKV {ns key : String} {o : Option VersionedValue} {item : VersionedKV}
    (h : o.map (versionedKV ns key) = some item) : item.key = key := by
  obtain ⟨vv, -, rfl⟩ := Option.map_eq_some_iff.1 h
  rfl

section Scans

theorem searchStrings_empty (l : List String) : UpdateBatch.searchStrings l "" = 0 := by
  cases l with
  | nil => rfl
  | cons a l =>
    have hNot : ¬ a < "" := by
      rw [String.lt_iff_toList_lt]
      exact List.not_lt_nil _
    rw [UpdateBatch.searchStrings, List.takeWhile_cons_of_neg (by simpa using hNot)]
    rfl

theorem sortedKeys_spec (batch : UpdateBatch) (ns : String) :
    let sortedKeys := ((batch.updates.keys.filter (·.1 = ns)).map (·.2)).mergeSort
      (fun a b => decide (a ≤ b))
    sortedKeys.Pairwise (· < ·) ∧ ∀ key, key ∈ sortedKeys ↔ (batch.get ns key).isSome := by
  intro sortedKeys
  have hNodup : ((batch.updates.keys.filter (·.1 = ns)).map (·.2)).Nodup := by
    apply ((GoMap.nodup_keys _).filter _).map_on
    intro p hp q hq hEq
    simp only [List.mem_filter, decide_eq_true_eq] at hp hq
    exact Prod.ext (hp.2.trans hq.2.symm) hEq
  have hSorted : sortedKeys.Pairwise fun a b => decide (a ≤ b) = true :=
    List.pairwise_mergeSort
      (fun a b c hab hbc => by
        rw [decide_eq_true_eq] at hab hbc ⊢
        exact le_trans hab hbc)
      (fun a b => by simpa using le_total a b) _
  refine ⟨?_, fun key => ?_⟩
  · apply (hSorted.and ((List.mergeSort_perm _ _).nodup_iff.2 hNodup)).imp
    rintro a b ⟨hLe, hNe⟩
    exact lt_of_le_of_ne (by simpa using hLe) hNe
  · simp only [sortedKeys, List.mem_mergeSort, List.mem_map, List.mem_filter, decide_eq_true_eq]
    rw [UpdateBatch.get, ← GoMap.mem_keys]
    constructor
    · rintro ⟨⟨ns', key'⟩, ⟨hMem, rfl⟩, rfl⟩
      exact hMem
    · intro hMem
      exact ⟨(ns, key), ⟨hMem, rfl⟩, rfl⟩

theorem mem_getRangeScanIterator (batch : UpdateBatch) (ns startKey endKey : String)
    (item : VersionedKV) :
    item ∈ batch.getRangeScanIterator ns startKey endKey ↔
      InRange startKey endKey item.key ∧ (batch.get ns item.key).map (versionedKV ns item.key) = some item := by
  obtain ⟨hSorted, hKeys⟩ := sortedKeys_spec batch ns
  dsimp only [UpdateBatch.getRangeScanIterator]
  generalize ((batch.updates.keys.filter (·.1 = ns)).map (·.2)).mergeSort
    (fun a b => decide (a ≤ b)) = sortedKeys at hSorted hKeys ⊢
  have hWindow : ∀ key, key ∈ ((sortedKeys.take (if endKey = "" then sortedKeys.length
      else UpdateBatch.searchStrings sortedKeys endKey)).drop (if startKey = "" then 0
      else UpdateBatch.searchStrings sortedKeys startKey)) ↔
      key ∈ sortedKeys ∧ InRange startKey endKey key := by
    intro key
    have hStart : (if startKey = "" then 0 else UpdateBatch.searchStrings sortedKeys startKey) =
        UpdateBatch.searchStrings sortedKeys startKey := by
      split
      · subst startKey
        rw [searchStrings_empty]
      · rfl
    rw [hStart, UpdateBatch.searchStrings, SortedMap.mem_drop_take_iff hSorted, InRange]
    split
    · rename_i hEnd
      rw [List.take_length]
      simp only [hEnd, true_or, and_true]
    · rename_i hEnd
      rw [UpdateBatch.searchStrings, SortedMap.take_length_takeWhile,
        SortedMap.mem_takeWhile_lt_iff hSorted]
      simp only [hEnd, false_or]
      tauto
  rw [List.mem_filterMap]
  constructor
  · rintro ⟨key, hKey, hGet⟩
    obtain rfl := key_of_map_versionedKV hGet
    exact ⟨((hWindow _).1 hKey).2, hGet⟩
  · rintro ⟨hRange, hGet⟩
    have hSome : (batch.get ns item.key).isSome := by
      cases hB : batch.get ns item.key
      · rw [hB] at hGet
        cases hGet
      · rfl
    exact ⟨item.key, (hWindow _).2 ⟨(hKeys _).2 hSome, hRange⟩, hGet⟩

theorem pairwise_getRangeScanIterator (batch : UpdateBatch) (ns startKey endKey : String) :
    (batch.getRangeScanIterator ns startKey endKey).Pairwise fun a b => a.key < b.key := by
  obtain ⟨hSorted, -⟩ := sortedKeys_spec batch ns
  dsimp only [UpdateBatch.getRangeScanIterator]
  apply List.Pairwise.filterMap _ _ (hSorted.sublist ((List.drop_sublist _ _).trans
    (List.take_sublist _ _)))
  intro a a' hLt b hb b' hb'
  rw [key_of_map_versionedKV hb, key_of_map_versionedKV hb']
  exact hLt

theorem mem_getStateRangeScanIterator (db : DB) (ns startKey endKey : String) (item : VersionedKV) :
    item ∈ db.getStateRangeScanIterator ns startKey endKey ↔
      InRange startKey endKey item.key ∧ (db.getState ns item.key).map (versionedKV ns item.key) = some item := by
  rw [DB.getStateRangeScanIterator, List.mem_map]
  constructor
  · rintro ⟨⟨key, sv⟩, hMem, rfl⟩
    rw [List.mem_filter, decide_eq_true_iff] at hMem
    refine ⟨hMem.2, ?_⟩
    rw [DB.getState, (SortedMap.lookup_eq_some_iff (db.sorted ns) key sv).2 hMem.1]
    rfl
  · rintro ⟨hRange, hGet⟩
    obtain ⟨vv, hvv, hItem⟩ := Option.map_eq_some_iff.1 hGet
    obtain ⟨sv, hsv, rfl⟩ := Option.map_eq_some_iff.1 hvv
    rw [SortedMap.lookup_eq_some_iff (db.sorted ns)] at hsv
    refine ⟨(item.key, sv), List.mem_filter.2 ⟨hsv, decide_eq_true hRange⟩, ?_⟩
    rw [← hItem]
    rfl

theorem pairwise_getStateRangeScanIterator (db : DB) (ns startKey endKey : String) :
    (db.getStateRangeScanIterator ns startKey endKey).Pairwise fun a b => a.key < b.key := by
  rw [DB.getStateRangeScanIterator, List.pairwise_map]
  exact (db.sorted ns).filter _

end Scans

section Merge

theorem mem_serveItem {item x : VersionedKV} {rest : List VersionedKV} :
    x ∈ serveItem item rest ↔ (x = item ∧ item.isDelete = false) ∨ x ∈ rest := by
  unfold serveItem
  cases item.isDelete <;> simp

theorem pairwise_serveItem {item : VersionedKV} {rest : List VersionedKV}
    (hLt : ∀ x ∈ rest, item.key < x.key) (hRest : rest.Pairwise fun a b => a.key < b.key) :
    (serveItem item rest).Pairwise fun a b => a.key < b.key := by
  unfold serveItem
  split
  · exact hRest
  · exact List.Pairwise.cons hLt hRest

theorem lt_key_of_lt_head {k : String} {u : VersionedKV} {us : List VersionedKV}
    (hSorted : (u :: us).Pairwise fun a b => a.key < b.key) (h : k < u.key) :
    ∀ x ∈ u :: us, k < x.key := by
  intro x hx
  rw [List.pairwise_cons] at hSorted
  rcases List.mem_cons.1 hx with rfl | hx
  · exact h
  · exact h.trans (hSorted.1 x hx)

variable {A B : List VersionedKV} (hA : A.Pairwise fun a b => a.key < b.key)
  (hB : B.Pairwise fun a b => a.key < b.key)
include hA hB

theorem mem_mergeItems_iff (item : VersionedKV) :
    item ∈ mergeItems A B ↔
      item.isDelete = false ∧ (item ∈ B ∨ item ∈ A ∧ ∀ u ∈ B, u.key ≠ item.key) := by
  fun_induction mergeItems A B with
  | case1 => simp
  | case2 d ds ih =>
    rw [List.pairwise_cons] at hA
    rw [mem_serveItem, ih hA.2 hB]
    grind
  | case3 u us ih =>
    rw [List.pairwise_cons] at hB
    rw [mem_serveItem, ih hA hB.2]
    grind
  | case4 d ds u us hc ih =>
    have hFresh : ∀ v ∈ u :: us, v.key ≠ d.key :=
      fun v hv => ne_of_gt (lt_key_of_lt_head hB (compare_lt_iff_lt.1 hc) v hv)
    rw [List.pairwise_cons] at hA
    rw [mem_serveItem, ih hA.2 hB]
    grind
  | case5 d ds u us hc ih =>
    have hEq := compare_eq_iff_eq.1 hc
    rw [List.pairwise_cons] at hA hB
    have hPast : ∀ x ∈ ds, u.key ≠ x.key := fun x hx => ne_of_lt (hEq ▸ hA.1 x hx)
    rw [mem_serveItem, ih hA.2 hB.2]
    grind
  | case6 d ds u us hc ih =>
    have hPast : ∀ x ∈ d :: ds, u.key ≠ x.key :=
      fun x hx => ne_of_lt (lt_key_of_lt_head hA (compare_gt_iff_gt.1 hc) x hx)
    rw [List.pairwise_cons] at hB
    rw [mem_serveItem, ih hA hB.2]
    grind

theorem lt_key_of_mem_mergeItems {k : String} (hkA : ∀ x ∈ A, k < x.key) (hkB : ∀ x ∈ B, k < x.key) :
    ∀ x ∈ mergeItems A B, k < x.key := by
  intro x hx
  obtain ⟨-, hIn | ⟨hIn, -⟩⟩ := (mem_mergeItems_iff hA hB x).1 hx
  · exact hkB x hIn
  · exact hkA x hIn

theorem pairwise_mergeItems : (mergeItems A B).Pairwise fun a b => a.key < b.key := by
  fun_induction mergeItems A B with
  | case1 => exact .nil
  | case2 d ds ih =>
    rw [List.pairwise_cons] at hA
    exact pairwise_serveItem (lt_key_of_mem_mergeItems hA.2 hB hA.1 (by simp)) (ih hA.2 hB)
  | case3 u us ih =>
    rw [List.pairwise_cons] at hB
    exact pairwise_serveItem (lt_key_of_mem_mergeItems hA hB.2 (by simp) hB.1) (ih hA hB.2)
  | case4 d ds u us hc ih =>
    have hBelow := lt_key_of_lt_head hB (compare_lt_iff_lt.1 hc)
    rw [List.pairwise_cons] at hA
    exact pairwise_serveItem (lt_key_of_mem_mergeItems hA.2 hB hA.1 hBelow) (ih hA.2 hB)
  | case5 d ds u us hc ih =>
    have hEq := compare_eq_iff_eq.1 hc
    rw [List.pairwise_cons] at hA hB
    exact pairwise_serveItem
      (lt_key_of_mem_mergeItems hA.2 hB.2 (fun x hx => hEq ▸ hA.1 x hx) hB.1) (ih hA.2 hB.2)
  | case6 d ds u us hc ih =>
    have hBelow := lt_key_of_lt_head hA (compare_gt_iff_gt.1 hc)
    rw [List.pairwise_cons] at hB
    exact pairwise_serveItem (lt_key_of_mem_mergeItems hA hB.2 hBelow hB.1) (ih hA hB.2)

end Merge

theorem mem_mergeItems_scans (db : DB) (updates : UpdateBatch) (ns startKey endKey : String)
    (item : VersionedKV) :
    item ∈ mergeItems (db.getStateRangeScanIterator ns startKey endKey)
        (updates.getRangeScanIterator ns startKey endKey) ↔
      InRange startKey endKey item.key ∧ overlayItem db updates ns item.key = some item ∧
        item.isDelete = false := by
  rw [mem_mergeItems_iff (pairwise_getStateRangeScanIterator db ns startKey endKey)
    (pairwise_getRangeScanIterator updates ns startKey endKey), mem_getRangeScanIterator,
    mem_getStateRangeScanIterator, overlayItem]
  cases hGet : updates.get ns item.key with
  | none =>
    have hNotInBatch : ∀ u ∈ updates.getRangeScanIterator ns startKey endKey, u.key ≠ item.key := by
      intro u hu hKey
      rw [mem_getRangeScanIterator, hKey, hGet] at hu
      cases hu.2
    simp only [Option.map_none, reduceCtorEq, and_false, Option.none_or, false_or]
    constructor
    · rintro ⟨hDel, hState, -⟩
      exact ⟨hState.1, hState.2, hDel⟩
    · rintro ⟨hRange, hState, hDel⟩
      exact ⟨hDel, ⟨hRange, hState⟩, hNotInBatch⟩
  | some vv =>
    simp only [Option.some_or, Option.map_some]
    constructor
    · rintro ⟨hDel, hBatch | ⟨hState, hNotInBatch⟩⟩
      · exact ⟨hBatch.1, hBatch.2, hDel⟩
      · refine absurd rfl (hNotInBatch (versionedKV ns item.key vv) ?_)
        rw [mem_getRangeScanIterator]
        show InRange startKey endKey item.key ∧
          (updates.get ns item.key).map (versionedKV ns item.key) = some (versionedKV ns item.key vv)
        rw [hGet]
        exact ⟨hState.1, rfl⟩
    · rintro ⟨hRange, hItem, hDel⟩
      exact ⟨hDel, .inl ⟨hRange, hItem⟩⟩

theorem serveItem_endKey (ns endKey : String) (vv : VersionedValue) :
    serveItem ⟨ns, endKey, vv.value, [], vv.version⟩ [] =
      (((some (versionedKV ns endKey vv)).filter fun item => !item.isDelete).map
        fun item => { item with metadata := [] }).toList := by
  cases hValue : vv.value <;> simp [serveItem, versionedKV, VersionedKV.isDelete, Option.filter, hValue]

theorem serveEndKeyIfNeeded_eq (db : DB) (updates : UpdateBatch) (ns endKey : String)
    (includeEndKey : Bool) :
    serveEndKeyIfNeeded db updates ns endKey includeEndKey =
      if includeEndKey then
        (((overlayItem db updates ns endKey).filter fun item => !item.isDelete).map
          fun item => { item with metadata := [] }).toList
      else [] := by
  cases includeEndKey with
  | false => rfl
  | true =>
    simp only [serveEndKeyIfNeeded, Bool.not_true, Bool.false_eq_true, if_false, if_true,
      overlayItem]
    cases updates.get ns endKey with
    | some vv => exact serveItem_endKey ns endKey vv
    | none =>
      cases db.getState ns endKey with
      | none => rfl
      | some vv => exact serveItem_endKey ns endKey vv

/-- `newCombinedIterator` followed by `Next` until nil serves, in strictly increasing key order,
the items of the range that the state with the batch laid over it holds and that are no deletes,
then the end key when it is to be included and the overlay holds it undeleted. -/
theorem combinedIterator_serves_overlay (db : DB) (updates : UpdateBatch)
    (ns startKey endKey : String) (includeEndKey : Bool) :
    ∃ served, combinedIterator db updates ns startKey endKey includeEndKey =
        served ++ (if includeEndKey then
          (((overlayItem db updates ns endKey).filter fun item => !item.isDelete).map
            fun item => { item with metadata := [] }).toList
        else []) ∧
      served.Pairwise (fun a b => a.key < b.key) ∧
      ∀ item, item ∈ served ↔ InRange startKey endKey item.key ∧
        overlayItem db updates ns item.key = some item ∧ item.isDelete = false := by
  refine ⟨_, by rw [combinedIterator, serveEndKeyIfNeeded_eq], ?_, mem_mergeItems_scans db updates ns
    startKey endKey⟩
  exact pairwise_mergeItems (pairwise_getStateRangeScanIterator db ns startKey endKey)
    (pairwise_getRangeScanIterator updates ns startKey endKey)

end FabricPeer.Ledger
