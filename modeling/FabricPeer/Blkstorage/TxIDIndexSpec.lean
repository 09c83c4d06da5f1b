import FabricPeer.Blkstorage.TxIDIndex
import FabricPeer.Lib.Destutter
import FabricPeer.Lib.SubStore

/-! # The transaction ids of the block index: keys, reads and the snapshot

The range of an id holds the keys of that id and no others (`contains_constructTxIDKey_iff`):
the length of the id, in a prefix-free encoding, ends where the id starts, and ids of one length
differ within it. `retrieveTxID` reads the id back from any of its keys, and the keys of one id
are in the order of their heights, so `getTxIDVal` finds the entry of the least height.

Over the whole index the keys order the ids shorter first and by bytes at one length, so the
keys of one id stand together and the empty id, if present, comes first. `exportUniqueTxIDs`
starts from the empty id as its previous one: it writes every other id exactly once, in index
order, and never the empty id. The import puts back exactly the ids written.
-/

namespace FabricPeer.Blkstorage

open FabricPeer.Ledger FabricPeer.Snapshot ByteOrder KVStore GoRun

set_option autoImplicit false

section Keys

theorem startKey_constructTxIDRangeScan (txID : Bytes) : (constructTxIDRangeScan txID).startKey =
    txIDIdxKeyPrefix :: (encodeOrderPreservingVarUint64 (UInt64.ofNat txID.length) ++ txID) := by
  simp [constructTxIDRangeScan]

theorem stopKey_constructTxIDRangeScan (txID : Bytes) :
    (constructTxIDRangeScan txID).stopKey = (constructTxIDRangeScan txID).startKey ++ [0xff] := rfl

theorem constructTxIDKey_eq_startKey_append (txID : Bytes) (b t : UInt64) :
    constructTxIDKey txID b t = (constructTxIDRangeScan txID).startKey ++ (Height.mk b t).toBytes := by
  simp [constructTxIDKey, constructTxIDRangeScan, Height.toBytes]

theorem eq_of_startKey_prefix {x y k : Bytes} (hx : x.length < 2 ^ 64) (hy : y.length < 2 ^ 64)
    (hX : (constructTxIDRangeScan x).startKey <+: k) (hY : (constructTxIDRangeScan y).startKey <+: k) :
    x = y := by
  rw [startKey_constructTxIDRangeScan] at hX hY
  obtain ⟨rx, hrx⟩ := hX
  obtain ⟨ry, hry⟩ := hY
  rw [← hry, List.cons_append, List.cons_append, List.cons.injEq, List.append_assoc,
    List.append_assoc] at hrx
  have hSame := hrx.2
  have hLen : UInt64.ofNat x.length = UInt64.ofNat y.length := by
    have hFront : encodeOrderPreservingVarUint64 (UInt64.ofNat y.length) <+:
        encodeOrderPreservingVarUint64 (UInt64.ofNat x.length) ++ (x ++ rx) := by
      rw [hSame]
      exact List.prefix_append _ _
    rcases List.prefix_or_prefix_of_prefix (List.prefix_append _ _) hFront with h | h
    · exact encodeOrderPreservingVarUint64_prefix_free h
    · exact (encodeOrderPreservingVarUint64_prefix_free h).symm
  rw [hLen] at hSame
  exact (List.append_inj (List.append_cancel_left hSame)
    (History.eq_of_ofNat_length_eq hy hx hLen)).1

theorem contains_constructTxIDKey (x : Bytes) (b t : UInt64) :
    (constructTxIDRangeScan x).contains (constructTxIDKey x b t) = true := by
  rw [RangeScan.contains, decide_eq_true_iff, constructTxIDKey_eq_startKey_append,
    stopKey_constructTxIDRangeScan, append_lt_append_left_iff]
  exact ⟨le_append _ _, History.toBytes_lt_ff _⟩

theorem startKey_prefix_of_contains {y k : Bytes}
    (h : (constructTxIDRangeScan y).contains k = true) :
    (constructTxIDRangeScan y).startKey <+: k := by
  rw [RangeScan.contains, decide_eq_true_iff, stopKey_constructTxIDRangeScan] at h
  have hLow : (constructTxIDRangeScan y).startKey ++ [] ≤ k := by rw [List.append_nil]; exact h.1
  exact prefix_of_mem_range [] [0xff] hLow h.2

theorem contains_constructTxIDKey_iff {x y : Bytes} (b t : UInt64) (hx : x.length < 2 ^ 64)
    (hy : y.length < 2 ^ 64) :
    (constructTxIDRangeScan y).contains (constructTxIDKey x b t) = true ↔ x = y := by
  constructor
  · intro h
    apply eq_of_startKey_prefix hx hy _ (startKey_prefix_of_contains h)
    rw [constructTxIDKey_eq_startKey_append]
    exact List.prefix_append _ _
  · rintro rfl
    exact contains_constructTxIDKey x b t

theorem constructTxIDKey_injective {x y : Bytes} {b t b' t' : UInt64} (hx : x.length < 2 ^ 64)
    (hy : y.length < 2 ^ 64) (h : constructTxIDKey x b t = constructTxIDKey y b' t') :
    x = y ∧ b = b' ∧ t = t' := by
  have hxy : x = y := (contains_constructTxIDKey_iff b t hx hy).1 (h ▸ contains_constructTxIDKey y b' t')
  subst hxy
  rw [constructTxIDKey_eq_startKey_append, constructTxIDKey_eq_startKey_append,
    List.append_cancel_left_eq] at h
  have hHeight := Height.toBytes_injective h
  simp only [Height.mk.injEq] at hHeight
  exact ⟨rfl, hHeight⟩

theorem constructTxIDKey_eq_cons (x : Bytes) (b t : UInt64) : constructTxIDKey x b t =
    txIDIdxKeyPrefix ::
      (encodeOrderPreservingVarUint64 (UInt64.ofNat x.length) ++ (x ++ (Height.mk b t).toBytes)) := by
  simp [constructTxIDKey, Height.toBytes]

theorem retrieveTxID_constructTxIDKey {x : Bytes} (hx : x.length < 2 ^ 63) (b t : UInt64) :
    retrieveTxID (constructTxIDKey x b t) = .ok x := by
  have hToNat : (UInt64.ofNat x.length).toNat = x.length :=
    UInt64.toNat_ofNat_of_lt' (show x.length < 2 ^ 64 by omega)
  have hHeight : 0 < (Height.mk b t).toBytes.length := by
    simp [Height.toBytes, length_encodeOrderPreservingVarUint64]
  rw [constructTxIDKey_eq_cons, retrieveTxID, if_neg (not_not.2 rfl), decodeOrderPreservingVarUint64_encode_append]
  simp only [List.drop_left, hToNat, List.length_append]
  rw [if_neg (by omega), if_neg (by omega), List.take_left' rfl]

end Keys

section Order

def ShortLex (x y : Bytes) : Prop := x.length < y.length ∨ (x.length = y.length ∧ x ≤ y)

instance : Std.Antisymm ShortLex where
  antisymm x y hxy hyx := by
    rcases hxy with hLt | ⟨hLen, hLe⟩
    · rcases hyx with hLt' | ⟨hLen', -⟩ <;> omega
    · rcases hyx with hLt' | ⟨-, hLe'⟩
      · omega
      · exact le_antisymm hLe hLe'

theorem shortLex_total (x y : Bytes) : ShortLex x y ∨ ShortLex y x := by
  rcases lt_trichotomy x.length y.length with hLt | hLen | hGt
  · exact .inl (.inl hLt)
  · rcases le_total x y with hLe | hLe
    · exact .inl (.inr ⟨hLen, hLe⟩)
    · exact .inr (.inr ⟨hLen.symm, hLe⟩)
  · exact .inr (.inl hGt)

theorem shortLex_nil (y : Bytes) : ShortLex [] y := by
  cases y with
  | nil => exact .inr ⟨rfl, le_refl _⟩
  | cons c y => exact .inl (by simp)

theorem constructTxIDKey_lt_of_shortLex {x y : Bytes} (hx : x.length < 2 ^ 64)
    (hy : y.length < 2 ^ 64) (hNe : x ≠ y) (h : ShortLex x y) (b t b' t' : UInt64) :
    constructTxIDKey x b t < constructTxIDKey y b' t' := by
  rw [constructTxIDKey_eq_cons, constructTxIDKey_eq_cons, List.cons_lt_cons_iff]
  refine .inr ⟨rfl, ?_⟩
  rcases h with hLt | ⟨hLen, hLe⟩
  · have hNe' : UInt64.ofNat x.length ≠ UInt64.ofNat y.length := by
      intro hEq
      have := History.eq_of_ofNat_length_eq hy hx hEq
      omega
    rw [append_lt_append_iff _ _ (fun hP => hNe' (encodeOrderPreservingVarUint64_prefix_free hP))
      (fun hP => hNe' (encodeOrderPreservingVarUint64_prefix_free hP).symm),
      encodeOrderPreservingVarUint64_lt_iff, UInt64.lt_iff_toNat_lt, UInt64.toNat_ofNat_of_lt' hx,
      UInt64.toNat_ofNat_of_lt' hy]
    exact hLt
  · rw [hLen, append_lt_append_left_iff,
      append_lt_append_iff _ _ (fun hP => hNe (hP.eq_of_length hLen))
        (fun hP => hNe (hP.eq_of_length hLen.symm).symm)]
    exact lt_of_le_of_ne hLe hNe

theorem shortLex_of_constructTxIDKey_lt {x y : Bytes} (hx : x.length < 2 ^ 64)
    (hy : y.length < 2 ^ 64) {b t b' t' : UInt64}
    (h : constructTxIDKey x b t < constructTxIDKey y b' t') : ShortLex x y := by
  by_cases hxy : x = y
  · subst hxy
    exact .inr ⟨rfl, le_refl x⟩
  · rcases shortLex_total x y with h' | h'
    · exact h'
    · exact absurd h (lt_asymm (constructTxIDKey_lt_of_shortLex hy hx (Ne.symm hxy) h' b' t' b t))

end Order

section Index

/-- Every key of the index that starts with `'t'` is the key of an id, a Go string, at some
height. -/
def TxIDKeysWellFormed (db : SortedMap Bytes Bytes) : Prop :=
  ∀ k v, db.get? k = some v → k.head? = some txIDIdxKeyPrefix →
    ∃ x b t, x.length < 2 ^ 63 ∧ k = constructTxIDKey x b t

def HasTxID (db : SortedMap Bytes Bytes) (x : Bytes) : Prop :=
  ∃ b t v, db.get? (constructTxIDKey x b t) = some v

theorem head_constructTxIDKey (x : Bytes) (b t : UInt64) :
    (constructTxIDKey x b t).head? = some txIDIdxKeyPrefix := by
  rw [constructTxIDKey_eq_cons]
  rfl

theorem head_of_contains {y k : Bytes} (h : (constructTxIDRangeScan y).contains k = true) :
    k.head? = some txIDIdxKeyPrefix := by
  obtain ⟨r, rfl⟩ := startKey_prefix_of_contains h
  rw [startKey_constructTxIDRangeScan]
  rfl

variable {db : SortedMap Bytes Bytes}

theorem mem_scan_txIDRange (hWF : TxIDKeysWellFormed db) {y : Bytes} (hy : y.length < 2 ^ 63)
    (k v : Bytes) :
    (k, v) ∈ db.scan (constructTxIDRangeScan y).contains ↔
      ∃ b t, k = constructTxIDKey y b t ∧ db.get? k = some v := by
  rw [SortedMap.mem_scan]
  constructor
  · rintro ⟨hGet, hIn⟩
    obtain ⟨x, b, t, hx, rfl⟩ := hWF k v hGet (head_of_contains hIn)
    obtain rfl := (contains_constructTxIDKey_iff b t (by omega) (by omega)).1 hIn
    exact ⟨b, t, rfl, hGet⟩
  · rintro ⟨b, t, rfl, hGet⟩
    exact ⟨hGet, contains_constructTxIDKey y b t⟩

variable {index : LevelBlockIndex}

theorem txIDExists_eq (hIdx : index.isAttributeIndexed .txID = true) (y : Bytes) :
    index.txIDExists y = .ok !(index.db.scan (constructTxIDRangeScan y).contains).isEmpty := by
  simp [LevelBlockIndex.txIDExists, hIdx]
  rfl

theorem txIDExists_eq_ok_true_iff (hIdx : index.isAttributeIndexed .txID = true)
    (hWF : TxIDKeysWellFormed index.db) {y : Bytes} (hy : y.length < 2 ^ 63) :
    index.txIDExists y = .ok true ↔ HasTxID index.db y := by
  rw [txIDExists_eq hIdx, Except.ok.injEq, Bool.not_eq_true', List.isEmpty_eq_false_iff_exists_mem]
  constructor
  · rintro ⟨⟨k, v⟩, hMem⟩
    obtain ⟨b, t, rfl, hGet⟩ := (mem_scan_txIDRange hWF hy k v).1 hMem
    exact ⟨b, t, v, hGet⟩
  · rintro ⟨b, t, v, hGet⟩
    exact ⟨_, (mem_scan_txIDRange hWF hy _ v).2 ⟨b, t, rfl, hGet⟩⟩

end Index

section Export

open LevelBlockIndex

def inTxIDPrefixRange (k : Bytes) : Bool := decide ([txIDIdxKeyPrefix] ≤ k ∧ k < [txIDIdxKeyPrefix + 1])

/-- The ids, read back from the keys of prefix `'t'`, in the order of the index. -/
def indexOrderTxIDs (db : SortedMap Bytes Bytes) : List Bytes :=
  (db.scan inTxIDPrefixRange).filterMap fun e => (retrieveTxID e.1).toOption

/-- The ids `exportUniqueTxIDs` writes: those of the index with repeats skipped, from the empty
id on. -/
def exportedTxIDs (db : SortedMap Bytes Bytes) : List Bytes :=
  ((indexOrderTxIDs db).destutter' (· ≠ ·) []).tail

def exported (prev : Bytes) (written : List Bytes) : ExportState :=
  ⟨prev, written.length, if written = [] then none
    else some (written.foldl FileWriter.EncodeBytes (createFile snapshotDataFileName snapshotFileFormat))⟩

theorem exportStep_exported (prev : Bytes) (written : List Bytes) {key x : Bytes}
    (hKey : retrieveTxID key = .ok x) :
    exportStep (exported prev written) key =
      .ok (if prev = x then exported prev written else exported x (written ++ [x])) := by
  by_cases hPrev : prev = x
  · simp [exportStep, hKey, exported, hPrev, pure, Except.pure]
  · cases written with
    | nil => simp [exportStep, hKey, exported, hPrev, ExportState.dataFileForNext, pure, Except.pure]
    | cons w ws =>
      simp [exportStep, hKey, exported, hPrev, ExportState.dataFileForNext, List.foldl_append, pure,
        Except.pure]

theorem foldlM_exportStep (entries : List (Bytes × Bytes))
    (hKeys : ∀ e ∈ entries, ∃ x, retrieveTxID e.1 = .ok x) (prev : Bytes) (written : List Bytes) :
    ∃ prev', entries.foldlM (fun s e => exportStep s e.1) (exported prev written) =
      .ok (exported prev' (written ++
        ((entries.filterMap fun e => (retrieveTxID e.1).toOption).destutter' (· ≠ ·) prev).tail)) := by
  induction entries generalizing prev written with
  | nil => exact ⟨prev, by simp [pure, Except.pure]⟩
  | cons e entries ih =>
    obtain ⟨x, hx⟩ := hKeys e List.mem_cons_self
    have hRest : ∀ e ∈ entries, ∃ x, retrieveTxID e.1 = .ok x :=
      fun e' he' => hKeys e' (List.mem_cons_of_mem _ he')
    rw [List.foldlM_cons, exportStep_exported prev written hx, bind_ok,
      List.filterMap_cons_some (by rw [hx]; rfl)]
    by_cases hPrev : prev = x
    · rw [if_pos hPrev, List.destutter'_cons_neg _ (not_not.2 hPrev)]
      exact ih hRest prev written
    · rw [if_neg hPrev, List.destutter'_cons_pos _ hPrev, List.tail_cons,
        Destutter.destutter'_eq_cons_tail x]
      simpa only [List.append_assoc, List.singleton_append] using ih hRest x (written ++ [x])

theorem head_of_inTxIDPrefixRange {k : Bytes} (h : inTxIDPrefixRange k = true) :
    k.head? = some txIDIdxKeyPrefix := by
  rw [inTxIDPrefixRange, decide_eq_true_iff] at h
  obtain ⟨hLow, hHigh⟩ := h
  cases k with
  | nil => exact absurd hLow (not_le.2 (List.nil_lt_cons _ _))
  | cons c k =>
    have hAbove : ¬ c < txIDIdxKeyPrefix :=
      fun hc => not_lt.2 hLow (List.cons_lt_cons_iff.2 (.inl hc))
    have hBelow : c < txIDIdxKeyPrefix + 1 := by
      rcases List.cons_lt_cons_iff.1 hHigh with hc | ⟨-, hk⟩
      · exact hc
      · exact absurd hk (List.not_lt_nil _)
    have hNext : (txIDIdxKeyPrefix + 1).toNat = txIDIdxKeyPrefix.toNat + 1 := by decide
    rw [UInt8.lt_iff_toNat_lt] at hAbove hBelow
    rw [List.head?_cons, Option.some.injEq]
    exact UInt8.toNat_inj.1 (by omega)

theorem inTxIDPrefixRange_constructTxIDKey (x : Bytes) (b t : UInt64) :
    inTxIDPrefixRange (constructTxIDKey x b t) = true := by
  rw [inTxIDPrefixRange, decide_eq_true_iff, constructTxIDKey_eq_cons]
  exact ⟨le_append [txIDIdxKeyPrefix] _, List.cons_lt_cons_iff.2 (.inl (by decide))⟩

variable {db : SortedMap Bytes Bytes}

theorem exists_constructTxIDKey_of_mem_scan (hWF : TxIDKeysWellFormed db) {k v : Bytes}
    (hMem : (k, v) ∈ db.scan inTxIDPrefixRange) :
    ∃ x b t, x.length < 2 ^ 63 ∧ k = constructTxIDKey x b t := by
  obtain ⟨hGet, hIn⟩ := (SortedMap.mem_scan _ _ _ _).1 hMem
  exact hWF k v hGet (head_of_inTxIDPrefixRange hIn)

theorem exists_of_mem_indexOrderTxIDs (hWF : TxIDKeysWellFormed db) {x : Bytes}
    (h : x ∈ indexOrderTxIDs db) : x.length < 2 ^ 63 ∧ HasTxID db x := by
  obtain ⟨⟨k, v⟩, hMem, hSome⟩ := List.mem_filterMap.1 h
  obtain ⟨y, b, t, hy, rfl⟩ := exists_constructTxIDKey_of_mem_scan hWF hMem
  rw [retrieveTxID_constructTxIDKey hy] at hSome
  obtain rfl : y = x := Option.some.inj hSome
  exact ⟨hy, b, t, v, ((SortedMap.mem_scan _ _ _ _).1 hMem).1⟩

theorem mem_indexOrderTxIDs (hWF : TxIDKeysWellFormed db) {x : Bytes} (hx : x.length < 2 ^ 63) :
    x ∈ indexOrderTxIDs db ↔ HasTxID db x := by
  constructor
  · exact fun h => (exists_of_mem_indexOrderTxIDs hWF h).2
  · rintro ⟨b, t, v, hGet⟩
    refine List.mem_filterMap.2 ⟨(constructTxIDKey x b t, v),
      (SortedMap.mem_scan _ _ _ _).2 ⟨hGet, inTxIDPrefixRange_constructTxIDKey x b t⟩, ?_⟩
    rw [retrieveTxID_constructTxIDKey hx]
    rfl

theorem pairwise_indexOrderTxIDs (hWF : TxIDKeysWellFormed db) :
    (indexOrderTxIDs db).Pairwise ShortLex := by
  rw [indexOrderTxIDs, List.pairwise_filterMap]
  apply (SortedMap.pairwise_scan db _).imp_of_mem
  rintro ⟨k, v⟩ ⟨k', v'⟩ hMem hMem' hLt x hx x' hx'
  obtain ⟨y, b, t, hy, rfl⟩ := exists_constructTxIDKey_of_mem_scan hWF hMem
  obtain ⟨y', b', t', hy', rfl⟩ := exists_constructTxIDKey_of_mem_scan hWF hMem'
  rw [retrieveTxID_constructTxIDKey hy] at hx
  rw [retrieveTxID_constructTxIDKey hy'] at hx'
  obtain rfl : y = x := Option.some.inj hx
  obtain rfl : y' = x' := Option.some.inj hx'
  exact shortLex_of_constructTxIDKey_lt (by omega) (by omega) hLt

theorem exportedTxIDs_eq_dedup (hWF : TxIDKeysWellFormed db) :
    exportedTxIDs db = ((indexOrderTxIDs db).filter (· ≠ [])).dedup :=
  Destutter.tail_destutter'_eq_dedup_filter
    (List.pairwise_cons.2 ⟨fun y _ => shortLex_nil y, pairwise_indexOrderTxIDs hWF⟩)

theorem nodup_exportedTxIDs (hWF : TxIDKeysWellFormed db) : (exportedTxIDs db).Nodup := by
  rw [exportedTxIDs_eq_dedup hWF]
  exact List.nodup_dedup _

theorem exportedTxIDs_sublist (hWF : TxIDKeysWellFormed db) :
    (exportedTxIDs db).Sublist (indexOrderTxIDs db) := by
  rw [exportedTxIDs_eq_dedup hWF]
  exact (List.dedup_sublist _).trans List.filter_sublist

theorem mem_exportedTxIDs (hWF : TxIDKeysWellFormed db) {x : Bytes} (hx : x.length < 2 ^ 63) :
    x ∈ exportedTxIDs db ↔ x ≠ [] ∧ HasTxID db x := by
  rw [exportedTxIDs_eq_dedup hWF, List.mem_dedup, List.mem_filter, mem_indexOrderTxIDs hWF hx,
    decide_eq_true_iff, and_comm]

theorem length_lt_of_mem_exportedTxIDs (hWF : TxIDKeysWellFormed db) {x : Bytes}
    (h : x ∈ exportedTxIDs db) : x.length < 2 ^ 63 :=
  (exists_of_mem_indexOrderTxIDs hWF ((exportedTxIDs_sublist hWF).subset h)).1

theorem contents_foldl_EncodeBytes (w : FileWriter) (xs : List Bytes) :
    (xs.foldl FileWriter.EncodeBytes w).contents = w.contents ++ xs.flatMap encodeBytes := by
  induction xs generalizing w with
  | nil => simp
  | cons x xs ih =>
    rw [List.foldl_cons, ih, FileWriter.contents_EncodeBytes, List.flatMap_cons, List.append_assoc]

theorem exportUniqueTxIDs_eq {index : LevelBlockIndex} (hIdx : index.isAttributeIndexed .txID = true)
    (hWF : TxIDKeysWellFormed index.db) :
    index.exportUniqueTxIDs = .ok (if exportedTxIDs index.db = [] then [] else
      [(snapshotDataFileName, snapshotFileFormat :: (exportedTxIDs index.db).flatMap encodeBytes),
        (snapshotMetadataFileName,
          snapshotFileFormat :: encodeUVarint (exportedTxIDs index.db).length)]) := by
  have hKeys : ∀ e ∈ index.db.scan inTxIDPrefixRange, ∃ x, retrieveTxID e.1 = .ok x := by
    rintro ⟨k, v⟩ hMem
    obtain ⟨x, b, t, hx, rfl⟩ := exists_constructTxIDKey_of_mem_scan hWF hMem
    exact ⟨x, retrieveTxID_constructTxIDKey hx b t⟩
  obtain ⟨prev', hRun⟩ := foldlM_exportStep _ hKeys [] []
  rw [List.nil_append] at hRun
  change _ = Except.ok (exported prev' (exportedTxIDs index.db)) at hRun
  have hStart : (⟨[], 0, none⟩ : ExportState) = exported [] [] := rfl
  simp only [exportUniqueTxIDs, hIdx, Bool.not_true, Bool.false_eq_true, if_false]
  rw [show (index.db.scan fun k => decide ([txIDIdxKeyPrefix] ≤ k ∧ k < [txIDIdxKeyPrefix + 1])) =
    index.db.scan inTxIDPrefixRange from rfl, hStart, hRun, bind_ok]
  by_cases hNone : exportedTxIDs index.db = []
  · simp only [exported, hNone, if_true]
    rfl
  · simp only [exported, hNone, if_false, contents_foldl_EncodeBytes, FileWriter.contents_EncodeUVarint]
    rfl

end Export

section Import

def importedEntries (lastBlockNumInSnapshot : UInt64) (xs : List Bytes) : List (Bytes × Bytes) :=
  (xs.zipIdx 0).map (fun e => (constructTxIDKey e.1 lastBlockNumInSnapshot (UInt64.ofNat e.2), [])) ++
    [(indexSavePointKey, encodeBlockNum lastBlockNumInSnapshot)]

theorem importLoop_encoded (lastBlockNumInSnapshot : UInt64) (name : String) (xs : List Bytes)
    (rest : Bytes) (db : SortedMap Bytes Bytes) (batch : List (BatchOp Bytes Bytes)) (i : Nat) :
    ∃ db' batch', importLoop lastBlockNumInSnapshot xs.length i
        ⟨name, xs.flatMap encodeBytes ++ rest⟩ db batch = (db', .ok batch') ∧
      db'.writeBatch batch' = db.writeBatch (batch ++ (xs.zipIdx i).map fun e =>
        .put (constructTxIDKey e.1 lastBlockNumInSnapshot (UInt64.ofNat e.2)) []) := by
  induction xs generalizing i db batch with
  | nil => exact ⟨db, batch, rfl, by simp⟩
  | cons x xs ih =>
    rw [List.length_cons, List.flatMap_cons, List.append_assoc, importLoop,
      FileReader.decodeBytes_encodeBytes]
    dsimp only
    split
    · obtain ⟨db', batch', hRun, hEq⟩ := ih (db.writeBatch (batch ++
        [.put (constructTxIDKey x lastBlockNumInSnapshot (UInt64.ofNat i)) []])) [] (i + 1)
      refine ⟨db', batch', hRun, ?_⟩
      rw [hEq, ← SortedMap.writeBatch_append]
      simp [List.zipIdx_cons]
    · obtain ⟨db', batch', hRun, hEq⟩ := ih db
        (batch ++ [.put (constructTxIDKey x lastBlockNumInSnapshot (UInt64.ofNat i)) []]) (i + 1)
      refine ⟨db', batch', hRun, ?_⟩
      rw [hEq]
      simp [List.zipIdx_cons]

theorem importTxIDsFromSnapshot_files (xs : List Bytes) (lastBlockNumInSnapshot : UInt64)
    (db : SortedMap Bytes Bytes) :
    importTxIDsFromSnapshot (Dir.ofFiles
        [(snapshotDataFileName, snapshotFileFormat :: xs.flatMap encodeBytes),
          (snapshotMetadataFileName, snapshotFileFormat :: encodeUVarint xs.length)])
        lastBlockNumInSnapshot db =
      (db.writeBatch ((importedEntries lastBlockNumInSnapshot xs).map fun e => .put e.1 e.2), .ok ()) := by
  have hData : Dir.ofFiles [(snapshotDataFileName, snapshotFileFormat :: xs.flatMap encodeBytes),
      (snapshotMetadataFileName, snapshotFileFormat :: encodeUVarint xs.length)]
      snapshotDataFileName = some (snapshotFileFormat :: (xs.flatMap encodeBytes ++ [])) := by
    simp [Dir.ofFiles]
  have hMetadata : Dir.ofFiles [(snapshotDataFileName, snapshotFileFormat :: xs.flatMap encodeBytes),
      (snapshotMetadataFileName, snapshotFileFormat :: encodeUVarint xs.length)]
      snapshotMetadataFileName = some (snapshotFileFormat :: (encodeUVarint xs.length ++ [])) := by
    have hName : (snapshotMetadataFileName == snapshotDataFileName) = false := by decide
    simp [Dir.ofFiles, List.lookup_cons, hName]
  obtain ⟨db', batch', hRun, hEq⟩ :=
    importLoop_encoded lastBlockNumInSnapshot snapshotDataFileName xs [] db [] 0
  rw [importTxIDsFromSnapshot, openFile_of_contents hMetadata]
  simp only [FileReader.DecodeUVarInt_encodeUVarint]
  rw [openFile_of_contents hData]
  simp only [hRun]
  rw [SortedMap.writeBatch_append, hEq, List.nil_append, ← SortedMap.writeBatch_append]
  simp only [importedEntries, List.map_append, List.map_map, List.map_cons, List.map_nil]
  rfl

theorem indexSavePointKey_head : indexSavePointKey.head? = some 0x69 := by decide +kernel

theorem indexSavePointKey_ne_constructTxIDKey (x : Bytes) (b t : UInt64) :
    indexSavePointKey ≠ constructTxIDKey x b t := by
  intro h
  have hHead := congrArg List.head? h
  rw [indexSavePointKey_head, head_constructTxIDKey] at hHead
  exact absurd (Option.some.inj hHead) (by decide)

theorem wellFormed_empty : TxIDKeysWellFormed SortedMap.empty := by
  intro k v hGet
  simp at hGet

theorem wellFormed_writeBatch_puts {db : SortedMap Bytes Bytes} (hWF : TxIDKeysWellFormed db)
    (l : List (Bytes × Bytes))
    (hl : ∀ e ∈ l, e.1.head? = some txIDIdxKeyPrefix →
      ∃ x b t, x.length < 2 ^ 63 ∧ e.1 = constructTxIDKey x b t) :
    TxIDKeysWellFormed (db.writeBatch (l.map fun e => .put e.1 e.2)) := by
  intro k v hGet hHead
  have hSome : ((db.writeBatch (l.map fun e => .put e.1 e.2)).get? k).isSome := by rw [hGet]; rfl
  rcases (SortedMap.isSome_get?_writeBatch_puts db l k).1 hSome with hMem | hOld
  · obtain ⟨e, he, rfl⟩ := List.mem_map.1 hMem
    exact hl e he hHead
  · obtain ⟨v', hv'⟩ := Option.isSome_iff_exists.1 hOld
    exact hWF k v' hv' hHead

variable {lastBlockNumInSnapshot : UInt64} {xs : List Bytes}

theorem wellFormed_importedEntries (hxs : ∀ x ∈ xs, x.length < 2 ^ 63) :
    TxIDKeysWellFormed (SortedMap.empty.writeBatch
      ((importedEntries lastBlockNumInSnapshot xs).map fun e => .put e.1 e.2)) := by
  apply wellFormed_writeBatch_puts wellFormed_empty
  intro e he hHead
  rcases List.mem_append.1 he with hPut | hSave
  · obtain ⟨⟨x, i⟩, hx, rfl⟩ := List.mem_map.1 hPut
    exact ⟨x, _, _, hxs x (List.fst_mem_of_mem_zipIdx hx), rfl⟩
  · rw [List.mem_singleton] at hSave
    subst hSave
    rw [indexSavePointKey_head] at hHead
    exact absurd (Option.some.inj hHead) (by decide)

theorem hasTxID_importedEntries_iff (hxs : ∀ x ∈ xs, x.length < 2 ^ 63) {x : Bytes}
    (hx : x.length < 2 ^ 63) :
    HasTxID (SortedMap.empty.writeBatch
      ((importedEntries lastBlockNumInSnapshot xs).map fun e => .put e.1 e.2)) x ↔ x ∈ xs := by
  constructor
  · rintro ⟨b, t, v, hGet⟩
    have hSome : ((SortedMap.empty.writeBatch ((importedEntries lastBlockNumInSnapshot xs).map
        fun e => .put e.1 e.2)).get? (constructTxIDKey x b t)).isSome := by rw [hGet]; rfl
    rcases (SortedMap.isSome_get?_writeBatch_puts _ _ _).1 hSome with hMem | hOld
    · rw [importedEntries, List.map_append, List.mem_append, List.map_map] at hMem
      rcases hMem with hPut | hSave
      · obtain ⟨⟨y, i⟩, hy, hKey⟩ := List.mem_map.1 hPut
        dsimp only [Function.comp_apply] at hKey
        have hyLen := hxs y (List.fst_mem_of_mem_zipIdx hy)
        obtain ⟨rfl, -, -⟩ := constructTxIDKey_injective (by omega) (by omega) hKey
        exact List.fst_mem_of_mem_zipIdx hy
      · simp only [List.map_cons, List.map_nil, List.mem_singleton] at hSave
        exact absurd hSave.symm (indexSavePointKey_ne_constructTxIDKey x b t)
    · simp at hOld
  · intro hMem
    obtain ⟨⟨y, i⟩, hy, rfl⟩ := List.mem_map.1 ((List.zipIdx_map_fst 0 xs).symm ▸ hMem)
    have hKey : constructTxIDKey y lastBlockNumInSnapshot (UInt64.ofNat i) ∈
        (importedEntries lastBlockNumInSnapshot xs).map Prod.fst := by
      rw [importedEntries, List.map_append, List.map_map]
      exact List.mem_append_left _ (List.mem_map.2 ⟨(y, i), hy, rfl⟩)
    obtain ⟨v, hv⟩ := Option.isSome_iff_exists.1
      ((SortedMap.isSome_get?_writeBatch_puts _ _ _).2 (.inl hKey))
    exact ⟨_, _, v, hv⟩

theorem getLastBlockIndexed_importedEntries (attrsToIndex : List IndexableAttr) :
    (⟨attrsToIndex, SortedMap.empty.writeBatch
      ((importedEntries lastBlockNumInSnapshot xs).map fun e => .put e.1 e.2)⟩ :
        LevelBlockIndex).getLastBlockIndexed = .ok lastBlockNumInSnapshot := by
  have hGet : (SortedMap.empty.writeBatch ((importedEntries lastBlockNumInSnapshot xs).map
      fun e => .put e.1 e.2)).get? indexSavePointKey = some (encodeBlockNum lastBlockNumInSnapshot) := by
    rw [SortedMap.get?_writeBatch_puts, importedEntries, List.reverse_append]
    simp
  rw [LevelBlockIndex.getLastBlockIndexed, hGet]
  simp [decodeBlockNum, encodeBlockNum, Varint.decode_encode]

end Import

/-- For a well-formed index, `exportUniqueTxIDs` writes every nonempty id of the index exactly once,
in index order, and never the empty id, which is its initial previous id. An index with no other
id gets no file, and the import of that fails; otherwise importing the files into an empty index
sets the save point to the snapshot's last block and finds exactly the ids that the source finds,
except the empty one. -/
theorem exportUniqueTxIDs_drops_empty_txID {index : LevelBlockIndex}
    (hIdx : index.isAttributeIndexed .txID = true) (hWF : TxIDKeysWellFormed index.db)
    (lastBlockNumInSnapshot : UInt64) :
    ∃ files, index.exportUniqueTxIDs = .ok files ∧
      (exportedTxIDs index.db).Sublist (indexOrderTxIDs index.db) ∧ (exportedTxIDs index.db).Nodup ∧
      (∀ x, x.length < 2 ^ 63 →
        (x ∈ exportedTxIDs index.db ↔ x ≠ [] ∧ index.txIDExists x = .ok true)) ∧
      (exportedTxIDs index.db = [] → files = [] ∧
        ∃ err, importTxIDsFromSnapshot (Dir.ofFiles files) lastBlockNumInSnapshot .empty =
          (.empty, .error err)) ∧
      (exportedTxIDs index.db ≠ [] →
        files = [(snapshotDataFileName,
            snapshotFileFormat :: (exportedTxIDs index.db).flatMap encodeBytes),
          (snapshotMetadataFileName,
            snapshotFileFormat :: encodeUVarint (exportedTxIDs index.db).length)] ∧
        ∃ imported, importTxIDsFromSnapshot (Dir.ofFiles files) lastBlockNumInSnapshot .empty =
            (imported, .ok ()) ∧
          (⟨index.attrsToIndex, imported⟩ : LevelBlockIndex).getLastBlockIndexed =
            .ok lastBlockNumInSnapshot ∧
          ∀ x, x.length < 2 ^ 63 →
            ((⟨index.attrsToIndex, imported⟩ : LevelBlockIndex).txIDExists x = .ok true ↔
              x ≠ [] ∧ index.txIDExists x = .ok true)) := by
  have hLen : ∀ x ∈ exportedTxIDs index.db, x.length < 2 ^ 63 :=
    fun x hx => length_lt_of_mem_exportedTxIDs hWF hx
  have hMem : ∀ x, x.length < 2 ^ 63 →
      (x ∈ exportedTxIDs index.db ↔ x ≠ [] ∧ index.txIDExists x = .ok true) := by
    intro x hx
    rw [mem_exportedTxIDs hWF hx, txIDExists_eq_ok_true_iff hIdx hWF hx]
  refine ⟨_, exportUniqueTxIDs_eq hIdx hWF, exportedTxIDs_sublist hWF, nodup_exportedTxIDs hWF,
    hMem, ?_, ?_⟩
  · intro hNone
    rw [if_pos hNone]
    exact ⟨rfl, _, rfl⟩
  · intro hSome
    rw [if_neg hSome]
    refine ⟨rfl, _, importTxIDsFromSnapshot_files _ _ _, getLastBlockIndexed_importedEntries _, ?_⟩
    intro x hx
    have hIdx' : (⟨index.attrsToIndex, SortedMap.empty.writeBatch
        ((importedEntries lastBlockNumInSnapshot (exportedTxIDs index.db)).map fun e => .put e.1 e.2)⟩ :
          LevelBlockIndex).isAttributeIndexed .txID = true := hIdx
    rw [txIDExists_eq_ok_true_iff hIdx' (wellFormed_importedEntries hLen) hx,
      hasTxID_importedEntries_iff hLen hx, hMem x hx]

def indexWithMalformedTx : LevelBlockIndex :=
  ⟨[.txID], SortedMap.empty.writeBatch
    ([(constructTxIDKey [] 0 0, [1]), (constructTxIDKey [0x61] 0 1, [1])].map fun e => .put e.1 e.2)⟩

theorem exportUniqueTxIDs_drops_empty_txID_of_malformed_tx :
    indexWithMalformedTx.txIDExists [] = .ok true ∧
      ∃ files imported, indexWithMalformedTx.exportUniqueTxIDs = .ok files ∧
        importTxIDsFromSnapshot (Dir.ofFiles files) 0 .empty = (imported, .ok ()) ∧
        (⟨[.txID], imported⟩ : LevelBlockIndex).txIDExists [] ≠ .ok true := by
  have hWF : TxIDKeysWellFormed indexWithMalformedTx.db := by
    apply wellFormed_writeBatch_puts wellFormed_empty
    intro e he _
    rcases List.mem_pair.1 he with rfl | rfl
    · exact ⟨[], 0, 0, by decide, rfl⟩
    · exact ⟨[0x61], 0, 1, by decide, rfl⟩
  obtain ⟨files, hExport, -, -, hMem, -, hSome⟩ :=
    @exportUniqueTxIDs_drops_empty_txID indexWithMalformedTx (by decide) hWF 0
  have hA : [0x61] ∈ exportedTxIDs indexWithMalformedTx.db :=
    (hMem [0x61] (by decide)).2 ⟨by decide, by decide⟩
  obtain ⟨-, imported, hImport, -, hExists⟩ := hSome (List.ne_nil_of_mem hA)
  refine ⟨by decide, files, imported, hExport, hImport, fun h => ?_⟩
  exact ((hExists [] (by decide)).1 h).1 rfl

end FabricPeer.Blkstorage
