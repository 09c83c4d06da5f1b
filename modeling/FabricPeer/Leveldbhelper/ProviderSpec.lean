import FabricPeer.Leveldbhelper.Provider
import FabricPeer.Lib.SubStore

/-! # The handles are independent sorted maps

What the handles of a provider are for: each name its own sorted map (`Stores`), a write to one
handle changing its map alone, `Drop` emptying it. The map a handle sees in the LevelDB is the
sub-store under its name and separator (`views`). For names without a `0x00`, the front of one
name is not a front of another's keys, so each operation of the code changes the view of its
handle as the abstract operation changes the handle's map and leaves the other views alone
(`views_exec`). Reads go through the view: `Get` reads it, an iterator reads the range of it its
bounds select, `Key` taking off the front, `Seek` lands inside it, and `IsEmpty` tests it.
-/

namespace FabricPeer.Leveldbhelper

open FabricPeer.Ledger KVStore GoRun ByteOrder

set_option autoImplicit false

abbrev Stores := Bytes → SortedMap Bytes Bytes

/-- The map each handle sees in the LevelDB: the entries under its name and separator. -/
def views (db : DB) : Stores := fun dbName => db.under (dbName ++ dbNameKeySep)

/-- One call on a handle: a `Put` or `Delete`, a batch built by `Put` and `Delete` on
`NewUpdateBatch` and written by `WriteBatch`, or `Provider.Drop`. -/
inductive Op where
  | put (dbName key value : Bytes)
  | delete (dbName key : Bytes)
  | writeBatch (dbName : Bytes) (updates : List (BatchOp Bytes Bytes))
  | drop (dbName : Bytes)
  deriving DecidableEq, Repr

def Op.dbName : Op → Bytes
  | .put dbName _ _ => dbName
  | .delete dbName _ => dbName
  | .writeBatch dbName _ => dbName
  | .drop dbName => dbName

def buildBatch (dbName : Bytes) (updates : List (BatchOp Bytes Bytes)) : UpdateBatch :=
  updates.foldl (fun batch update => match update with
    | .put key value => batch.put key value
    | .delete key => batch.delete key) (newUpdateBatch dbName)

def Op.exec (db : DB) : Op → DB
  | .put dbName key value => Leveldbhelper.put db dbName key value
  | .delete dbName key => Leveldbhelper.delete db dbName key
  | .writeBatch dbName updates => Leveldbhelper.writeBatch db (buildBatch dbName updates)
  | .drop dbName => Leveldbhelper.drop db dbName

/-- What the call does to its handle's own map. -/
def Op.update (m : SortedMap Bytes Bytes) : Op → SortedMap Bytes Bytes
  | .put _ key value => m.put key value
  | .delete _ key => m.delete key
  | .writeBatch _ updates => m.writeBatch updates
  | .drop _ => .empty

def Op.apply (stores : Stores) (op : Op) : Stores :=
  Function.update stores op.dbName (op.update (stores op.dbName))

/-- `inBounds start end k`: `k` lies from `start` up to `end` excluded, `none` for no bound. -/
def inBounds (startKey endKey : Option Bytes) (k : Bytes) : Bool :=
  decide (startKey.getD [] ≤ k) && endKey.all fun endKey => decide (k < endKey)

def Iterator.readEntry (itr : Iterator) : Run (Option (Bytes × Bytes) × Iterator) :=
  let (itr, ok) := itr.next
  if ok then do
    let k ← itr.key
    pure (some (k, itr.value), itr)
  else pure (none, itr)

/-- What the iterator a `Seek` returns reads: the first of `out` where it stands, `Seek` having
returned whether there is one, and the rest of `out` from its next `Next` on. -/
def SeekReads (sought : Iterator × Bool) : List (Bytes × Bytes) → Prop
  | [] => sought.2 = false
  | (k, v) :: rest => sought.2 = true ∧ sought.1.key = .ok k ∧ sought.1.value = v ∧
      Yields Iterator.readEntry sought.1 rest

section Keys

theorem constructLevelKey_eq (dbName key : Bytes) :
    constructLevelKey dbName key = (dbName ++ dbNameKeySep) ++ key := rfl

theorem retrieveAppKey_constructLevelKey {dbName : Bytes} (hName : (0 : UInt8) ∉ dbName)
    (key : Bytes) : retrieveAppKey (constructLevelKey dbName key) = .ok key := by
  rw [retrieveAppKey, constructLevelKey, dbNameKeySep, List.append_assoc, List.singleton_append,
    idxOf?_append_cons hName]
  simp

theorem prefix_constructLevelKey_iff {dbName dbName' : Bytes} (hName : (0 : UInt8) ∉ dbName)
    (hName' : (0 : UInt8) ∉ dbName') (key : Bytes) :
    dbName ++ dbNameKeySep <+: constructLevelKey dbName' key ↔ dbName' = dbName := by
  constructor
  · intro h
    rw [constructLevelKey, dbNameKeySep, List.append_assoc, List.singleton_append] at h
    exact (eq_of_prefix_append_sep_cons hName hName' h).symm
  · rintro rfl
    exact List.prefix_append _ _

theorem set_constructLevelKey_nil (dbName : Bytes) :
    (constructLevelKey dbName []).set ((constructLevelKey dbName []).length - 1) lastKeyIndicator =
      dbName ++ [lastKeyIndicator] := by
  simp [constructLevelKey, dbNameKeySep]

def levelEnd (dbName : Bytes) : Option Bytes → Bytes
  | none => dbName ++ [lastKeyIndicator]
  | some endKey => constructLevelKey dbName endKey

theorem getIterator_eq (db : DB) (dbName : Bytes) (startKey endKey : Option Bytes) :
    getIterator db dbName startKey endKey =
      ⟨dbName, db.iterator (constructLevelKey dbName (startKey.getD [])) (levelEnd dbName endKey)⟩ := by
  cases endKey with
  | none => simp only [getIterator, levelEnd, Option.getD_none, set_constructLevelKey_nil]
  | some endKey => rfl

theorem prefix_of_mem_levelRange {dbName k : Bytes} (startKey : Bytes) (endKey : Option Bytes)
    (hLow : constructLevelKey dbName startKey ≤ k) (hHigh : k < levelEnd dbName endKey) :
    dbName ++ dbNameKeySep <+: k := by
  rw [constructLevelKey_eq] at hLow
  cases endKey with
  | none => exact prefix_zero_of_mem_range_one ((le_append _ _).trans hLow) hHigh
  | some endKey =>
    rw [levelEnd, constructLevelKey_eq] at hHigh
    exact prefix_of_mem_range _ _ hLow hHigh

theorem prefix_of_mem_entries_getIterator (db : DB) (dbName : Bytes)
    (startKey endKey : Option Bytes) {e : Bytes × Bytes}
    (hMem : e ∈ (getIterator db dbName startKey endKey).iterator.entries) :
    dbName ++ dbNameKeySep <+: e.1 := by
  rw [getIterator_eq] at hMem
  obtain ⟨k, v⟩ := e
  simp only [SortedMap.iterator] at hMem
  obtain ⟨-, hRange⟩ := (SortedMap.mem_scan _ _ _ _).1 hMem
  simp only [decide_eq_true_eq] at hRange
  exact prefix_of_mem_levelRange _ endKey hRange.1 hRange.2

end Keys

section Simulation

variable {db : DB} {dbName : Bytes}

theorem leveldbBatch_buildBatch (dbName : Bytes) (updates : List (BatchOp Bytes Bytes)) :
    (buildBatch dbName updates).leveldbBatch =
      updates.map (BatchOp.behind (dbName ++ dbNameKeySep)) := by
  suffices h : ∀ batch : UpdateBatch, batch.dbName = dbName →
      (updates.foldl (fun batch update => match update with
        | .put key value => batch.put key value
        | .delete key => batch.delete key) batch).leveldbBatch =
        batch.leveldbBatch ++ updates.map (BatchOp.behind (dbName ++ dbNameKeySep)) from
    h _ rfl
  induction updates with
  | nil => simp
  | cons update updates ih =>
    intro batch hName
    rw [List.foldl_cons, ih _ (by cases update <;> exact hName)]
    cases update <;>
      simp [UpdateBatch.put, UpdateBatch.delete, BatchOp.behind, constructLevelKey, hName]

theorem writeBatch_eq (db : DB) (batch : UpdateBatch) :
    Leveldbhelper.writeBatch db batch = db.writeBatch batch.leveldbBatch := by
  rw [Leveldbhelper.writeBatch]
  split
  · rename_i hEmpty
    rw [List.eq_nil_of_length_eq_zero hEmpty]
    rfl
  · rfl

theorem deleteAllLoop_eq (keys : List Bytes) (db : DB) (batch : List (BatchOp Bytes Bytes))
    (batchSize : Nat) :
    deleteAllLoop keys db batch batchSize = db.writeBatch (batch ++ keys.map .delete) := by
  induction keys generalizing db batch batchSize with
  | nil =>
    rw [deleteAllLoop, List.map_nil, List.append_nil]
    split
    · rfl
    · rename_i hEmpty
      rw [List.eq_nil_of_length_eq_zero (Nat.eq_zero_of_not_pos hEmpty)]
      rfl
  | cons key keys ih =>
    rw [deleteAllLoop]
    split
    · rw [ih, List.nil_append, ← SortedMap.writeBatch_append]
      simp
    · rw [ih]
      simp

theorem deleteAll_eq (db : DB) (dbName : Bytes) :
    deleteAll db dbName = db.writeBatch
      (((getIterator db dbName none none).iterator.entries.map Prod.fst).map .delete) := by
  rw [deleteAll, deleteAllLoop_eq, List.nil_append]

theorem views_drop_self (db : DB) (dbName : Bytes) : views (drop db dbName) dbName = .empty := by
  apply SortedMap.ext_get?
  intro k
  rw [views, SortedMap.get?_under, drop, deleteAll_eq, SortedMap.get?_writeBatch_deletes,
    SortedMap.get?_empty]
  split
  · rfl
  · rename_i hNot
    cases hGet : db.get? (dbName ++ dbNameKeySep ++ k) with
    | none => rfl
    | some v =>
      refine absurd (List.mem_map.2 ⟨(_, v), ?_, rfl⟩) hNot
      simp only [getIterator, Option.getD_none, set_constructLevelKey_nil, SortedMap.iterator]
      refine (SortedMap.mem_scan _ _ _ _).2 ⟨hGet, decide_eq_true ⟨?_, ?_⟩⟩
      · rw [constructLevelKey_eq, List.append_nil]
        exact le_append _ _
      · rw [dbNameKeySep, List.append_assoc, append_lt_append_left_iff, List.singleton_append]
        exact List.cons_lt_cons_iff.2 (.inl (by decide))

theorem views_exec (db : DB) (op : Op) (hOp : (0 : UInt8) ∉ op.dbName) {dbName : Bytes}
    (hName : (0 : UInt8) ∉ dbName) : views (op.exec db) dbName = op.apply (views db) dbName := by
  rw [Op.apply]
  by_cases h : dbName = op.dbName
  · rw [h, Function.update_self]
    cases op with
    | put dbName key value =>
      simp only [Op.dbName, Op.exec, Op.update, views, put]
      rw [SortedMap.under_put, constructLevelKey_eq, if_pos (List.prefix_append _ _),
        List.drop_left]
    | delete dbName key =>
      simp only [Op.dbName, Op.exec, Op.update, views, delete]
      rw [SortedMap.under_delete, constructLevelKey_eq, if_pos (List.prefix_append _ _),
        List.drop_left]
    | writeBatch dbName updates =>
      simp only [Op.dbName, Op.exec, Op.update, views]
      rw [writeBatch_eq, leveldbBatch_buildBatch, SortedMap.under_writeBatch_under]
    | drop dbName =>
      simp only [Op.dbName, Op.exec, Op.update]
      rw [views_drop_self]
  · rw [Function.update_of_ne h]
    have hOther : ∀ key, ¬ dbName ++ dbNameKeySep <+: constructLevelKey op.dbName key :=
      fun key hPrefix => h ((prefix_constructLevelKey_iff hName hOp key).1 hPrefix).symm
    cases op with
    | put dbName' key value =>
      simp only [Op.dbName] at hOther
      rw [Op.exec, views, views, put, SortedMap.under_put, if_neg (hOther key)]
    | delete dbName' key =>
      simp only [Op.dbName] at hOther
      rw [Op.exec, views, views, delete, SortedMap.under_delete, if_neg (hOther key)]
    | writeBatch dbName' updates =>
      simp only [Op.dbName] at hOther
      rw [Op.exec, views, views, writeBatch_eq, leveldbBatch_buildBatch,
        SortedMap.under_writeBatch_of_forall]
      intro update hMem hPrefix
      obtain ⟨u, -, rfl⟩ := List.mem_map.1 hMem
      cases u with
      | put key value => exact hOther key hPrefix
      | delete key => exact hOther key hPrefix
    | drop dbName' =>
      simp only [Op.dbName] at hOther
      rw [Op.exec, views, views, drop, deleteAll_eq, SortedMap.under_writeBatch_of_forall]
      intro op hMem hPrefix
      obtain ⟨k, hKey, rfl⟩ := List.mem_map.1 hMem
      obtain ⟨e, hEntry, rfl⟩ := List.mem_map.1 hKey
      obtain ⟨r, hr⟩ := prefix_of_mem_entries_getIterator db dbName' none none hEntry
      rw [← hr] at hPrefix
      exact hOther r hPrefix

def Agree (stores stores' : Stores) : Prop := ∀ dbName, (0 : UInt8) ∉ dbName → stores dbName = stores' dbName

theorem Agree.trans {stores stores' stores'' : Stores} (h : Agree stores stores')
    (h' : Agree stores' stores'') : Agree stores stores'' :=
  fun dbName hName => (h dbName hName).trans (h' dbName hName)

theorem Agree.apply {stores stores' : Stores} (h : Agree stores stores') {op : Op}
    (hOp : (0 : UInt8) ∉ op.dbName) : Agree (op.apply stores) (op.apply stores') := by
  intro dbName hName
  by_cases hEq : dbName = op.dbName
  · rw [hEq, Op.apply, Op.apply, Function.update_self, Function.update_self, h op.dbName hOp]
  · rw [Op.apply, Op.apply, Function.update_of_ne hEq, Function.update_of_ne hEq, h dbName hName]

theorem Agree.foldl_apply {stores stores' : Stores} (h : Agree stores stores') {ops : List Op}
    (hOps : ∀ op ∈ ops, (0 : UInt8) ∉ op.dbName) :
    Agree (ops.foldl Op.apply stores) (ops.foldl Op.apply stores') := by
  induction ops generalizing stores stores' with
  | nil => exact h
  | cons op ops ih =>
    exact ih (h.apply (hOps op List.mem_cons_self)) fun op' hMem =>
      hOps op' (List.mem_cons_of_mem _ hMem)

theorem views_execAll (db : DB) {ops : List Op} (hOps : ∀ op ∈ ops, (0 : UInt8) ∉ op.dbName) :
    Agree (views (ops.foldl Op.exec db)) (ops.foldl Op.apply (views db)) := by
  induction ops generalizing db with
  | nil => exact fun _ _ => rfl
  | cons op ops ih =>
    have hRest : ∀ op' ∈ ops, (0 : UInt8) ∉ op'.dbName := fun op' hMem =>
      hOps op' (List.mem_cons_of_mem _ hMem)
    have hStep : Agree (views (op.exec db)) (op.apply (views db)) := fun dbName hName =>
      views_exec db op (hOps op List.mem_cons_self) hName
    exact (ih (op.exec db) hRest).trans (hStep.foldl_apply hRest)

end Simulation

section Reads

variable {db : DB} {dbName : Bytes}

theorem get_eq_views (db : DB) (dbName key : Bytes) :
    get db dbName key = (views db dbName).get? key := by
  rw [views, SortedMap.get?_under]
  rfl

theorem levelRange_iff (dbName : Bytes) (startKey endKey : Option Bytes) (k : Bytes) :
    (constructLevelKey dbName (startKey.getD []) ≤ (dbName ++ dbNameKeySep) ++ k ∧
      (dbName ++ dbNameKeySep) ++ k < levelEnd dbName endKey) ↔
      inBounds startKey endKey k = true := by
  rw [constructLevelKey_eq, append_le_append_left_iff, inBounds, Bool.and_eq_true,
    decide_eq_true_iff]
  apply and_congr_right
  intro _
  cases endKey with
  | none =>
    rw [levelEnd, dbNameKeySep, List.append_assoc, append_lt_append_left_iff, List.singleton_append,
      lastKeyIndicator, Option.all_none]
    exact iff_of_true (List.cons_lt_cons_iff.2 (.inl (by decide))) rfl
  | some endKey =>
    rw [levelEnd, constructLevelKey_eq, append_lt_append_left_iff, Option.all_some,
      decide_eq_true_iff]

theorem rest_getIterator (db : DB) (dbName : Bytes) (startKey endKey : Option Bytes) :
    (getIterator db dbName startKey endKey).iterator.rest =
      (getIterator db dbName startKey endKey).iterator.entries :=
  List.drop_zero

theorem map_entries_getIterator (db : DB) (dbName : Bytes) (startKey endKey : Option Bytes) :
    (getIterator db dbName startKey endKey).iterator.entries.map
        (fun e => (e.1.drop (dbName ++ dbNameKeySep).length, e.2)) =
      (views db dbName).scan (inBounds startKey endKey) := by
  simp only [getIterator_eq, SortedMap.iterator, views]
  apply SortedMap.scan_map_drop
  · intro k hRange
    simp only [decide_eq_true_eq] at hRange
    exact prefix_of_mem_levelRange _ endKey hRange.1 hRange.2
  · intro k
    rw [Bool.eq_iff_iff, ← levelRange_iff dbName startKey endKey k]
    simp only [decide_eq_true_eq]

theorem yields_readEntry {itr : Iterator} (hName : (0 : UInt8) ∉ itr.dbName)
    (hUnder : ∀ e ∈ itr.iterator.rest, itr.dbName ++ dbNameKeySep <+: e.1) :
    Yields Iterator.readEntry itr
      (itr.iterator.rest.map fun e => (e.1.drop (itr.dbName ++ dbNameKeySep).length, e.2)) := by
  generalize hRest : itr.iterator.rest = rest at hUnder
  induction rest generalizing itr with
  | nil =>
    obtain ⟨hCurrent, -⟩ := KVStore.Iterator.next_of_rest_nil hRest
    have hStep : itr.readEntry = .ok (none, itr.next.1) := by
      simp [Iterator.readEntry, Iterator.next, hCurrent, pure, Except.pure]
    exact .done hStep
  | cons e r ih =>
    obtain ⟨hCurrent, hRest'⟩ := KVStore.Iterator.next_of_rest_cons hRest
    obtain ⟨key, hKey⟩ := hUnder e List.mem_cons_self
    have hStep : itr.readEntry = .ok (some (key, e.2), itr.next.1) := by
      have hRead : retrieveAppKey e.1 = .ok key := by
        rw [← hKey, ← constructLevelKey_eq, retrieveAppKey_constructLevelKey hName]
      simp [Iterator.readEntry, Iterator.next, Iterator.key, Iterator.value, hCurrent, hRead,
        bind, Except.bind, pure, Except.pure]
    rw [List.map_cons, ← hKey, List.drop_left]
    exact .more hStep (ih hName hRest' fun e' hMem => hUnder e' (List.mem_cons_of_mem _ hMem))

theorem seekReads_seek {itr : Iterator} (hName : (0 : UInt8) ∉ itr.dbName)
    (hUnder : ∀ e ∈ itr.iterator.entries, itr.dbName ++ dbNameKeySep <+: e.1) (key : Bytes) :
    SeekReads (itr.seek key)
      (((itr.iterator.seek (constructLevelKey itr.dbName key)).prev.rest).map
        fun e => (e.1.drop (itr.dbName ++ dbNameKeySep).length, e.2)) := by
  have hSame := KVStore.Iterator.next_prev_seek itr.iterator (constructLevelKey itr.dbName key)
  cases hRest : (itr.iterator.seek (constructLevelKey itr.dbName key)).prev.rest with
  | nil =>
    obtain ⟨hCurrent, -⟩ := KVStore.Iterator.next_of_rest_nil hRest
    rw [hSame] at hCurrent
    simp [SeekReads, Iterator.seek, hCurrent]
  | cons e r =>
    obtain ⟨hCurrent, hRest'⟩ := KVStore.Iterator.next_of_rest_cons hRest
    rw [hSame] at hCurrent hRest'
    have hEntries : ∀ x ∈ (itr.seek key).1.iterator.rest, itr.dbName ++ dbNameKeySep <+: x.1 :=
      fun x hx => hUnder x (List.mem_of_mem_drop hx)
    have hMem : e ∈ (itr.iterator.seek (constructLevelKey itr.dbName key)).entries :=
      KVStore.Iterator.mem_of_current? hCurrent
    obtain ⟨k, hk⟩ := hUnder e hMem
    have hRead : retrieveAppKey e.1 = .ok k := by
      rw [← hk, ← constructLevelKey_eq, retrieveAppKey_constructLevelKey hName]
    refine ⟨by simp [Iterator.seek, hCurrent], ?_, ?_, ?_⟩
    · simp only [Iterator.seek, Iterator.key, hCurrent, Option.map_some, Option.getD_some]
      rw [hRead, ← hk, List.drop_left]
    · simp [Iterator.seek, Iterator.value, hCurrent]
    · have hYields := @yields_readEntry (itr.seek key).1 hName hEntries
      simp only [Iterator.seek] at hYields hRest' ⊢
      rw [hRest'] at hYields
      exact hYields

theorem seekReads_getIterator (db : DB) {dbName : Bytes} (hName : (0 : UInt8) ∉ dbName)
    (startKey endKey : Option Bytes) (key : Bytes) :
    SeekReads ((getIterator db dbName startKey endKey).seek key)
      ((views db dbName).scan fun k => decide (key ≤ k) && inBounds startKey endKey k) := by
  have h := @seekReads_seek (getIterator db dbName startKey endKey) hName
    (fun e hMem => prefix_of_mem_entries_getIterator db dbName startKey endKey hMem) key
  have hOut : ((((getIterator db dbName startKey endKey).iterator.seek
        (constructLevelKey dbName key)).prev.rest).map
        fun e => (e.1.drop (dbName ++ dbNameKeySep).length, e.2)) =
      (views db dbName).scan fun k => decide (key ≤ k) && inBounds startKey endKey k := by
    rw [KVStore.Iterator.rest_prev_seek, SortedMap.dropWhile_lt_eq_filter (KVStore.Iterator.sorted _),
      views]
    simp only [getIterator_eq, SortedMap.iterator]
    rw [SortedMap.filter_scan db _ fun k => decide (constructLevelKey dbName key ≤ k)]
    apply SortedMap.scan_map_drop
    · intro k hRange
      simp only [Bool.and_eq_true, decide_eq_true_eq] at hRange
      exact prefix_of_mem_levelRange _ endKey hRange.2.1 hRange.2.2
    · intro k
      rw [Bool.eq_iff_iff]
      simp only [Bool.and_eq_true, decide_eq_true_eq]
      rw [constructLevelKey_eq dbName key, append_le_append_left_iff, levelRange_iff]
  exact hOut ▸ h

theorem isEmpty_iff (db : DB) (dbName : Bytes) :
    isEmpty db dbName = true ↔ (views db dbName).entries = [] := by
  have hAll : (views db dbName).scan (inBounds none none) = (views db dbName).entries :=
    SortedMap.scan_eq_entries _ fun k _ _ => by simpa [inBounds] using le_append [] k
  rw [← hAll, ← map_entries_getIterator, ← rest_getIterator, isEmpty, Iterator.next]
  cases hRest : (getIterator db dbName none none).iterator.rest with
  | nil =>
    obtain ⟨hCurrent, -⟩ := KVStore.Iterator.next_of_rest_nil hRest
    simp [hCurrent]
  | cons e r =>
    obtain ⟨hCurrent, -⟩ := KVStore.Iterator.next_of_rest_cons hRest
    simp [hCurrent]

end Reads

/-- After any run of calls on handles whose names have no `0x00`, each such handle behaves as
its own sorted map, the one the abstract calls build from the maps the handles started with:
it sees that map, `Get` reads it, an iterator reads the range of it its bounds select with the
name taken off the keys, `Seek` lands inside it, and `IsEmpty` tests it. -/
theorem dbHandles_behave_as_independent_maps (db : DB) (ops : List Op)
    (hOps : ∀ op ∈ ops, (0 : UInt8) ∉ op.dbName) (dbName : Bytes) (hName : (0 : UInt8) ∉ dbName) :
    views (ops.foldl Op.exec db) dbName = ops.foldl Op.apply (views db) dbName ∧
    (∀ key, get (ops.foldl Op.exec db) dbName key =
      (ops.foldl Op.apply (views db) dbName).get? key) ∧
    (∀ startKey endKey, Yields Iterator.readEntry
      (getIterator (ops.foldl Op.exec db) dbName startKey endKey)
      ((ops.foldl Op.apply (views db) dbName).scan (inBounds startKey endKey))) ∧
    (∀ startKey endKey key,
      SeekReads ((getIterator (ops.foldl Op.exec db) dbName startKey endKey).seek key)
        ((ops.foldl Op.apply (views db) dbName).scan
          fun k => decide (key ≤ k) && inBounds startKey endKey k)) ∧
    (isEmpty (ops.foldl Op.exec db) dbName = true ↔
      (ops.foldl Op.apply (views db) dbName).entries = []) := by
  have hView := views_execAll db hOps dbName hName
  refine ⟨hView, fun key => ?_, fun startKey endKey => ?_, fun startKey endKey key => ?_, ?_⟩
  · rw [get_eq_views, hView]
  · rw [← hView, ← map_entries_getIterator, ← rest_getIterator]
    exact yields_readEntry hName fun e hMem =>
      prefix_of_mem_entries_getIterator _ _ _ _ (List.mem_of_mem_drop hMem)
  · rw [← hView]
    exact seekReads_getIterator _ hName _ _ _
  · rw [← hView]
    exact isEmpty_iff _ _

theorem dbHandles_behave_as_independent_maps_after_drop :
    (∀ op ∈ [Op.put [0x61] [1] [2], Op.drop [0x62]], (0 : UInt8) ∉ op.dbName) ∧
    (0 : UInt8) ∉ [0x61] ∧
    views ([Op.put [0x61] [1] [2], Op.drop [0x62]].foldl Op.exec .empty) [0x61] =
      [Op.put [0x61] [1] [2], Op.drop [0x62]].foldl Op.apply (views .empty) [0x61] ∧
    (∀ key, get ([Op.put [0x61] [1] [2], Op.drop [0x62]].foldl Op.exec .empty) [0x61] key =
      ([Op.put [0x61] [1] [2], Op.drop [0x62]].foldl Op.apply (views .empty) [0x61]).get? key) ∧
    (∀ startKey endKey, Yields Iterator.readEntry
      (getIterator ([Op.put [0x61] [1] [2], Op.drop [0x62]].foldl Op.exec .empty) [0x61]
        startKey endKey)
      (([Op.put [0x61] [1] [2], Op.drop [0x62]].foldl Op.apply (views .empty) [0x61]).scan
        (inBounds startKey endKey))) ∧
    (∀ startKey endKey key,
      SeekReads ((getIterator ([Op.put [0x61] [1] [2], Op.drop [0x62]].foldl Op.exec .empty)
          [0x61] startKey endKey).seek key)
        (([Op.put [0x61] [1] [2], Op.drop [0x62]].foldl Op.apply (views .empty) [0x61]).scan
          fun k => decide (key ≤ k) && inBounds startKey endKey k)) ∧
    (isEmpty ([Op.put [0x61] [1] [2], Op.drop [0x62]].foldl Op.exec .empty) [0x61] = true ↔
      ([Op.put [0x61] [1] [2], Op.drop [0x62]].foldl Op.apply (views .empty) [0x61]).entries =
        []) :=
  ⟨by decide, by decide,
    dbHandles_behave_as_independent_maps .empty _ (by decide) [0x61] (by decide)⟩

end FabricPeer.Leveldbhelper
