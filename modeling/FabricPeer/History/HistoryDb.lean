import FabricPeer.History.KvEncoding
import FabricPeer.Lib.SortedMap

/-! # The history database

`history.DB.Commit` puts one record per write of each valid endorser transaction of a block, keyed
by `constructDataKey` with an empty value, and the block's savepoint, in one batch.
`QueryExecutor.GetHistoryForKey` iterates the range of one namespace and key from its last key
back to its first, and `historyScanner.Next` reads the height of each record before it fetches the
transaction from the block store; the heights are what is modelled of the scanner here.

Every key of the database is the savepoint or a record of a namespace without `0x00`
(`KeysWellFormed`), and `Commit` keeps it so. From that the scan of a namespace and key reads the
heights of their records and of no others, newest first (`getHistoryForKey_spec`).
-/

namespace FabricPeer.History

open FabricPeer.Ledger ByteOrder KVStore GoRun

set_option autoImplicit false

structure HistoryTx where
  isInvalid : Bool
  isEndorserTx : Bool
  txRWSet : TxRwSet
  deriving DecidableEq, Repr

structure HistoryBlock where
  number : UInt64
  txs : List HistoryTx
  deriving DecidableEq, Repr

/-- The LevelDB database of the channel's history. -/
abbrev HistoryDB := SortedMap Bytes Bytes

def txDataKeys (blockNo tranNo : UInt64) (txRWSet : TxRwSet) : List Bytes :=
  txRWSet.nsRwSets.flatMap fun nsRWSet =>
    nsRWSet.kvRwSet.writes.map fun kvWrite =>
      constructDataKey (goBytes nsRWSet.nameSpace) (goBytes kvWrite.key) blockNo tranNo

/-- The loop of `Commit` over the transactions from number `tranNo` on: the keys of the records,
and the number after the last transaction. -/
def dataKeysFrom (blockNo : UInt64) : UInt64 → List HistoryTx → List Bytes × UInt64
  | tranNo, [] => ([], tranNo)
  | tranNo, tx :: txs =>
    let dataKeys :=
      if tx.isInvalid then []
      else if tx.isEndorserTx then txDataKeys blockNo tranNo tx.txRWSet
      else []
    let (rest, tranNo') := dataKeysFrom blockNo (tranNo + 1) txs
    (dataKeys ++ rest, tranNo')

/-- `DB.Commit`, its unmarshalling of the block's envelopes taken as done. -/
def HistoryDB.commit (db : HistoryDB) (block : HistoryBlock) : HistoryDB :=
  let (dataKeys, tranNo) := dataKeysFrom block.number 0 block.txs
  let height : Height := ⟨block.number, tranNo⟩
  db.writeBatch ((dataKeys.map fun dataKey => (dataKey, emptyValue)) ++
    [(savePointKey, height.toBytes)] |>.map fun e => .put e.1 e.2)

/-- The database after committing `blocks` in turn to an empty one. -/
def commitBlocks (blocks : List HistoryBlock) : HistoryDB := blocks.foldl HistoryDB.commit .empty

/-- `GetHistoryForKey` and the scanner's `Next` up to the block store: the heights of the records
in the range, newest first. -/
def getHistoryForKey (db : HistoryDB) (ns key : Bytes) : Except String (List (UInt64 × UInt64)) :=
  let rangeScan := constructRangeScan ns key
  let dbItr := (db.scan rangeScan.contains).reverse
  dbItr.mapM fun e => rangeScan.decodeBlockNumTranNum e.1

def IsRecordKey (k : Bytes) : Prop :=
  ∃ ns key b t, 0 ∉ ns ∧ key.length < 2 ^ 64 ∧ k = constructDataKey ns key b t

def KeysWellFormed (db : HistoryDB) : Prop :=
  ∀ k v, db.get? k = some v → k = savePointKey ∨ IsRecordKey k

def HistoryBlock.WellFormed (block : HistoryBlock) : Prop :=
  ∀ tx ∈ block.txs, ∀ nsRWSet ∈ tx.txRWSet.nsRwSets, 0 ∉ goBytes nsRWSet.nameSpace ∧
    ∀ kvWrite ∈ nsRWSet.kvRwSet.writes, (goBytes kvWrite.key).length < 2 ^ 64

section Commit

theorem mem_txDataKeys {blockNo tranNo : UInt64} {txRWSet : TxRwSet} {k : Bytes}
    (h : k ∈ txDataKeys blockNo tranNo txRWSet) :
    ∃ nsRWSet ∈ txRWSet.nsRwSets, ∃ kvWrite ∈ nsRWSet.kvRwSet.writes,
      k = constructDataKey (goBytes nsRWSet.nameSpace) (goBytes kvWrite.key) blockNo tranNo := by
  obtain ⟨nsRWSet, hNs, hMem⟩ := List.mem_flatMap.1 h
  obtain ⟨kvWrite, hWrite, rfl⟩ := List.mem_map.1 hMem
  exact ⟨nsRWSet, hNs, kvWrite, hWrite, rfl⟩

theorem isRecordKey_of_mem_dataKeysFrom {blockNo : UInt64} {txs : List HistoryTx}
    (hTxs : ∀ tx ∈ txs, ∀ nsRWSet ∈ tx.txRWSet.nsRwSets, 0 ∉ goBytes nsRWSet.nameSpace ∧
      ∀ kvWrite ∈ nsRWSet.kvRwSet.writes, (goBytes kvWrite.key).length < 2 ^ 64)
    (tranNo : UInt64) {k : Bytes} (h : k ∈ (dataKeysFrom blockNo tranNo txs).1) : IsRecordKey k := by
  induction txs generalizing tranNo with
  | nil => cases h
  | cons tx txs ih =>
    rw [dataKeysFrom, List.mem_append] at h
    rcases h with hHere | hRest
    · have hWritten : k ∈ txDataKeys blockNo tranNo tx.txRWSet := by
        split at hHere
        · cases hHere
        · split at hHere
          · exact hHere
          · cases hHere
      obtain ⟨nsRWSet, hNs, kvWrite, hWrite, rfl⟩ := mem_txDataKeys hWritten
      have hWf := hTxs tx List.mem_cons_self nsRWSet hNs
      exact ⟨_, _, _, _, hWf.1, hWf.2 kvWrite hWrite, rfl⟩
    · exact ih (fun tx' hTx => hTxs tx' (List.mem_cons_of_mem _ hTx)) _ hRest

theorem HistoryDB.get?_commit_eq_some {db : HistoryDB} {block : HistoryBlock} {k v : Bytes}
    (h : (db.commit block).get? k = some v) :
    k ∈ (dataKeysFrom block.number 0 block.txs).1 ∨ k = savePointKey ∨ db.get? k = some v := by
  rcases SortedMap.get?_writeBatch_eq_some _ _ h with hPut | hOld
  · obtain ⟨e, hMem, hEq⟩ := List.mem_map.1 hPut
    obtain ⟨rfl, rfl⟩ := BatchOp.put.inj hEq
    rcases List.mem_append.1 hMem with hData | hSave
    · obtain ⟨dataKey, hKey, rfl⟩ := List.mem_map.1 hData
      exact .inl hKey
    · obtain rfl := List.mem_singleton.1 hSave
      exact .inr (.inl rfl)
  · exact .inr (.inr hOld)

theorem KeysWellFormed.commit {db : HistoryDB} (hDb : KeysWellFormed db) {block : HistoryBlock}
    (hBlock : block.WellFormed) : KeysWellFormed (db.commit block) := by
  intro k v h
  rcases HistoryDB.get?_commit_eq_some h with hData | hSave | hOld
  · exact .inr (isRecordKey_of_mem_dataKeysFrom hBlock 0 hData)
  · exact .inl hSave
  · exact hDb k v hOld

theorem keysWellFormed_empty : KeysWellFormed (.empty : HistoryDB) := by
  intro k v h
  cases h

theorem keysWellFormed_commitBlocks {blocks : List HistoryBlock}
    (hBlocks : ∀ block ∈ blocks, block.WellFormed) : KeysWellFormed (commitBlocks blocks) := by
  unfold commitBlocks
  generalize hInit : (SortedMap.empty : HistoryDB) = init
  have hInv : KeysWellFormed init := hInit ▸ keysWellFormed_empty
  clear hInit
  induction blocks generalizing init with
  | nil => exact hInv
  | cons block blocks ih =>
    rw [List.foldl_cons]
    exact ih (fun b hb => hBlocks b (List.mem_cons_of_mem _ hb)) _
      (hInv.commit (hBlocks block List.mem_cons_self))

theorem HistoryDB.isSome_get?_commit (db : HistoryDB) (block : HistoryBlock) {k : Bytes}
    (hSave : k ≠ savePointKey) :
    ((db.commit block).get? k).isSome ↔
      k ∈ (dataKeysFrom block.number 0 block.txs).1 ∨ (db.get? k).isSome := by
  dsimp only [HistoryDB.commit]
  rw [SortedMap.isSome_get?_writeBatch_puts]
  simp [hSave]

theorem isSome_get?_foldl_commit (init : HistoryDB) (blocks : List HistoryBlock) {k : Bytes}
    (hSave : k ≠ savePointKey) :
    ((blocks.foldl HistoryDB.commit init).get? k).isSome ↔
      (∃ block ∈ blocks, k ∈ (dataKeysFrom block.number 0 block.txs).1) ∨ (init.get? k).isSome := by
  induction blocks generalizing init with
  | nil => simp
  | cons block blocks ih =>
    rw [List.foldl_cons, ih, HistoryDB.isSome_get?_commit _ _ hSave, List.exists_mem_cons_iff,
      or_assoc]
    exact or_left_comm

theorem isSome_get?_commitBlocks (blocks : List HistoryBlock) {k : Bytes} (hSave : k ≠ savePointKey) :
    ((commitBlocks blocks).get? k).isSome ↔
      ∃ block ∈ blocks, k ∈ (dataKeysFrom block.number 0 block.txs).1 := by
  rw [commitBlocks, isSome_get?_foldl_commit _ _ hSave, SortedMap.get?_empty, Option.isSome_none,
    Bool.false_eq_true, or_false]

end Commit

section Scan

variable {db : HistoryDB} {ns key : Bytes}

theorem constructDataKey_ne_savePointKey (ns key : Bytes) (b t : UInt64) :
    constructDataKey ns key b t ≠ savePointKey := by
  intro h
  have hLen := congrArg List.length h
  rw [constructDataKey_eq, encodeOrderPreservingVarUint64_eq] at hLen
  simp only [savePointKey, List.length_append, List.length_cons] at hLen
  omega

theorem eq_constructDataKey_of_mem_scan (hDb : KeysWellFormed db) (hNs : 0 ∉ ns)
    (hKey : key.length < 2 ^ 64) {e : Bytes × Bytes} (hMem : e ∈ db.scan (constructRangeScan ns key).contains) :
    ∃ b t, e.1 = constructDataKey ns key b t := by
  obtain ⟨hGet, hRange⟩ := (SortedMap.mem_scan _ _ _ _).1 hMem
  rcases hDb _ _ hGet with hSave | ⟨ns', key', b, t, hNs', hKey', hEq⟩
  · rw [hSave, savePointKey_not_mem_range] at hRange
    cases hRange
  · rw [hEq] at hRange
    obtain ⟨rfl, rfl⟩ := eq_of_mem_range hNs hNs' hKey hKey' hRange
    exact ⟨b, t, hEq⟩

def heightOf (ns key : Bytes) (e : Bytes × Bytes) : UInt64 × UInt64 :=
  (((constructRangeScan ns key).decodeBlockNumTranNum e.1).toOption).getD (0, 0)

theorem heightOf_constructDataKey (ns key : Bytes) (b t : UInt64) (v : Bytes) :
    heightOf ns key (constructDataKey ns key b t, v) = (b, t) := by
  rw [heightOf, decodeBlockNumTranNum_constructDataKey]
  rfl

theorem getHistoryForKey_spec (hDb : KeysWellFormed db) (hNs : 0 ∉ ns) (hKey : key.length < 2 ^ 64) :
    ∃ heights, getHistoryForKey db ns key = .ok heights ∧
      (∀ b t, (b, t) ∈ heights ↔ (db.get? (constructDataKey ns key b t)).isSome) ∧
      heights.Pairwise fun p q => (Height.mk q.1 q.2).lexLt ⟨p.1, p.2⟩ := by
  set scanned := db.scan (constructRangeScan ns key).contains with hScanned
  have hRecords : ∀ e ∈ scanned, ∃ b t, e.1 = constructDataKey ns key b t :=
    fun e hMem => eq_constructDataKey_of_mem_scan hDb hNs hKey hMem
  have hRead : ∀ e ∈ scanned.reverse,
      (constructRangeScan ns key).decodeBlockNumTranNum e.1 = .ok (heightOf ns key e) := by
    intro e hMem
    obtain ⟨b, t, hEq⟩ := hRecords e (List.mem_reverse.1 hMem)
    obtain ⟨k, v⟩ := e
    simp only at hEq
    subst hEq
    rw [heightOf_constructDataKey, decodeBlockNumTranNum_constructDataKey]
  refine ⟨scanned.reverse.map (heightOf ns key), mapM_eq_ok_map _ _ _ hRead, ?_, ?_⟩
  · intro b t
    constructor
    · rintro hMem
      obtain ⟨e, hScan, hHeight⟩ := List.mem_map.1 hMem
      obtain ⟨b', t', hEq⟩ := hRecords e (List.mem_reverse.1 hScan)
      obtain ⟨k, v⟩ := e
      simp only at hEq
      subst hEq
      rw [heightOf_constructDataKey, Prod.mk.injEq] at hHeight
      obtain ⟨rfl, rfl⟩ := hHeight
      rw [hScanned, List.mem_reverse, SortedMap.mem_scan] at hScan
      rw [hScan.1, Option.isSome_some]
    · intro hSome
      obtain ⟨v, hGet⟩ := Option.isSome_iff_exists.1 hSome
      have hScan : (constructDataKey ns key b t, v) ∈ scanned :=
        (SortedMap.mem_scan _ _ _ _).2 ⟨hGet, mem_range_constructDataKey ns key b t⟩
      exact List.mem_map.2 ⟨_, List.mem_reverse.2 hScan, heightOf_constructDataKey ns key b t v⟩
  · rw [List.pairwise_map, List.pairwise_reverse]
    apply (SortedMap.pairwise_scan _ _).imp_of_mem
    intro e e' hMem hMem' hLt
    obtain ⟨b, t, hEq⟩ := hRecords e hMem
    obtain ⟨b', t', hEq'⟩ := hRecords e' hMem'
    obtain ⟨k, v⟩ := e
    obtain ⟨k', v'⟩ := e'
    simp only at hEq hEq' hLt
    subst hEq hEq'
    rw [heightOf_constructDataKey, heightOf_constructDataKey]
    exact (constructDataKey_lt_iff ns key b t b' t').1 hLt

theorem getHistoryForKey_commitBlocks {blocks : List HistoryBlock}
    (hBlocks : ∀ block ∈ blocks, block.WellFormed) (hNs : 0 ∉ ns) (hKey : key.length < 2 ^ 64) :
    ∃ heights, getHistoryForKey (commitBlocks blocks) ns key = .ok heights ∧
      (∀ b t, (b, t) ∈ heights ↔
        ∃ block ∈ blocks, constructDataKey ns key b t ∈ (dataKeysFrom block.number 0 block.txs).1) ∧
      heights.Pairwise fun p q => (Height.mk q.1 q.2).lexLt ⟨p.1, p.2⟩ := by
  obtain ⟨heights, hRun, hMem, hOrder⟩ :=
    getHistoryForKey_spec (keysWellFormed_commitBlocks hBlocks) hNs hKey
  refine ⟨heights, hRun, fun b t => ?_, hOrder⟩
  rw [hMem, isSome_get?_commitBlocks _ (constructDataKey_ne_savePointKey ns key b t)]

end Scan

/-- The records of a namespace and key are isolated in their range, ordered there by height and
read back, so that the history of a key after any commits is its own writes, newest first. -/
theorem history_range_isolates_key_newest_first :
    (∀ (ns ns' key key' : Bytes) (b t : UInt64), 0 ∉ ns → 0 ∉ ns' → key.length < 2 ^ 64 →
      key'.length < 2 ^ 64 →
      ((constructRangeScan ns key).contains (constructDataKey ns' key' b t) ↔
        ns' = ns ∧ key' = key)) ∧
    (∀ (ns key : Bytes) (b1 t1 b2 t2 : UInt64),
      constructDataKey ns key b1 t1 < constructDataKey ns key b2 t2 ↔
        (Height.mk b1 t1).lexLt ⟨b2, t2⟩) ∧
    (∀ (ns key : Bytes) (b t : UInt64),
      (constructRangeScan ns key).decodeBlockNumTranNum (constructDataKey ns key b t) = .ok (b, t)) ∧
    (∀ blocks : List HistoryBlock, (∀ block ∈ blocks, block.WellFormed) →
      ∀ ns key : Bytes, 0 ∉ ns → key.length < 2 ^ 64 →
      ∃ heights, getHistoryForKey (commitBlocks blocks) ns key = .ok heights ∧
        (∀ b t, (b, t) ∈ heights ↔
          ∃ block ∈ blocks, constructDataKey ns key b t ∈ (dataKeysFrom block.number 0 block.txs).1) ∧
        heights.Pairwise fun p q => (Height.mk q.1 q.2).lexLt ⟨p.1, p.2⟩) := by
  refine ⟨?_, constructDataKey_lt_iff, decodeBlockNumTranNum_constructDataKey, ?_⟩
  · intro ns ns' key key' b t hNs hNs' hKey hKey'
    exact mem_range_iff b t hNs hNs' hKey hKey'
  · intro blocks hBlocks ns key hNs hKey
    exact getHistoryForKey_commitBlocks hBlocks hNs hKey

end FabricPeer.History
