import FabricPeer.Pvtdatastorage.StoreSpec
import FabricPeer.Ledger.OrderPreserving
import FabricPeer.Lib.Transition

/-! # What `GetPvtDataByBlockNum` returns after a run of commits

The read of a block scans the data keys of the block in key order (transaction, namespace,
collection), skips what has expired or what the filter leaves out, removes from each write set
the writes a purge marker covers, and assembles the rest into one `TxPvtData` per transaction.
Two things are shown here. The assembly of entries of one block in key order groups them as the
result should be grouped (`assembleBlockPvtdata_grouped`). And the purge filter of the read, which
first asks the marker of the collection and then the marker of each key with `Height.Compare`,
removes exactly the writes covered by a marker at or above the height of their transaction, as
long as the markers `Commit` left stand below their collection's marker and every height is
below `2^63`; from there on `Compare` wraps, and a marker of transaction `2^63 + 1` no longer
covers transaction 0 of its block. The invariant `ReadInv` holds along every run of such commits.
-/

namespace FabricPeer.Pvtdatastorage

open FabricPeer.Ledger GoRun KVStore Transition

set_option autoImplicit false

/-! ## The purge filter -/

def DataKey.height (k : DataKey) : Height := ⟨k.blkNum, k.txNum⟩

def DB.coveredByPurgeMarker (db : DB) (computeStringHash : KeyHasher) (k : DataKey) (w : KVWrite) :
    Bool :=
  match db.purgeMarkers.get? ⟨k.ns, k.coll, computeStringHash w.key⟩ with
  | none => false
  | some purgeMarkerHt => !decide (purgeMarkerHt.lexLt k.height)

structure DB.MarkersBelowColl (db : DB) : Prop where
  markers : ∀ pk m, db.purgeMarkers.get? pk = some m →
    m.BelowHalf ∧ ∃ cm, db.purgeMarkerColls.get? ⟨pk.ns, pk.coll⟩ = some cm ∧ ¬ cm.lexLt m
  collMarkers : ∀ ck cm, db.purgeMarkerColls.get? ck = some cm → cm.BelowHalf

section Purge

variable (computeStringHash : KeyHasher) {db : DB}

theorem writeNotPurged_eq_not_covered (h : db.MarkersBelowColl) {k : DataKey}
    (hk : k.height.BelowHalf) (w : KVWrite) :
    db.writeNotPurged computeStringHash k w = !db.coveredByPurgeMarker computeStringHash k w := by
  unfold DB.writeNotPurged DB.coveredByPurgeMarker
  cases hGet : db.purgeMarkers.get? ⟨k.ns, k.coll, computeStringHash w.key⟩ with
  | none => rfl
  | some m =>
    have hm := (h.markers _ m hGet).1
    simp only [Bool.not_not, decide_eq_decide]
    exact Height.compare_pos_iff hk hm

theorem not_covered_of_not_keyPotentiallyPurged (h : db.MarkersBelowColl) {k : DataKey}
    (hk : k.height.BelowHalf) (hNot : db.keyPotentiallyPurged k = false) (w : KVWrite) :
    db.coveredByPurgeMarker computeStringHash k w = false := by
  unfold DB.coveredByPurgeMarker
  cases hGet : db.purgeMarkers.get? ⟨k.ns, k.coll, computeStringHash w.key⟩ with
  | none => rfl
  | some m =>
    obtain ⟨hm, cm, hColl, hBelow⟩ := h.markers _ m hGet
    have hcm := h.collMarkers _ cm hColl
    have hCollLt : cm.lexLt k.height := by
      unfold DB.keyPotentiallyPurged at hNot
      simp only [hColl, decide_eq_false_iff_not] at hNot
      exact (Height.compare_pos_iff hk hcm).1 (lt_of_not_ge hNot)
    have hLt : m.lexLt k.height := by
      rw [Height.lexLt_iff_toNat] at hCollLt hBelow ⊢
      omega
    simpa using hLt

theorem removePurgedDataFromCollPvtRWset_eq (h : db.MarkersBelowColl) (k : DataKey)
    (hk : k.height.BelowHalf) (v : CollPvtRwSet) :
    db.removePurgedDataFromCollPvtRWset computeStringHash k v =
      { v with writes := v.writes.filter fun w => !db.coveredByPurgeMarker computeStringHash k w } := by
  unfold DB.removePurgedDataFromCollPvtRWset
  split
  · rename_i hNot
    have hAll : v.writes.filter (fun w => !db.coveredByPurgeMarker computeStringHash k w) =
        v.writes := by
      rw [List.filter_eq_self]
      intro w _
      simp [not_covered_of_not_keyPotentiallyPurged computeStringHash h hk (by simpa using hNot)]
    rw [hAll]
  · congr 1
    exact List.filter_congr fun w _ => writeNotPurged_eq_not_covered computeStringHash h hk w

end Purge

/-! ## The entries of a block -/

section Visible

variable (btlPolicy : BTLPolicy) (computeStringHash : KeyHasher)

def Store.keptEntry (s : Store) (filter : Option PvtNsCollFilter) (e : DataKey × CollPvtRwSet) :
    Option (DataKey × CollPvtRwSet) :=
  match isExpired btlPolicy e.1.nsCollBlk s.lastCommittedBlock with
  | .error _ => none
  | .ok expired =>
    if expired || !passesFilter e.1 filter then none
    else some (e.1, s.db.removePurgedDataFromCollPvtRWset computeStringHash e.1 e.2)

theorem visibleEntry_eq_keptEntry (s : Store) (filter : Option PvtNsCollFilter)
    (e : DataKey × CollPvtRwSet) {btl : UInt64} (hBtl : btlPolicy e.1.ns e.1.coll = .ok btl) :
    s.visibleEntry btlPolicy computeStringHash filter e =
      .ok (s.keptEntry btlPolicy computeStringHash filter e) := by
  simp only [Store.visibleEntry, Store.keptEntry,
    isExpired_of_btl btlPolicy e.1.nsCollBlk s.lastCommittedBlock btl hBtl, ok_bind]
  split <;> rfl

theorem keptEntry_eq_some_iff (s : Store) (filter : Option PvtNsCollFilter)
    (e r : DataKey × CollPvtRwSet) {btl : UInt64} (hBtl : btlPolicy e.1.ns e.1.coll = .ok btl) :
    s.keptEntry btlPolicy computeStringHash filter e = some r ↔
      s.lastCommittedBlock < computeExpiringBlock e.1.blkNum btl ∧ passesFilter e.1 filter = true ∧
        r = (e.1, s.db.removePurgedDataFromCollPvtRWset computeStringHash e.1 e.2) := by
  rw [Store.keptEntry, isExpired_of_btl btlPolicy e.1.nsCollBlk s.lastCommittedBlock btl hBtl]
  simp only [Option.ite_none_left_eq_some, Bool.or_eq_true, Bool.not_eq_true', not_or,
    Bool.not_eq_false, Option.some.injEq, DataKey.nsCollBlk, and_assoc]
  constructor
  · rintro ⟨hLive, hPass, rfl⟩
    exact ⟨UInt64.not_le.1 fun hLe => hLive (decide_eq_true hLe), hPass, rfl⟩
  · rintro ⟨hLive, hPass, rfl⟩
    exact ⟨fun hLe => UInt64.not_le.2 hLive (of_decide_eq_true hLe), hPass, rfl⟩

theorem inBlock_iff (blockNum : UInt64) (hRoom : blockNum < maxUint64) (k : DataKey) :
    (!heightLt (k.blkNum, k.txNum) (blockNum, 0) &&
      heightLt (k.blkNum, k.txNum) (blockNum + 1, 0)) = true ↔ k.blkNum = blockNum := by
  have hNext := toNat_add_one_of_lt blockNum hRoom
  simp only [heightLt, Bool.and_eq_true, Bool.not_eq_true', Bool.or_eq_false_iff, Bool.or_eq_true,
    decide_eq_true_eq, decide_eq_false_iff_not, UInt64.lt_iff_toNat_lt, ← UInt64.toNat_inj, hNext, UInt64.toNat_zero, Nat.not_lt_zero, decide_false,
    Bool.and_false, and_true, Bool.false_eq_true, or_false]
  omega

theorem fst_of_keptEntry_eq_some {s : Store} {filter : Option PvtNsCollFilter}
    {e r : DataKey × CollPvtRwSet} (h : s.keptEntry btlPolicy computeStringHash filter e = some r) :
    r.1 = e.1 := by
  unfold Store.keptEntry at h
  split at h
  · cases h
  · split at h
    · cases h
    · cases h
      rfl

theorem visibleDataEntries_eq (s : Store) (blockNum : UInt64) (filter : Option PvtNsCollFilter)
    (hKnown : ∀ k v, s.db.data.get? k = some v → ∃ btl, btlPolicy k.ns k.coll = .ok btl) :
    s.visibleDataEntries btlPolicy computeStringHash blockNum filter =
      .ok ((s.db.data.scan fun k => !heightLt (k.blkNum, k.txNum) (blockNum, 0) &&
        heightLt (k.blkNum, k.txNum) (blockNum + 1, 0)).filterMap
          (s.keptEntry btlPolicy computeStringHash filter)) := by
  have hEach : ∀ e ∈ s.db.data.scan (fun k => !heightLt (k.blkNum, k.txNum) (blockNum, 0) &&
      heightLt (k.blkNum, k.txNum) (blockNum + 1, 0)),
      s.visibleEntry btlPolicy computeStringHash filter e =
        .ok (s.keptEntry btlPolicy computeStringHash filter e) := by
    rintro ⟨k, v⟩ hMem
    obtain ⟨btl, hBtl⟩ := hKnown k v ((SortedMap.mem_scan _ _ _ _).1 hMem).1
    exact visibleEntry_eq_keptEntry btlPolicy computeStringHash s filter (k, v) hBtl
  simp only [Store.visibleDataEntries]
  rw [mapM_eq_ok_map _ _ _ hEach]
  simp [List.reduceOption, List.filterMap_map]

theorem mem_keptEntries_iff (s : Store) (blockNum : UInt64) (hRoom : blockNum < maxUint64)
    (filter : Option PvtNsCollFilter)
    (hKnown : ∀ k v, s.db.data.get? k = some v → ∃ btl, btlPolicy k.ns k.coll = .ok btl)
    (k : DataKey) (c : CollPvtRwSet) :
    (k, c) ∈ (s.db.data.scan fun k => !heightLt (k.blkNum, k.txNum) (blockNum, 0) &&
        heightLt (k.blkNum, k.txNum) (blockNum + 1, 0)).filterMap
          (s.keptEntry btlPolicy computeStringHash filter) ↔
      ∃ v btl, s.db.data.get? k = some v ∧ k.blkNum = blockNum ∧ passesFilter k filter = true ∧
        btlPolicy k.ns k.coll = .ok btl ∧ s.lastCommittedBlock < computeExpiringBlock blockNum btl ∧
        c = s.db.removePurgedDataFromCollPvtRWset computeStringHash k v := by
  rw [List.mem_filterMap]
  constructor
  · rintro ⟨⟨k', v⟩, hMem, hKept⟩
    obtain ⟨hGet, hIn⟩ := (SortedMap.mem_scan _ _ _ _).1 hMem
    obtain ⟨btl, hBtl⟩ := hKnown k' v hGet
    obtain ⟨hLive, hPass, hEq⟩ :=
      (keptEntry_eq_some_iff btlPolicy computeStringHash s filter (k', v) (k, c) hBtl).1 hKept
    obtain ⟨rfl, rfl⟩ := Prod.mk.inj hEq
    obtain rfl := (inBlock_iff blockNum hRoom k).1 hIn
    exact ⟨v, btl, hGet, rfl, hPass, hBtl, hLive, rfl⟩
  · rintro ⟨v, btl, hGet, rfl, hPass, hBtl, hLive, rfl⟩
    refine ⟨(k, v), (SortedMap.mem_scan _ _ _ _).2 ⟨hGet, (inBlock_iff _ hRoom k).2 rfl⟩, ?_⟩
    exact (keptEntry_eq_some_iff btlPolicy computeStringHash s filter (k, v) _ hBtl).2
      ⟨hLive, hPass, rfl⟩

theorem pairwise_keptEntries (s : Store) (p : DataKey → Bool) (filter : Option PvtNsCollFilter) :
    ((s.db.data.scan p).filterMap (s.keptEntry btlPolicy computeStringHash filter)).Pairwise
      fun e e' => e.1 < e'.1 := by
  rw [List.pairwise_filterMap]
  refine (SortedMap.pairwise_scan _ _).imp fun {e e'} hLt r hr r' hr' => ?_
  rw [fst_of_keptEntry_eq_some btlPolicy computeStringHash hr,
    fst_of_keptEntry_eq_some btlPolicy computeStringHash hr']
  exact hLt

end Visible

/-! ## The assembly of a block's transactions -/

/-- The namespaces of a transaction as the assembler groups them: at least one, in increasing
order, each with at least one collection. -/
structure WriteSetGrouped (ws : List NsPvtRwSet) : Prop where
  nonempty : ws ≠ []
  sorted : ws.Pairwise fun a b => a.nameSpace < b.nameSpace
  collections : ∀ nsWset ∈ ws, nsWset.collectionPvtRwset ≠ []

theorem WriteSetGrouped.append_new {ws : List NsPvtRwSet} (h : WriteSetGrouped ws) {ns : String}
    (hAbove : ∀ nsWset ∈ ws, nsWset.nameSpace < ns) (c : CollPvtRwSet) :
    WriteSetGrouped (ws ++ [⟨ns, [c]⟩]) where
  nonempty := by simp
  sorted := List.pairwise_append.2 ⟨h.sorted, List.pairwise_singleton _ _,
    fun a ha b hb => by rw [List.mem_singleton.1 hb]; exact hAbove a ha⟩
  collections nsWset hMem := by
    rcases List.mem_append.1 hMem with hOld | hNew
    · exact h.collections nsWset hOld
    · rw [List.mem_singleton.1 hNew]
      simp

theorem WriteSetGrouped.extend_last {ws : List NsPvtRwSet} {cur : NsPvtRwSet}
    (h : WriteSetGrouped (ws ++ [cur])) (c : CollPvtRwSet) :
    WriteSetGrouped (ws ++ [{ cur with collectionPvtRwset := cur.collectionPvtRwset ++ [c] }]) where
  nonempty := by simp
  sorted := by
    obtain ⟨hWs, -, hBelow⟩ := List.pairwise_append.1 h.sorted
    exact List.pairwise_append.2 ⟨hWs, List.pairwise_singleton _ _,
      fun a ha b hb => by rw [List.mem_singleton.1 hb]; exact hBelow a ha cur (List.mem_singleton_self _)⟩
  collections nsWset hMem := by
    rcases List.mem_append.1 hMem with hOld | hNew
    · exact h.collections nsWset (List.mem_append_left _ hOld)
    · rw [List.mem_singleton.1 hNew]
      simp

theorem DataKey.lt_of_same_block {k k' : DataKey} (hBlock : k.blkNum = k'.blkNum) (hLt : k < k') :
    k.txNum < k'.txNum ∨ k.txNum = k'.txNum ∧ k.ns ≤ k'.ns := by
  change k.lexKey < k'.lexKey at hLt
  simp only [DataKey.lexKey, Prod.Lex.toLex_lt_toLex, hBlock, lt_irrefl, true_and, false_or] at hLt
  rcases hLt with hTx | ⟨hTx, hNs | ⟨hNs, -⟩⟩
  · exact .inl (UInt64.lt_iff_toNat_lt.2 hTx)
  · exact .inr ⟨UInt64.toNat_inj.1 hTx, le_of_lt hNs⟩
  · exact .inr ⟨UInt64.toNat_inj.1 hTx, le_of_eq hNs⟩

structure TxPvtdataAssembler.OpenAt (a : TxPvtdataAssembler) (k : DataKey) : Prop where
  txNum : a.txNum = k.txNum
  current : ∃ cur, a.currentNsWSet = some cur ∧ cur.nameSpace = k.ns
  grouped : WriteSetGrouped a.getTxPvtdata.writeSet

theorem openAt_add_new (blockNum : UInt64) (k : DataKey) (c : CollPvtRwSet) :
    ((newTxPvtdataAssembler blockNum k.txNum).add k.ns c).OpenAt k where
  txNum := rfl
  current := ⟨_, rfl, rfl⟩
  grouped := ⟨by simp [TxPvtdataAssembler.add, newTxPvtdataAssembler, TxPvtdataAssembler.getTxPvtdata],
    by simp [TxPvtdataAssembler.add, newTxPvtdataAssembler, TxPvtdataAssembler.getTxPvtdata],
    by simp [TxPvtdataAssembler.add, newTxPvtdataAssembler, TxPvtdataAssembler.getTxPvtdata]⟩

theorem TxPvtdataAssembler.OpenAt.add {a : TxPvtdataAssembler} {k k' : DataKey} (h : a.OpenAt k)
    (hTx : k.txNum = k'.txNum) (hNs : k.ns ≤ k'.ns) (c : CollPvtRwSet) :
    (a.add k'.ns c).OpenAt k' := by
  obtain ⟨hNum, ⟨cur, hCur, hName⟩, hGrouped⟩ := h
  have hWs : a.getTxPvtdata.writeSet = a.txWset ++ [cur] := by
    simp [TxPvtdataAssembler.getTxPvtdata, hCur]
  rw [hWs] at hGrouped
  unfold TxPvtdataAssembler.add
  rw [hCur]
  dsimp only
  by_cases hSame : cur.nameSpace = k'.ns
  · rw [if_neg (not_not.2 hSame)]
    refine ⟨hNum.trans hTx, ⟨_, rfl, hSame⟩, ?_⟩
    simpa [TxPvtdataAssembler.getTxPvtdata] using hGrouped.extend_last c
  · have hLt : cur.nameSpace < k'.ns := lt_of_le_of_ne (hName ▸ hNs) hSame
    rw [if_pos hSame]
    refine ⟨hNum.trans hTx, ⟨_, rfl, rfl⟩, ?_⟩
    have hAbove : ∀ nsWset ∈ a.txWset ++ [cur], nsWset.nameSpace < k'.ns := by
      intro nsWset hMem
      rcases List.mem_append.1 hMem with hOld | hLast
      · exact lt_trans ((List.pairwise_append.1 hGrouped.sorted).2.2 _ hOld cur
          (List.mem_singleton_self _)) hLt
      · rw [List.mem_singleton.1 hLast]
        exact hLt
    simpa [TxPvtdataAssembler.getTxPvtdata] using hGrouped.append_new hAbove c

@[simp] theorem seqInBlock_getTxPvtdata (a : TxPvtdataAssembler) :
    a.getTxPvtdata.seqInBlock = a.txNum := rfl

def AssembledUpTo : List TxPvtData × Option TxPvtdataAssembler → Option DataKey → Prop
  | acc, none => acc = ([], none)
  | (closed, current), some k => ∃ a, current = some a ∧ a.OpenAt k ∧
      closed.Pairwise (fun tx tx' => tx.seqInBlock < tx'.seqInBlock) ∧
      ∀ tx ∈ closed, WriteSetGrouped tx.writeSet ∧ tx.seqInBlock < k.txNum

theorem assembledUpTo_assembleEntry (blockNum : UInt64)
    {acc : List TxPvtData × Option TxPvtdataAssembler} {last : Option DataKey}
    (h : AssembledUpTo acc last) (e : DataKey × CollPvtRwSet)
    (hAfter : ∀ k ∈ last, k < e.1 ∧ k.blkNum = e.1.blkNum) :
    AssembledUpTo (assembleEntry blockNum acc e) (some e.1) := by
  cases last with
  | none =>
    cases h
    exact ⟨_, rfl, openAt_add_new blockNum e.1 e.2, List.Pairwise.nil, by simp⟩
  | some k =>
    obtain ⟨closed, current⟩ := acc
    obtain ⟨a, rfl, hOpen, hSorted, hClosed⟩ := h
    obtain ⟨hLt, hBlock⟩ := hAfter k rfl
    by_cases hTx : e.1.txNum = a.txNum
    · have hSameTx : k.txNum = e.1.txNum := hOpen.txNum ▸ hTx.symm
      have hNs : k.ns ≤ e.1.ns := by
        rcases DataKey.lt_of_same_block hBlock hLt with hTxLt | ⟨-, hNs⟩
        · exact absurd (hSameTx ▸ hTxLt) (UInt64.lt_irrefl _)
        · exact hNs
      simp only [assembleEntry, hTx, ne_eq, not_true_eq_false, if_false]
      exact ⟨_, rfl, hOpen.add hSameTx hNs e.2, hSorted,
        fun tx hMem => ⟨(hClosed tx hMem).1, hSameTx ▸ (hClosed tx hMem).2⟩⟩
    · have hTxLt : k.txNum < e.1.txNum := by
        rcases DataKey.lt_of_same_block hBlock hLt with hTxLt | ⟨hSameTx, -⟩
        · exact hTxLt
        · exact absurd (hOpen.txNum.trans hSameTx).symm hTx
      simp only [assembleEntry, hTx, ne_eq, not_false_eq_true, if_true]
      refine ⟨_, rfl, openAt_add_new blockNum e.1 e.2, ?_, ?_⟩
      · refine List.pairwise_append.2 ⟨hSorted, List.pairwise_singleton _ _, ?_⟩
        intro tx hMem tx' hLast
        rw [List.mem_singleton.1 hLast, seqInBlock_getTxPvtdata, hOpen.txNum]
        exact (hClosed tx hMem).2
      · intro tx hMem
        rcases List.mem_append.1 hMem with hOld | hLast
        · exact ⟨(hClosed tx hOld).1, UInt64.lt_trans (hClosed tx hOld).2 hTxLt⟩
        · rw [List.mem_singleton.1 hLast]
          rw [seqInBlock_getTxPvtdata, hOpen.txNum]
          exact ⟨hOpen.grouped, hTxLt⟩

theorem assembledUpTo_foldl (blockNum blkNum : UInt64) :
    ∀ (entries : List (DataKey × CollPvtRwSet)) (acc : List TxPvtData × Option TxPvtdataAssembler)
      (last : Option DataKey), AssembledUpTo acc last →
      entries.Pairwise (fun e e' => e.1 < e'.1) → (∀ e ∈ entries, e.1.blkNum = blkNum) →
      (∀ k ∈ last, k.blkNum = blkNum ∧ ∀ e ∈ entries, k < e.1) →
      ∃ last', AssembledUpTo (entries.foldl (assembleEntry blockNum) acc) last'
  | [], _, last, h, _, _, _ => ⟨last, h⟩
  | e :: es, acc, last, h, hSorted, hBlock, hLast => by
    have hBlockE := hBlock e List.mem_cons_self
    have hStep := assembledUpTo_assembleEntry blockNum h e fun k hk =>
      ⟨(hLast k hk).2 e List.mem_cons_self, (hLast k hk).1.trans hBlockE.symm⟩
    exact assembledUpTo_foldl blockNum blkNum es _ (some e.1) hStep (List.pairwise_cons.1 hSorted).2
      (fun e' he' => hBlock e' (List.mem_cons_of_mem _ he'))
      (fun k hk => by
        cases hk
        exact ⟨hBlockE, (List.pairwise_cons.1 hSorted).1⟩)

theorem closeAssembly_of_assembledUpTo {acc : List TxPvtData × Option TxPvtdataAssembler}
    {last : Option DataKey} (h : AssembledUpTo acc last) :
    (closeAssembly acc).Pairwise (fun tx tx' => tx.seqInBlock < tx'.seqInBlock) ∧
      ∀ tx ∈ closeAssembly acc, WriteSetGrouped tx.writeSet := by
  cases last with
  | none =>
    cases h
    simp [closeAssembly]
  | some k =>
    obtain ⟨closed, current⟩ := acc
    obtain ⟨a, rfl, hOpen, hSorted, hClosed⟩ := h
    simp only [closeAssembly, Option.map_some, Option.toList_some]
    refine ⟨List.pairwise_append.2 ⟨hSorted, List.pairwise_singleton _ _, ?_⟩, ?_⟩
    · intro tx hMem tx' hLast
      rw [List.mem_singleton.1 hLast, seqInBlock_getTxPvtdata, hOpen.txNum]
      exact (hClosed tx hMem).2
    · intro tx hMem
      rcases List.mem_append.1 hMem with hOld | hLast
      · exact (hClosed tx hOld).1
      · rw [List.mem_singleton.1 hLast]
        exact hOpen.grouped

theorem assembleBlockPvtdata_grouped (blockNum blkNum : UInt64)
    {entries : List (DataKey × CollPvtRwSet)} (hSorted : entries.Pairwise fun e e' => e.1 < e'.1)
    (hBlock : ∀ e ∈ entries, e.1.blkNum = blkNum) :
    (assembleBlockPvtdata blockNum entries).Pairwise (fun tx tx' => tx.seqInBlock < tx'.seqInBlock) ∧
      ∀ tx ∈ assembleBlockPvtdata blockNum entries, WriteSetGrouped tx.writeSet := by
  obtain ⟨last, hLast⟩ := assembledUpTo_foldl blockNum blkNum entries ([], none) none rfl hSorted
    hBlock (fun k hk => nomatch hk)
  exact closeAssembly_of_assembledUpTo hLast

/-! ## The markers of a commit -/

structure CollEntriesUpTo (blkNum : UInt64) (done : List PurgeMarker)
    (acc : List (PurgeMarkerKey × Height) × List (PurgeMarkerCollKey × Height) ×
      GoMap (String × String) Height) : Prop where
  visited : ∀ ns coll, acc.2.2.get? (ns, coll) = acc.2.1.reverse.lookup ⟨ns, coll⟩
  last : ∀ ck cm, acc.2.1.reverse.lookup ck = some cm → cm.blockNum = blkNum ∧ ∃ m ∈ done, cm.txNum = m.txNum
  above : ∀ m ∈ done, ∃ cm, acc.2.1.reverse.lookup ⟨m.ns, m.coll⟩ = some cm ∧
    m.txNum.toNat ≤ cm.txNum.toNat

theorem collEntriesUpTo_init (blkNum : UInt64) : CollEntriesUpTo blkNum [] ([], [], GoMap.empty) where
  visited _ _ := rfl
  last _ _ h := nomatch h
  above _ h := nomatch h

theorem PurgeMarkerCollKey.mk_eq_mk_iff (ns coll ns' coll' : String) :
    (⟨ns, coll⟩ : PurgeMarkerCollKey) = ⟨ns', coll'⟩ ↔ (ns, coll) = (ns', coll') := by
  simp only [PurgeMarkerCollKey.mk.injEq, Prod.mk.injEq]

theorem CollEntriesUpTo.addCollEntry {blkNum : UInt64} {done : List PurgeMarker}
    {keys : List (PurgeMarkerKey × Height)} {colls : List (PurgeMarkerCollKey × Height)}
    {visited : GoMap (String × String) Height} (h : CollEntriesUpTo blkNum done (keys, colls, visited))
    (m : PurgeMarker) (hPrev : ∀ vv, visited.get? (m.ns, m.coll) = some vv → vv.txNum.toNat ≤ m.txNum.toNat)
    (keys' : List (PurgeMarkerKey × Height)) :
    CollEntriesUpTo blkNum (done ++ [m]) (keys', colls ++ [(⟨m.ns, m.coll⟩, ⟨blkNum, m.txNum⟩)],
      visited.insert (m.ns, m.coll) ⟨blkNum, m.txNum⟩) where
  visited ns coll := by
    show (visited.insert _ _).get? _ = (colls ++ _).reverse.lookup _
    rw [GoMap.get?_insert, SortedMap.lookup_reverse_append_singleton, ← h.visited]
    exact if_congr (PurgeMarkerCollKey.mk_eq_mk_iff _ _ _ _).symm rfl rfl
  last ck cm hLookup := by
    simp only at hLookup
    rw [SortedMap.lookup_reverse_append_singleton] at hLookup
    split_ifs at hLookup
    · cases hLookup
      exact ⟨rfl, m, List.mem_append_right _ (List.mem_singleton_self _), rfl⟩
    · obtain ⟨hBlock, m', hMem, hNum⟩ := h.last ck cm hLookup
      exact ⟨hBlock, m', List.mem_append_left _ hMem, hNum⟩
  above m' hMem := by
    simp only
    rw [SortedMap.lookup_reverse_append_singleton]
    by_cases hColl : (⟨m'.ns, m'.coll⟩ : PurgeMarkerCollKey) = ⟨m.ns, m.coll⟩
    · rw [if_pos hColl]
      refine ⟨_, rfl, ?_⟩
      rcases List.mem_append.1 hMem with hOld | hNew
      · obtain ⟨cm, hLookup, hLe⟩ := h.above m' hOld
        have hVisited : visited.get? (m.ns, m.coll) = some cm := by
          rw [h.visited, ← hColl, hLookup]
        exact hLe.trans (hPrev cm hVisited)
      · rw [List.mem_singleton.1 hNew]
    · rw [if_neg hColl]
      rcases List.mem_append.1 hMem with hOld | hNew
      · exact h.above m' hOld
      · exact absurd (by rw [List.mem_singleton.1 hNew]) hColl

theorem CollEntriesUpTo.visit {blkNum : UInt64} {done : List PurgeMarker}
    {acc : List (PurgeMarkerKey × Height) × List (PurgeMarkerCollKey × Height) ×
      GoMap (String × String) Height} (h : CollEntriesUpTo blkNum done acc)
    (hBlk : blkNum.toNat < 2 ^ 63) (m : PurgeMarker)
    (hSmall : ∀ m' ∈ done ++ [m], m'.txNum.toNat < 2 ^ 63) :
    CollEntriesUpTo blkNum (done ++ [m]) (visitPurgeMarker blkNum acc m) := by
  obtain ⟨keys, colls, visited⟩ := acc
  have hm : (Height.mk blkNum m.txNum).BelowHalf :=
    ⟨hBlk, hSmall m (List.mem_append_right _ (List.mem_singleton_self _))⟩
  unfold visitPurgeMarker
  dsimp only
  cases hGet : visited.get? (m.ns, m.coll) with
  | none =>
    refine h.addCollEntry m (fun vv hvv => ?_) _
    rw [hGet] at hvv
    cases hvv
  | some vv =>
    have hLookup : colls.reverse.lookup ⟨m.ns, m.coll⟩ = some vv := by rw [← h.visited, hGet]
    obtain ⟨hBlock, m', hMem', hNum⟩ := h.last _ vv hLookup
    have hvv : vv.BelowHalf := ⟨hBlock ▸ hBlk, hNum ▸ hSmall m' (List.mem_append_left _ hMem')⟩
    dsimp only
    split_ifs with hGt
    · have hTx : m.txNum.toNat < vv.txNum.toNat := by
        have hLex := (Height.compare_pos_iff hvv hm).1 hGt
        simp only [Height.lexLt_iff_toNat, hBlock, lt_self_iff_false, true_and, false_or] at hLex
        omega
      refine ⟨h.visited, fun ck cm hl => ?_, fun m'' hMem'' => ?_⟩
      · obtain ⟨hB, m0, hMem0, hN⟩ := h.last ck cm hl
        exact ⟨hB, m0, List.mem_append_left _ hMem0, hN⟩
      · rcases List.mem_append.1 hMem'' with hOld | hNew
        · exact h.above m'' hOld
        · rw [List.mem_singleton.1 hNew]
          exact ⟨vv, hLookup, hTx.le⟩
    · refine h.addCollEntry m (fun vv' hvv' => ?_) _
      rw [hGet] at hvv'
      cases hvv'
      have hLex := (Height.compare_le_zero_iff hvv hm).1 (le_of_not_gt hGt)
      simp only [Height.lexLt_iff_toNat, hBlock, lt_self_iff_false, true_and, false_or] at hLex
      omega

theorem collEntriesUpTo_foldl (blkNum : UInt64) (hBlk : blkNum.toNat < 2 ^ 63) :
    ∀ (ms done : List PurgeMarker) (acc : List (PurgeMarkerKey × Height) ×
      List (PurgeMarkerCollKey × Height) × GoMap (String × String) Height),
      CollEntriesUpTo blkNum done acc → (∀ m ∈ done ++ ms, m.txNum.toNat < 2 ^ 63) →
      CollEntriesUpTo blkNum (done ++ ms) (ms.foldl (visitPurgeMarker blkNum) acc)
  | [], done, acc, h, _ => by simpa using h
  | m :: ms, done, acc, h, hSmall => by
    have hStep := h.visit hBlk m fun m' hm' => hSmall m' (by simp at hm' ⊢; tauto)
    have hRest := collEntriesUpTo_foldl blkNum hBlk ms (done ++ [m]) _ hStep (by simpa using hSmall)
    simpa using hRest

theorem preparePurgerMarkerEntries_snd (blkNum : UInt64) (hBlk : blkNum.toNat < 2 ^ 63)
    (purgeMarkers : List PurgeMarker) (hSmall : ∀ m ∈ purgeMarkers, m.txNum.toNat < 2 ^ 63) :
    (∀ ck cm, (preparePurgerMarkerEntries blkNum purgeMarkers).2.reverse.lookup ck = some cm →
      cm.blockNum = blkNum ∧ ∃ m ∈ purgeMarkers, cm.txNum = m.txNum) ∧
    ∀ m ∈ purgeMarkers, ∃ cm,
      (preparePurgerMarkerEntries blkNum purgeMarkers).2.reverse.lookup ⟨m.ns, m.coll⟩ = some cm ∧
        m.txNum.toNat ≤ cm.txNum.toNat := by
  have h := collEntriesUpTo_foldl blkNum hBlk purgeMarkers [] _ (collEntriesUpTo_init blkNum)
    (by simpa using hSmall)
  rw [List.nil_append] at h
  exact ⟨h.last, h.above⟩
section Commit

variable {btlPolicy : BTLPolicy} {computeStringHash : KeyHasher}

structure ReadInv (btlPolicy : BTLPolicy) (s : Store) : Prop where
  last : s.lastCommittedBlock.toNat < 2 ^ 63
  data : ∀ k v, s.db.data.get? k = some v → k.blkNum.toNat < s.nextBlockNum.toNat ∧
    k.txNum.toNat < 2 ^ 63 ∧ v.collectionName = k.coll ∧ ∃ btl, btlPolicy k.ns k.coll = .ok btl
  markers : ∀ pk m, s.db.purgeMarkers.get? pk = some m → m.blockNum.toNat < s.nextBlockNum.toNat ∧
    m.txNum.toNat < 2 ^ 63 ∧ ∃ cm, s.db.purgeMarkerColls.get? ⟨pk.ns, pk.coll⟩ = some cm ∧ ¬ cm.lexLt m
  collMarkers : ∀ ck cm, s.db.purgeMarkerColls.get? ck = some cm →
    cm.blockNum.toNat < s.nextBlockNum.toNat ∧ cm.txNum.toNat < 2 ^ 63

theorem readInv_init (purgeInterval : UInt64) : ReadInv btlPolicy (Store.init purgeInterval) where
  last := by
    show (0 : UInt64).toNat < 2 ^ 63
    decide
  data _ _ h := nomatch h
  markers _ _ h := nomatch h
  collMarkers _ _ h := nomatch h

theorem ReadInv.toNat_nextBlockNum_le {s : Store} (h : ReadInv btlPolicy s) :
    s.nextBlockNum.toNat ≤ 2 ^ 63 := by
  cases hEmpty : s.isEmpty with
  | true => simp [Store.nextBlockNum, hEmpty]
  | false =>
    have hLt : s.lastCommittedBlock < maxUint64 := by
      rw [UInt64.lt_iff_toNat_lt]
      have := h.last
      simp only [maxUint64, UInt64.reduceToNat]
      omega
    rw [nextBlockNum_of_isEmpty_eq_false hEmpty, toNat_add_one_of_lt _ hLt]
    exact h.last

theorem ReadInv.markersBelowColl {s : Store} (h : ReadInv btlPolicy s) : s.db.MarkersBelowColl where
  markers pk m hGet := by
    obtain ⟨hB, hT, hColl⟩ := h.markers pk m hGet
    exact ⟨⟨by have := h.toNat_nextBlockNum_le; omega, hT⟩, hColl⟩
  collMarkers ck cm hGet := by
    obtain ⟨hB, hT⟩ := h.collMarkers ck cm hGet
    exact ⟨by have := h.toNat_nextBlockNum_le; omega, hT⟩

theorem ReadInv.commit {s : Store} (h : ReadInv btlPolicy s) {blockNum : UInt64}
    {pvtData : List TxPvtData} {missingPvtData : TxMissingPvtData} {purgeMarkers : List PurgeMarker}
    {s' : Store} {scheduled : Bool} (hBlock : blockNum.toNat < 2 ^ 63)
    (hTxs : ∀ tx ∈ pvtData, tx.seqInBlock.toNat < 2 ^ 63)
    (hMarkers : ∀ m ∈ purgeMarkers, m.txNum.toNat < 2 ^ 63)
    (hCommit : s.commit btlPolicy computeStringHash blockNum pvtData missingPvtData purgeMarkers =
      .ok (s', scheduled)) :
    ReadInv btlPolicy s' := by
  obtain ⟨hNum, -, entries, hEntries, rfl, -⟩ := Store.commit_eq_ok hCommit
  obtain ⟨expiryEntries, hExpiry, rfl⟩ := prepareStoreEntries_eq_ok hEntries
  obtain ⟨hCollLast, hCollAbove⟩ :=
    preparePurgerMarkerEntries_snd blockNum hBlock purgeMarkers hMarkers
  have hOld : s.nextBlockNum.toNat = blockNum.toNat := by rw [hNum]
  have hRoom : blockNum < maxUint64 := by
    rw [UInt64.lt_iff_toNat_lt]
    simp only [maxUint64, UInt64.reduceToNat]
    omega
  have hNextNew : ∀ t : Store, t.isEmpty = false → t.lastCommittedBlock = blockNum →
      t.nextBlockNum.toNat = blockNum.toNat + 1 := by
    intro t hE hL
    rw [nextBlockNum_of_isEmpty_eq_false hE, hL, toNat_add_one_of_lt blockNum hRoom]
  have hColls : ∀ ck, (s.db.purgeMarkerColls.writeBatch
      ((preparePurgerMarkerEntries blockNum purgeMarkers).2.map fun m => .put m.1 m.2)).get? ck =
        ((preparePurgerMarkerEntries blockNum purgeMarkers).2.reverse.lookup ck).or
          (s.db.purgeMarkerColls.get? ck) :=
    fun ck => SortedMap.get?_writeBatch_puts _ _ _
  refine ⟨hBlock, fun k v hGet => ?_, fun pk m hGet => ?_, fun ck cm hGet => ?_⟩
  all_goals rw [hNextNew _ rfl rfl]
  · rcases SortedMap.get?_writeBatch_eq_some _ _ hGet with hPut | hOldGet
    · obtain ⟨d, hd, hEq⟩ := List.mem_map.1 hPut
      obtain ⟨rfl, rfl⟩ := BatchOp.put.inj hEq
      obtain ⟨hB, ⟨tx, hTx, hT⟩, hName⟩ := mem_prepareDataEntries hd
      exact ⟨by rw [hB]; omega, hT ▸ hTxs tx hTx, hName, btl_of_prepareExpiryEntries hExpiry d hd⟩
    · obtain ⟨hB, hT, hName, hBtl⟩ := h.data k v hOldGet
      exact ⟨by omega, hT, hName, hBtl⟩
  · rcases SortedMap.get?_writeBatch_eq_some _ _ hGet with hPut | hOldGet
    · have hMem : (pk, m) ∈ (preparePurgerMarkerEntries blockNum purgeMarkers).1 := by
        simpa [StoreEntries.toBatch] using hPut
      rw [preparePurgerMarkerEntries_fst, List.mem_map] at hMem
      obtain ⟨mk, hmk, hEq⟩ := hMem
      cases hEq
      obtain ⟨cm, hL, hLe⟩ := hCollAbove mk hmk
      obtain ⟨hB, -⟩ := hCollLast _ cm hL
      refine ⟨by simp only; omega, hMarkers mk hmk, cm, ?_, ?_⟩
      · show (s.db.purgeMarkerColls.writeBatch
          ((preparePurgerMarkerEntries blockNum purgeMarkers).2.map fun m => .put m.1 m.2)).get?
            ⟨mk.ns, mk.coll⟩ = some cm
        rw [hColls, hL]
        rfl
      · simp only [Height.lexLt_iff_toNat, hB]
        omega
    · obtain ⟨hB, hT, cm, hColl, hNotLt⟩ := h.markers pk m hOldGet
      refine ⟨by omega, hT, ?_⟩
      show ∃ cm, (s.db.purgeMarkerColls.writeBatch
          ((preparePurgerMarkerEntries blockNum purgeMarkers).2.map fun m => .put m.1 m.2)).get?
            ⟨pk.ns, pk.coll⟩ = some cm ∧ ¬ cm.lexLt m
      rw [hColls]
      cases hL : (preparePurgerMarkerEntries blockNum purgeMarkers).2.reverse.lookup
          ⟨pk.ns, pk.coll⟩ with
      | none => exact ⟨cm, by rw [Option.none_or]; exact hColl, hNotLt⟩
      | some cm' =>
        obtain ⟨hB', -⟩ := hCollLast _ cm' hL
        refine ⟨cm', rfl, ?_⟩
        simp only [Height.lexLt_iff_toNat, hB']
        omega
  · change (s.db.purgeMarkerColls.writeBatch
      ((preparePurgerMarkerEntries blockNum purgeMarkers).2.map fun m => .put m.1 m.2)).get? ck =
        some cm at hGet
    rw [hColls] at hGet
    cases hL : (preparePurgerMarkerEntries blockNum purgeMarkers).2.reverse.lookup ck with
    | none =>
      rw [hL, Option.none_or] at hGet
      obtain ⟨hB, hT⟩ := h.collMarkers ck cm hGet
      exact ⟨by omega, hT⟩
    | some cm' =>
      rw [hL, Option.some_or, Option.some.injEq] at hGet
      subst hGet
      obtain ⟨hB, m, hm, hT⟩ := hCollLast ck cm' hL
      exact ⟨by rw [hB]; omega, hT ▸ hMarkers m hm⟩

end Commit

/-! ## Runs of commits and the read -/

/-- A commit whose heights stay below `2^63`: its block number, the transaction numbers of its
private data and those of its purge markers. -/
inductive CommitBelowHalf (btlPolicy : BTLPolicy) (computeStringHash : KeyHasher) :
    Store → Store → Prop
  | commit (s : Store) (blockNum : UInt64) (pvtData : List TxPvtData)
      (missingPvtData : TxMissingPvtData) (purgeMarkers : List PurgeMarker) (s' : Store)
      (scheduled : Bool) (hBlock : blockNum.toNat < 2 ^ 63)
      (hTxs : ∀ tx ∈ pvtData, tx.seqInBlock.toNat < 2 ^ 63)
      (hMarkers : ∀ m ∈ purgeMarkers, m.txNum.toNat < 2 ^ 63)
      (hCommit : s.commit btlPolicy computeStringHash blockNum pvtData missingPvtData
        purgeMarkers = .ok (s', scheduled)) :
      CommitBelowHalf btlPolicy computeStringHash s s'

section Read

variable {btlPolicy : BTLPolicy} {computeStringHash : KeyHasher}

theorem readInv_of_reachable {purgeInterval : UInt64} {s : Store}
    (hReach : Reachable (CommitBelowHalf btlPolicy computeStringHash) (Store.init purgeInterval) s) :
    ReadInv btlPolicy s := by
  refine Reachable.invariant (ReadInv btlPolicy) (readInv_init purgeInterval) ?_ hReach
  intro s s' h hStep
  cases hStep with
  | commit blockNum pvtData missingPvtData purgeMarkers _ scheduled hBlock hTxs hMarkers hCommit =>
    exact h.commit hBlock hTxs hMarkers hCommit

/-- After commits below `2^63`, `GetPvtDataByBlockNum` of a committed block returns, in key
order, every write set of the block that passes the filter and has not expired, each with the
writes no purge marker covers; one transaction per transaction number, in increasing order,
each grouping its collections by namespace. -/
theorem getPvtDataByBlockNum_returns_surviving_writes (purgeInterval : UInt64) (s : Store)
    (hReach : Reachable (CommitBelowHalf btlPolicy computeStringHash) (Store.init purgeInterval) s)
    (hEmpty : s.isEmpty = false) (blockNum : UInt64) (hBlock : blockNum ≤ s.lastCommittedBlock)
    (filter : Option PvtNsCollFilter) :
    ∃ (result : List TxPvtData) (entries : List (DataKey × CollPvtRwSet)),
      s.getPvtDataByBlockNum btlPolicy computeStringHash blockNum filter = .ok result ∧
      result.flatMap TxPvtData.flatten = entries.map (fun e => (e.1.txNum, e.1.ns, e.2)) ∧
      entries.Pairwise (fun e e' => e.1 < e'.1) ∧
      (∀ k c, (k, c) ∈ entries ↔ ∃ v btl, s.db.data.get? k = some v ∧ k.blkNum = blockNum ∧
        v.collectionName = k.coll ∧ passesFilter k filter = true ∧
        btlPolicy k.ns k.coll = .ok btl ∧ s.lastCommittedBlock < computeExpiringBlock blockNum btl ∧
        c = { v with writes := v.writes.filter fun w =>
          !s.db.coveredByPurgeMarker computeStringHash k w }) ∧
      result.Pairwise (fun tx tx' => tx.seqInBlock < tx'.seqInBlock) ∧
      ∀ tx ∈ result, WriteSetGrouped tx.writeSet := by
  have hInv := readInv_of_reachable hReach
  have hKnown : ∀ k v, s.db.data.get? k = some v → ∃ btl, btlPolicy k.ns k.coll = .ok btl :=
    fun k v hGet => (hInv.data k v hGet).2.2.2
  have hBlockHalf : blockNum.toNat < 2 ^ 63 := by
    have := hInv.last
    have := UInt64.le_iff_toNat_le.1 hBlock
    omega
  have hRoom : blockNum < maxUint64 := by
    rw [UInt64.lt_iff_toNat_lt]
    simp only [maxUint64, UInt64.reduceToNat]
    omega
  let entries := (s.db.data.scan fun k => !heightLt (k.blkNum, k.txNum) (blockNum, 0) &&
    heightLt (k.blkNum, k.txNum) (blockNum + 1, 0)).filterMap
      (s.keptEntry btlPolicy computeStringHash filter)
  have hMem := mem_keptEntries_iff btlPolicy computeStringHash s blockNum hRoom filter hKnown
  have hSorted : entries.Pairwise (fun e e' => e.1 < e'.1) :=
    pairwise_keptEntries btlPolicy computeStringHash s _ filter
  have hOfBlock : ∀ e ∈ entries, e.1.blkNum = blockNum := by
    rintro ⟨k, c⟩ he
    obtain ⟨v, btl, -, hB, -⟩ := (hMem k c).1 he
    exact hB
  obtain ⟨hTxSorted, hGrouped⟩ := assembleBlockPvtdata_grouped blockNum blockNum hSorted hOfBlock
  refine ⟨assembleBlockPvtdata blockNum entries, entries, ?_,
    flatten_assembleBlockPvtdata blockNum entries, hSorted, fun k c => ?_, hTxSorted, hGrouped⟩
  · simp [Store.getPvtDataByBlockNum, hEmpty, UInt64.not_lt.2 hBlock,
      visibleDataEntries_eq btlPolicy computeStringHash s blockNum filter hKnown, entries]
  · rw [hMem k c]
    constructor
    · rintro ⟨v, btl, hGet, hB, hPass, hBtl, hLive, rfl⟩
      obtain ⟨-, hTx, hName, -⟩ := hInv.data k v hGet
      exact ⟨v, btl, hGet, hB, hName, hPass, hBtl, hLive,
        removePurgedDataFromCollPvtRWset_eq computeStringHash hInv.markersBelowColl k
          ⟨show k.blkNum.toNat < 2 ^ 63 by rw [hB]; exact hBlockHalf, hTx⟩ v⟩
    · rintro ⟨v, btl, hGet, hB, -, hPass, hBtl, hLive, rfl⟩
      obtain ⟨-, hTx, -, -⟩ := hInv.data k v hGet
      exact ⟨v, btl, hGet, hB, hPass, hBtl, hLive,
        (removePurgedDataFromCollPvtRWset_eq computeStringHash hInv.markersBelowColl k
          ⟨show k.blkNum.toNat < 2 ^ 63 by rw [hB]; exact hBlockHalf, hTx⟩ v).symm⟩

theorem getPvtDataByBlockNum_returns_surviving_writes_block_zero :
    ∃ s, Reachable (CommitBelowHalf (fun _ _ => .ok maxUint64) id) (Store.init 1) s ∧
      s.isEmpty = false ∧ (0 : UInt64) ≤ s.lastCommittedBlock ∧
      ∃ (result : List TxPvtData) (entries : List (DataKey × CollPvtRwSet)),
        s.getPvtDataByBlockNum (fun _ _ => .ok maxUint64) id 0 none = .ok result ∧
        result.flatMap TxPvtData.flatten = entries.map (fun e => (e.1.txNum, e.1.ns, e.2)) := by
  have hReach := (Reachable.refl (CommitBelowHalf (fun _ _ => .ok maxUint64) id) (Store.init 1)).tail
    (CommitBelowHalf.commit _ 0 [⟨0, [⟨"ns", [⟨"coll", [⟨"k", false, [1]⟩]⟩]⟩]⟩] GoMap.empty
      [⟨"ns", "coll", "k", 0⟩] _ _ (by decide) (by decide) (by decide) rfl)
  obtain ⟨result, entries, hRead, hFlat, -⟩ :=
    getPvtDataByBlockNum_returns_surviving_writes 1 _ hReach rfl 0 UInt64.zero_le none
  exact ⟨_, hReach, rfl, UInt64.zero_le, result, entries, hRead, hFlat⟩

end Read

end FabricPeer.Pvtdatastorage
