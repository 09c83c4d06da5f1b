import FabricPeer.Pvtdatastorage.StoreSpec
import FabricPeer.Pvtdatastorage.Purger
import FabricPeer.Lib.TopRanked

/-! # The missing data of the most recent blocks

`getMissingData` reads the eligible missing-data entries of one group from the most recent block
down. It counts a block the first time one of its non-expired entries finds no entry of the block
in the map it builds, and after the `maxBlock`-th block it stops at the first entry of another
block. A bitmap without a set bit would add nothing to the map and let its block be counted
twice, but no reachable store holds one: `Commit` only sets bits, `CommitPvtDataOfOldBlocks`
deletes the bitmaps it empties, and the purger only deletes. Every collection of a bitmap also
has a block-to-live, which `Commit` needed to compute its expiry entries. So over every
reachable store the map holds exactly the set bits of the non-expired entries of the `maxBlock`
most recent blocks with a non-expired entry.
-/
namespace FabricPeer.Pvtdatastorage

open FabricPeer.Ledger GoRun KVStore TopRanked Transition

set_option autoImplicit false

/-! ## The map of missing data -/

def MissingPvtDataInfo.missingAt (info : MissingPvtDataInfo) (blkNum txNum : UInt64) :
    List MissingCollectionPvtDataInfo :=
  (((info.get? blkNum).getD GoMap.empty).get? txNum).getD []

section Info

theorem missingAt_add (info : MissingPvtDataInfo) (blkNum txNum : UInt64) (ns coll : String)
    (b t : UInt64) :
    (info.add blkNum txNum ns coll).missingAt b t =
      if b = blkNum ∧ t = txNum then info.missingAt b t ++ [⟨ns, coll⟩]
      else info.missingAt b t := by
  unfold MissingPvtDataInfo.add MissingPvtDataInfo.missingAt
  by_cases hb : b = blkNum
  · subst hb
    by_cases ht : t = txNum
    · subst ht
      simp
    · simp [GoMap.get?_insert_of_ne _ _ ht, ht]
  · simp [GoMap.get?_insert_of_ne _ _ hb, hb]

theorem mem_missingAt_add {info : MissingPvtDataInfo} {blkNum txNum : UInt64} {ns coll : String}
    {b t : UInt64} {x : MissingCollectionPvtDataInfo} :
    x ∈ (info.add blkNum txNum ns coll).missingAt b t ↔
      (b = blkNum ∧ t = txNum ∧ x = ⟨ns, coll⟩) ∨ x ∈ info.missingAt b t := by
  rw [missingAt_add]
  split_ifs with h
  · simp [h.1, h.2, or_comm]
  · simp only [iff_or_self, and_imp]
    exact fun hb ht => absurd ⟨hb, ht⟩ h

theorem isSome_get?_add (info : MissingPvtDataInfo) (blkNum txNum : UInt64) (ns coll : String)
    (b : UInt64) :
    ((info.add blkNum txNum ns coll).get? b).isSome ↔ b = blkNum ∨ (info.get? b).isSome := by
  unfold MissingPvtDataInfo.add
  by_cases hb : b = blkNum
  · subst hb
    simp
  · simp [GoMap.get?_insert_of_ne _ _ hb, hb]

theorem mem_missingAt_foldl_add (key : NsCollBlk) (indices : List ℕ) (info : MissingPvtDataInfo)
    {b t : UInt64} {x : MissingCollectionPvtDataInfo} :
    x ∈ (indices.foldl (fun info index => info.add key.blkNum (UInt64.ofNat index) key.ns key.coll)
        info).missingAt b t ↔
      (b = key.blkNum ∧ x = ⟨key.ns, key.coll⟩ ∧ ∃ i ∈ indices, UInt64.ofNat i = t) ∨
        x ∈ info.missingAt b t := by
  induction indices generalizing info with
  | nil => simp
  | cons i indices ih =>
    rw [List.foldl_cons, ih, mem_missingAt_add]
    simp only [List.mem_cons, exists_eq_or_imp, @eq_comm _ t]
    constructor
    · rintro (⟨hb, hx, hi⟩ | ⟨hb, hi, hx⟩ | hOld)
      · exact .inl ⟨hb, hx, .inr hi⟩
      · exact .inl ⟨hb, hx, .inl hi⟩
      · exact .inr hOld
    · rintro (⟨hb, hx, hi | hi⟩ | hOld)
      · exact .inr (.inl ⟨hb, hi, hx⟩)
      · exact .inl ⟨hb, hx, hi⟩
      · exact .inr (.inr hOld)

theorem isSome_get?_foldl_add (key : NsCollBlk) (indices : List ℕ) (info : MissingPvtDataInfo)
    (b : UInt64) :
    ((indices.foldl (fun info index => info.add key.blkNum (UInt64.ofNat index) key.ns key.coll)
        info).get? b).isSome ↔ (b = key.blkNum ∧ indices ≠ []) ∨ (info.get? b).isSome := by
  induction indices generalizing info with
  | nil => simp
  | cons i indices ih =>
    rw [List.foldl_cons, ih, isSome_get?_add]
    simp only [ne_eq, reduceCtorEq, not_false_eq_true, and_true]
    tauto

theorem mem_missingAt_addBitmap {info : MissingPvtDataInfo} {key : NsCollBlk} {bitmap : Finset ℕ}
    {b t : UInt64} {x : MissingCollectionPvtDataInfo} :
    x ∈ (info.addBitmap key bitmap).missingAt b t ↔
      (b = key.blkNum ∧ x = ⟨key.ns, key.coll⟩ ∧ ∃ i ∈ bitmap, UInt64.ofNat i = t) ∨
        x ∈ info.missingAt b t := by
  simp only [MissingPvtDataInfo.addBitmap, mem_missingAt_foldl_add, Finset.mem_sort]

theorem isSome_get?_addBitmap (info : MissingPvtDataInfo) (key : NsCollBlk) (bitmap : Finset ℕ)
    (b : UInt64) :
    ((info.addBitmap key bitmap).get? b).isSome ↔
      (b = key.blkNum ∧ bitmap.Nonempty) ∨ (info.get? b).isSome := by
  rw [MissingPvtDataInfo.addBitmap, isSome_get?_foldl_add, ← List.length_pos_iff,
    Finset.length_sort, Finset.card_pos]

theorem missingPvtDataInfo_countBlock (st : MissingDataScan) (maxBlock : Int) (blkNum : UInt64) :
    (st.countBlock maxBlock blkNum).missingPvtDataInfo = st.missingPvtDataInfo := by
  dsimp only [MissingDataScan.countBlock]
  split_ifs <;> rfl

theorem countBlock_of_isSome {st : MissingDataScan} (maxBlock : Int) {blkNum : UInt64}
    (h : (st.missingPvtDataInfo.get? blkNum).isSome) : st.countBlock maxBlock blkNum = st := by
  rw [MissingDataScan.countBlock, if_pos h]

end Info

theorem NsCollBlk.toNat_blkNum_le_of_lt {k k' : NsCollBlk} (hLt : k < k') :
    k'.blkNum.toNat ≤ k.blkNum.toNat := by
  change k.lexKey < k'.lexKey at hLt
  simp only [NsCollBlk.lexKey, Prod.Lex.toLex_lt_toLex, OrderDual.toDual_lt_toDual] at hLt
  rcases hLt with hBlk | ⟨hBlk, -⟩
  · exact hBlk.le
  · exact (OrderDual.toDual_inj.1 hBlk).ge

/-! ## What the scan reads -/

def KnownBtl (btlPolicy : BTLPolicy) (k : NsCollBlk) : Prop :=
  ∃ btl, btlPolicy k.ns k.coll = .ok btl

def BitmapKept (btlPolicy : BTLPolicy) (e : NsCollBlk × Finset ℕ) : Prop :=
  e.2.Nonempty ∧ KnownBtl btlPolicy e.1

section Scan

variable (btlPolicy : BTLPolicy) (lastCommittedBlock : UInt64)

def Live (e : NsCollBlk × Finset ℕ) : Prop :=
  isExpired btlPolicy e.1 lastCommittedBlock = .ok false

instance instDecidablePredLive : DecidablePred (Live btlPolicy lastCommittedBlock) :=
  fun _ => inferInstanceAs (Decidable (_ = _))

def liveBlocks (entries : List (NsCollBlk × Finset ℕ)) : Finset ℕ :=
  ((entries.filter fun e => decide (Live btlPolicy lastCommittedBlock e)).map
    fun e => e.1.blkNum.toNat).toFinset

def LiveMissing (entries : List (NsCollBlk × Finset ℕ)) (b t : UInt64)
    (x : MissingCollectionPvtDataInfo) : Prop :=
  ∃ e ∈ entries, Live btlPolicy lastCommittedBlock e ∧ e.1.blkNum = b ∧
    x = ⟨e.1.ns, e.1.coll⟩ ∧ ∃ i ∈ e.2, UInt64.ofNat i = t

variable {btlPolicy lastCommittedBlock}

theorem mem_liveBlocks {entries : List (NsCollBlk × Finset ℕ)} {n : ℕ} :
    n ∈ liveBlocks btlPolicy lastCommittedBlock entries ↔
      ∃ e ∈ entries, Live btlPolicy lastCommittedBlock e ∧ e.1.blkNum.toNat = n := by
  simp only [liveBlocks, List.mem_toFinset, List.mem_map, List.mem_filter, decide_eq_true_eq,
    and_assoc]

theorem liveBlocks_append (l l' : List (NsCollBlk × Finset ℕ)) :
    liveBlocks btlPolicy lastCommittedBlock (l ++ l') =
      liveBlocks btlPolicy lastCommittedBlock l ∪ liveBlocks btlPolicy lastCommittedBlock l' := by
  simp only [liveBlocks, List.filter_append, List.map_append, List.toFinset_append]

theorem liveBlocks_singleton_of_live {e : NsCollBlk × Finset ℕ}
    (hLive : Live btlPolicy lastCommittedBlock e) :
    liveBlocks btlPolicy lastCommittedBlock [e] = {e.1.blkNum.toNat} := by
  simp [liveBlocks, hLive]

theorem liveBlocks_singleton_of_not_live {e : NsCollBlk × Finset ℕ}
    (hExp : ¬ Live btlPolicy lastCommittedBlock e) :
    liveBlocks btlPolicy lastCommittedBlock [e] = ∅ := by
  simp [liveBlocks, hExp]

theorem liveMissing_append {l l' : List (NsCollBlk × Finset ℕ)} {b t : UInt64}
    {x : MissingCollectionPvtDataInfo} :
    LiveMissing btlPolicy lastCommittedBlock (l ++ l') b t x ↔
      LiveMissing btlPolicy lastCommittedBlock l b t x ∨
        LiveMissing btlPolicy lastCommittedBlock l' b t x := by
  simp only [LiveMissing, List.mem_append, or_and_right, exists_or]

theorem liveMissing_singleton {e : NsCollBlk × Finset ℕ} {b t : UInt64}
    {x : MissingCollectionPvtDataInfo} :
    LiveMissing btlPolicy lastCommittedBlock [e] b t x ↔
      Live btlPolicy lastCommittedBlock e ∧ e.1.blkNum = b ∧ x = ⟨e.1.ns, e.1.coll⟩ ∧
        ∃ i ∈ e.2, UInt64.ofNat i = t := by
  simp only [LiveMissing, List.mem_singleton, exists_eq_left]

theorem LiveMissing.toNat_mem_liveBlocks {entries : List (NsCollBlk × Finset ℕ)} {b t : UInt64}
    {x : MissingCollectionPvtDataInfo} (h : LiveMissing btlPolicy lastCommittedBlock entries b t x) :
    b.toNat ∈ liveBlocks btlPolicy lastCommittedBlock entries := by
  obtain ⟨e, he, hLive, rfl, -⟩ := h
  exact mem_liveBlocks.2 ⟨e, he, hLive, rfl⟩

variable (btlPolicy lastCommittedBlock) (maxBlock : Int)

structure Collected (done : List (NsCollBlk × Finset ℕ)) (info : MissingPvtDataInfo) : Prop where
  isSome_iff : ∀ b, (info.get? b).isSome ↔ b.toNat ∈ liveBlocks btlPolicy lastCommittedBlock done
  mem_missingAt_iff : ∀ b t x,
    x ∈ info.missingAt b t ↔ LiveMissing btlPolicy lastCommittedBlock done b t x

structure Counted (done : List (NsCollBlk × Finset ℕ)) (st : MissingDataScan) : Prop where
  count_eq : st.numberOfBlockProcessed = (liveBlocks btlPolicy lastCommittedBlock done).card
  card_le : ((liveBlocks btlPolicy lastCommittedBlock done).card : Int) ≤ maxBlock
  reached_iff : st.isMaxBlockLimitReached = true ↔
    ((liveBlocks btlPolicy lastCommittedBlock done).card : Int) = maxBlock
  last_least : st.isMaxBlockLimitReached = true →
    st.lastProcessedBlock.toNat ∈ liveBlocks btlPolicy lastCommittedBlock done ∧
      ∀ n ∈ liveBlocks btlPolicy lastCommittedBlock done, st.lastProcessedBlock.toNat ≤ n

structure ScanInv (done : List (NsCollBlk × Finset ℕ)) (st : MissingDataScan) : Prop where
  collected : Collected btlPolicy lastCommittedBlock done st.missingPvtDataInfo
  counted : Counted btlPolicy lastCommittedBlock maxBlock done st

/-- What `getMissingData` should return for the entries `entries`: the live entries of the
`maxBlock` most recent blocks that have a live entry, and no other block. -/
structure Reports (entries : List (NsCollBlk × Finset ℕ)) (info : MissingPvtDataInfo) : Prop where
  isSome_iff : ∀ b, (info.get? b).isSome ↔
    b.toNat ∈ topRanked (liveBlocks btlPolicy lastCommittedBlock entries) maxBlock.toNat
  mem_missingAt_iff : ∀ b t x, x ∈ info.missingAt b t ↔
    b.toNat ∈ topRanked (liveBlocks btlPolicy lastCommittedBlock entries) maxBlock.toNat ∧
      LiveMissing btlPolicy lastCommittedBlock entries b t x

variable {btlPolicy lastCommittedBlock maxBlock}

theorem scanInv_init (hMax : 1 ≤ maxBlock) :
    ScanInv btlPolicy lastCommittedBlock maxBlock [] ⟨GoMap.empty, 0, 0, false⟩ where
  collected :=
    { isSome_iff := fun b => by simp [liveBlocks]
      mem_missingAt_iff := fun b t x => by simp [MissingPvtDataInfo.missingAt, LiveMissing] }
  counted :=
    { count_eq := by simp [liveBlocks]
      card_le := by simp [liveBlocks]; omega
      reached_iff := by simp [liveBlocks]; omega
      last_least := fun h => absurd h Bool.false_ne_true }

/-! ### One entry -/

theorem Collected.skip {done : List (NsCollBlk × Finset ℕ)} {info : MissingPvtDataInfo}
    {e : NsCollBlk × Finset ℕ} (h : Collected btlPolicy lastCommittedBlock done info)
    (hExp : ¬ Live btlPolicy lastCommittedBlock e) :
    Collected btlPolicy lastCommittedBlock (done ++ [e]) info where
  isSome_iff b := by
    rw [liveBlocks_append, liveBlocks_singleton_of_not_live hExp, Finset.union_empty]
    exact h.isSome_iff b
  mem_missingAt_iff b t x := by
    rw [liveMissing_append, liveMissing_singleton, h.mem_missingAt_iff]
    simp [hExp]

theorem Counted.skip {done : List (NsCollBlk × Finset ℕ)} {st : MissingDataScan}
    {e : NsCollBlk × Finset ℕ} (h : Counted btlPolicy lastCommittedBlock maxBlock done st)
    (hExp : ¬ Live btlPolicy lastCommittedBlock e) :
    Counted btlPolicy lastCommittedBlock maxBlock (done ++ [e]) st := by
  have hBlocks : liveBlocks btlPolicy lastCommittedBlock (done ++ [e]) =
      liveBlocks btlPolicy lastCommittedBlock done := by
    rw [liveBlocks_append, liveBlocks_singleton_of_not_live hExp, Finset.union_empty]
  exact ⟨hBlocks ▸ h.count_eq, hBlocks ▸ h.card_le, hBlocks ▸ h.reached_iff,
    hBlocks ▸ h.last_least⟩

theorem Counted.with_info {done : List (NsCollBlk × Finset ℕ)} {st : MissingDataScan}
    (h : Counted btlPolicy lastCommittedBlock maxBlock done st) (info : MissingPvtDataInfo) :
    Counted btlPolicy lastCommittedBlock maxBlock done { st with missingPvtDataInfo := info } :=
  ⟨h.count_eq, h.card_le, h.reached_iff, h.last_least⟩

theorem Collected.addBitmap {done : List (NsCollBlk × Finset ℕ)} {info : MissingPvtDataInfo}
    {e : NsCollBlk × Finset ℕ} (h : Collected btlPolicy lastCommittedBlock done info)
    (hLive : Live btlPolicy lastCommittedBlock e) (hSet : e.2.Nonempty) :
    Collected btlPolicy lastCommittedBlock (done ++ [e]) (info.addBitmap e.1 e.2) where
  isSome_iff b := by
    rw [isSome_get?_addBitmap, liveBlocks_append, liveBlocks_singleton_of_live hLive,
      Finset.mem_union, Finset.mem_singleton, h.isSome_iff, ← UInt64.toNat_inj]
    simp only [hSet, and_true, or_comm]
  mem_missingAt_iff b t x := by
    rw [mem_missingAt_addBitmap, liveMissing_append, liveMissing_singleton, h.mem_missingAt_iff]
    simp only [hLive, true_and, @eq_comm _ b, or_comm]

theorem Counted.countBlock {done : List (NsCollBlk × Finset ℕ)} {st : MissingDataScan}
    {e : NsCollBlk × Finset ℕ} (h : Counted btlPolicy lastCommittedBlock maxBlock done st)
    (hInfo : Collected btlPolicy lastCommittedBlock done st.missingPvtDataInfo)
    (hLive : Live btlPolicy lastCommittedBlock e)
    (hBelow : ∀ n ∈ liveBlocks btlPolicy lastCommittedBlock done, e.1.blkNum.toNat ≤ n)
    (hGo : (st.isMaxBlockLimitReached && e.1.blkNum != st.lastProcessedBlock) = false) :
    Counted btlPolicy lastCommittedBlock maxBlock (done ++ [e])
      (st.countBlock maxBlock e.1.blkNum) := by
  have hBlocks : liveBlocks btlPolicy lastCommittedBlock (done ++ [e]) =
      insert e.1.blkNum.toNat (liveBlocks btlPolicy lastCommittedBlock done) := by
    rw [liveBlocks_append, liveBlocks_singleton_of_live hLive, Finset.union_comm,
      Finset.insert_eq]
  by_cases hKnown : e.1.blkNum.toNat ∈ liveBlocks btlPolicy lastCommittedBlock done
  · rw [countBlock_of_isSome maxBlock ((hInfo.isSome_iff _).2 hKnown)]
    rw [Finset.insert_eq_of_mem hKnown] at hBlocks
    exact ⟨hBlocks ▸ h.count_eq, hBlocks ▸ h.card_le, hBlocks ▸ h.reached_iff,
      hBlocks ▸ h.last_least⟩
  · have hNotReached : st.isMaxBlockLimitReached = false := by
      by_contra hReached
      rw [Bool.not_eq_false] at hReached
      have hLast : e.1.blkNum = st.lastProcessedBlock := by simpa [hReached] using hGo
      exact hKnown (hLast ▸ (h.last_least hReached).1)
    have hLt : ((liveBlocks btlPolicy lastCommittedBlock done).card : Int) < maxBlock :=
      lt_of_le_of_ne h.card_le fun hEq => by simp [h.reached_iff.2 hEq] at hNotReached
    have hCard : (liveBlocks btlPolicy lastCommittedBlock (done ++ [e])).card =
        (liveBlocks btlPolicy lastCommittedBlock done).card + 1 := by
      rw [hBlocks, Finset.card_insert_of_notMem hKnown]
    have hNew : ¬ (st.missingPvtDataInfo.get? e.1.blkNum).isSome := fun hSome =>
      hKnown ((hInfo.isSome_iff _).1 hSome)
    have hCount := h.count_eq
    dsimp only [MissingDataScan.countBlock]
    rw [if_neg hNew]
    split_ifs with hReach
    · refine ⟨by rw [hCard, hCount], by rw [hCard]; omega, by rw [hCard]; simp only [true_iff]; omega,
        fun _ => ⟨by simp [hBlocks], fun n hn => ?_⟩⟩
      rcases Finset.mem_insert.1 (hBlocks ▸ hn) with rfl | hn
      · exact le_rfl
      · exact hBelow n hn
    · refine ⟨by rw [hCard, hCount], by rw [hCard]; omega, ?_,
        fun hReached => absurd hReached (by simp [hNotReached])⟩
      rw [hCard, hNotReached, Bool.false_eq_true, false_iff]
      omega

/-! ### Leaving the loop -/

theorem Counted.topRanked_eq {done : List (NsCollBlk × Finset ℕ)} {st : MissingDataScan}
    (h : Counted btlPolicy lastCommittedBlock maxBlock done st) :
    topRanked (liveBlocks btlPolicy lastCommittedBlock done) maxBlock.toNat =
      liveBlocks btlPolicy lastCommittedBlock done :=
  topRanked_of_card_le (by have := h.card_le; omega)

theorem ScanInv.reports_of_done {done : List (NsCollBlk × Finset ℕ)} {st : MissingDataScan}
    (h : ScanInv btlPolicy lastCommittedBlock maxBlock done st) :
    Reports btlPolicy lastCommittedBlock maxBlock done st.missingPvtDataInfo where
  isSome_iff b := by
    rw [h.counted.topRanked_eq]
    exact h.collected.isSome_iff b
  mem_missingAt_iff b t x := by
    rw [h.counted.topRanked_eq, h.collected.mem_missingAt_iff]
    exact ⟨fun hx => ⟨hx.toNat_mem_liveBlocks, hx⟩, And.right⟩

theorem ScanInv.reports_of_stop {done rest : List (NsCollBlk × Finset ℕ)} {st : MissingDataScan}
    {e : NsCollBlk × Finset ℕ} (h : ScanInv btlPolicy lastCommittedBlock maxBlock done st)
    (hReached : st.isMaxBlockLimitReached = true) (hNe : e.1.blkNum ≠ st.lastProcessedBlock)
    (hAbove : ∀ n ∈ liveBlocks btlPolicy lastCommittedBlock done, e.1.blkNum.toNat ≤ n)
    (hAfter : ∀ r ∈ e :: rest, r.1.blkNum.toNat ≤ e.1.blkNum.toNat) :
    Reports btlPolicy lastCommittedBlock maxBlock (done ++ e :: rest) st.missingPvtDataInfo := by
  obtain ⟨hLastMem, hLastLeast⟩ := h.counted.last_least hReached
  have hLt : e.1.blkNum.toNat < st.lastProcessedBlock.toNat :=
    lt_of_le_of_ne (hAbove _ hLastMem) fun hEq => hNe (UInt64.toNat_inj.1 hEq)
  have hOlder : ∀ n ∈ liveBlocks btlPolicy lastCommittedBlock done,
      ∀ m ∈ liveBlocks btlPolicy lastCommittedBlock (e :: rest), m < n := fun n hn m hm => by
    obtain ⟨r, hr, -, rfl⟩ := mem_liveBlocks.1 hm
    have hr := hAfter r hr
    have hn := hLastLeast n hn
    omega
  have hTop : topRanked (liveBlocks btlPolicy lastCommittedBlock (done ++ e :: rest))
      maxBlock.toNat = liveBlocks btlPolicy lastCommittedBlock done := by
    have hCard := h.counted.reached_iff.1 hReached
    rw [liveBlocks_append]
    exact topRanked_union_of_lt hOlder (by omega)
  refine ⟨fun b => ?_, fun b t x => ?_⟩
  · rw [hTop]
    exact h.collected.isSome_iff b
  · rw [hTop, h.collected.mem_missingAt_iff, liveMissing_append]
    constructor
    · exact fun hx => ⟨hx.toNat_mem_liveBlocks, .inl hx⟩
    · rintro ⟨hb, hx | hx⟩
      · exact hx
      · exact absurd (hOlder _ hb _ hx.toNat_mem_liveBlocks) (lt_irrefl _)

/-! ### The whole loop -/

theorem getMissingDataLoop_reports :
    ∀ (rest done : List (NsCollBlk × Finset ℕ)) (st : MissingDataScan),
      (done ++ rest).Pairwise (fun a b => a.1 < b.1) → (∀ e ∈ rest, BitmapKept btlPolicy e) →
      ScanInv btlPolicy lastCommittedBlock maxBlock done st →
      ∃ info, getMissingDataLoop btlPolicy lastCommittedBlock maxBlock st rest = .ok info ∧
        Reports btlPolicy lastCommittedBlock maxBlock (done ++ rest) info
  | [], done, st, _, _, h => ⟨_, rfl, by simpa using h.reports_of_done⟩
  | (key, bitmap) :: rest, done, st, hSorted, hSet, h => by
    obtain ⟨-, hRest, hCross⟩ := List.pairwise_append.1 hSorted
    have hAbove : ∀ n ∈ liveBlocks btlPolicy lastCommittedBlock done, key.blkNum.toNat ≤ n :=
      fun n hn => by
        obtain ⟨d, hd, -, rfl⟩ := mem_liveBlocks.1 hn
        exact NsCollBlk.toNat_blkNum_le_of_lt (hCross d hd _ List.mem_cons_self)
    have hAfter : ∀ r ∈ (key, bitmap) :: rest, r.1.blkNum.toNat ≤ key.blkNum.toNat := by
      intro r hr
      rcases List.mem_cons.1 hr with rfl | hr
      · exact le_rfl
      · exact NsCollBlk.toNat_blkNum_le_of_lt (List.rel_of_pairwise_cons hRest hr)
    by_cases hStop : (st.isMaxBlockLimitReached && key.blkNum != st.lastProcessedBlock) = true
    · have hStop' := hStop
      simp only [Bool.and_eq_true, bne_iff_ne, ne_eq] at hStop'
      exact ⟨_, by rw [getMissingDataLoop, if_pos hStop],
        h.reports_of_stop hStop'.1 hStop'.2 hAbove hAfter⟩
    · obtain ⟨hBits, btl, hBtlOk⟩ := hSet _ List.mem_cons_self
      have hExp := isExpired_of_btl btlPolicy key lastCommittedBlock btl hBtlOk
      have hSorted' : ((done ++ [(key, bitmap)]) ++ rest).Pairwise (fun a b => a.1 < b.1) := by
        simpa using hSorted
      have hSet' : ∀ e ∈ rest, BitmapKept btlPolicy e :=
        fun e he => hSet e (List.mem_cons_of_mem _ he)
      rw [List.append_cons]
      cases hDec : decide (computeExpiringBlock key.blkNum btl ≤ lastCommittedBlock)
      · have hLive : Live btlPolicy lastCommittedBlock (key, bitmap) := by
          rw [Live, hExp, hDec]
        have hGo : (st.isMaxBlockLimitReached && key.blkNum != st.lastProcessedBlock) = false := by
          simpa using hStop
        rw [getMissingDataLoop, if_neg hStop, hExp, hDec]
        refine getMissingDataLoop_reports rest _ _ hSorted' hSet' ⟨?_, ?_⟩
        · rw [missingPvtDataInfo_countBlock]
          exact h.collected.addBitmap hLive hBits
        · exact (h.counted.countBlock h.collected hLive hAbove hGo).with_info _
      · have hExpired : ¬ Live btlPolicy lastCommittedBlock (key, bitmap) := by
          rw [Live, hExp, hDec]
          simp
        rw [getMissingDataLoop, if_neg hStop, hExp, hDec]
        exact getMissingDataLoop_reports rest _ _ hSorted' hSet'
          ⟨h.collected.skip hExpired, h.counted.skip hExpired⟩

end Scan

/-! ## `getMissingData` -/

def Store.missingDataInRange (s : Store) (group : MissingDataGroup) (startingBlockNum : UInt64) :
    List (NsCollBlk × Finset ℕ) :=
  (s.db.missingDataGroup group).scan fun k => 0 < k.blkNum && k.blkNum ≤ startingBlockNum

/-! ## The bitmaps of a reachable store -/

def MapKept (btlPolicy : BTLPolicy) (m : SortedMap NsCollBlk (Finset ℕ)) : Prop :=
  ∀ k bitmap, m.get? k = some bitmap → BitmapKept btlPolicy (k, bitmap)

def DB.BitmapsKept (btlPolicy : BTLPolicy) (db : DB) : Prop :=
  MapKept btlPolicy db.elgPrioMissingData ∧ MapKept btlPolicy db.elgDeprioMissingData

def EntriesKnownBtl (btlPolicy : BTLPolicy) (e : EntriesForPvtDataOfOldBlocks) : Prop :=
  (∀ k bitmap, e.prioritizedMissingDataEntries.get? k = some bitmap → KnownBtl btlPolicy k) ∧
    ∀ k bitmap, e.deprioritizedMissingDataEntries.get? k = some bitmap → KnownBtl btlPolicy k

section Kept

variable {btlPolicy : BTLPolicy} {computeStringHash : KeyHasher}

theorem MapKept.writeBatch {m : SortedMap NsCollBlk (Finset ℕ)}
    {ops : List (BatchOp NsCollBlk (Finset ℕ))} (hm : MapKept btlPolicy m)
    (hOps : ∀ k bitmap, BatchOp.put k bitmap ∈ ops → BitmapKept btlPolicy (k, bitmap)) :
    MapKept btlPolicy (m.writeBatch ops) := fun k bitmap h =>
  (SortedMap.get?_writeBatch_eq_some m ops h).elim (hOps k bitmap) (hm k bitmap)

theorem MapKept.writeBatch_deletes {m : SortedMap NsCollBlk (Finset ℕ)} (hm : MapKept btlPolicy m)
    (ks : List NsCollBlk) : MapKept btlPolicy (m.writeBatch (ks.map .delete)) :=
  hm.writeBatch fun k bitmap h => by simp at h

theorem DB.bitmapsKept_empty : DB.empty.BitmapsKept btlPolicy :=
  ⟨fun _ _ h => by simp [DB.empty] at h, fun _ _ h => by simp [DB.empty] at h⟩

theorem nonempty_setMissingBit {entries : GoMap NsCollBlk (Finset ℕ)}
    (h : ∀ k bitmap, entries.get? k = some bitmap → bitmap.Nonempty) (key : NsCollBlk)
    (txNum : UInt64) :
    ∀ k bitmap, (setMissingBit entries key txNum).get? k = some bitmap → bitmap.Nonempty := by
  rw [setMissingBit]
  exact GoMap.forall_get?_insert h (Finset.insert_nonempty _ _)

theorem nonempty_of_prepareMissingDataEntries (committingBlk : UInt64)
    (missingPvtData : TxMissingPvtData) :
    ∀ k bitmap, (prepareMissingDataEntries committingBlk missingPvtData).1.get? k = some bitmap →
      bitmap.Nonempty := by
  unfold prepareMissingDataEntries
  refine foldl_invariant (fun acc : GoMap NsCollBlk (Finset ℕ) × GoMap NsCollBlk (Finset ℕ) =>
      ∀ k bitmap, acc.1.get? k = some bitmap → bitmap.Nonempty) ?_ _ _ (fun _ _ h => by simp at h)
  rintro acc ⟨txNum, missingData⟩ hAcc
  refine foldl_invariant (fun acc : GoMap NsCollBlk (Finset ℕ) × GoMap NsCollBlk (Finset ℕ) =>
      ∀ k bitmap, acc.1.get? k = some bitmap → bitmap.Nonempty) ?_ _ _ hAcc
  rintro ⟨elg, inelg⟩ nsColl hElg
  dsimp only
  split
  · exact nonempty_setMissingBit hElg _ _
  · exact hElg

theorem knownBtl_of_prepareExpiryEntries {blockNum : UInt64} {dataEntries : List DataEntry}
    {elg inelg : GoMap NsCollBlk (Finset ℕ)} {expiryEntries : List (ExpiryKey × ExpiryData)}
    (h : prepareExpiryEntries btlPolicy blockNum dataEntries elg inelg = .ok expiryEntries)
    (k : NsCollBlk) (hk : k ∈ elg.keys) : KnownBtl btlPolicy k := by
  unfold prepareExpiryEntries at h
  obtain ⟨m, -, h⟩ := (bind_eq_ok _ _ _).1 h
  obtain ⟨m', hm', -⟩ := (bind_eq_ok _ _ _).1 h
  obtain ⟨m'', r, hPass⟩ := exists_of_foldlM_eq_ok hm' k hk
  unfold prepareExpiryEntriesForMissingData getExpiringBlock at hPass
  cases hBtl : btlPolicy k.ns k.coll with
  | error err =>
    rw [hBtl] at hPass
    cases hPass
  | ok btl => exact ⟨btl, hBtl⟩

theorem DB.BitmapsKept.commit {s s' : Store} {blockNum : UInt64} {pvtData : List TxPvtData}
    {missingPvtData : TxMissingPvtData} {purgeMarkers : List PurgeMarker} {scheduled : Bool}
    (hKept : s.db.BitmapsKept btlPolicy)
    (h : s.commit btlPolicy computeStringHash blockNum pvtData missingPvtData purgeMarkers =
      .ok (s', scheduled)) :
    s'.db.BitmapsKept btlPolicy := by
  obtain ⟨-, -, entries, hEntries, rfl, -⟩ := Store.commit_eq_ok h
  obtain ⟨expiryEntries, hExpiry, rfl⟩ := prepareStoreEntries_eq_ok hEntries
  refine ⟨hKept.1.writeBatch ?_, hKept.2⟩
  intro k bitmap hPut
  simp only [StoreEntries.toBatch, List.mem_map, BatchOp.put.injEq] at hPut
  obtain ⟨⟨k', bitmap'⟩, hMem, rfl, rfl⟩ := hPut
  have hGet := (GoMap.mem_entries _ _).1 hMem
  exact ⟨nonempty_of_prepareMissingDataEntries _ _ _ _ hGet,
    knownBtl_of_prepareExpiryEntries hExpiry _ ((GoMap.mem_keys _ _).2 (by rw [hGet]; rfl))⟩

theorem knownBtl_of_getPrio {db : DB} {e : EntriesForPvtDataOfOldBlocks} {key : NsCollBlk}
    {bitmap : Finset ℕ} (hKept : db.BitmapsKept btlPolicy) (hE : EntriesKnownBtl btlPolicy e)
    (h : getPrioMissingDataFromEntriesOrStore db e key = some bitmap) : KnownBtl btlPolicy key := by
  unfold getPrioMissingDataFromEntriesOrStore at h
  split at h
  · rename_i missingData hGet
    exact hE.1 key missingData hGet
  · exact (hKept.1 key bitmap h).2

theorem knownBtl_of_getDeprio {db : DB} {e : EntriesForPvtDataOfOldBlocks} {key : NsCollBlk}
    {bitmap : Finset ℕ} (hKept : db.BitmapsKept btlPolicy) (hE : EntriesKnownBtl btlPolicy e)
    (h : getDeprioMissingDataFromEntriesOrStore db e key = some bitmap) :
    KnownBtl btlPolicy key := by
  unfold getDeprioMissingDataFromEntriesOrStore at h
  split at h
  · rename_i missingData hGet
    exact hE.2 key missingData hGet
  · exact (hKept.2 key bitmap h).2

theorem EntriesKnownBtl.insertPrio {e : EntriesForPvtDataOfOldBlocks} {key : NsCollBlk}
    (hE : EntriesKnownBtl btlPolicy e) (hKey : KnownBtl btlPolicy key) (bitmap : Finset ℕ) :
    EntriesKnownBtl btlPolicy
      { e with prioritizedMissingDataEntries := e.prioritizedMissingDataEntries.insert key bitmap } :=
  ⟨GoMap.forall_get?_insert hE.1 hKey, hE.2⟩

theorem EntriesKnownBtl.insertDeprio {e : EntriesForPvtDataOfOldBlocks} {key : NsCollBlk}
    (hE : EntriesKnownBtl btlPolicy e) (hKey : KnownBtl btlPolicy key) (bitmap : Finset ℕ) :
    EntriesKnownBtl btlPolicy
      { e with deprioritizedMissingDataEntries :=
          e.deprioritizedMissingDataEntries.insert key bitmap } :=
  ⟨hE.1, GoMap.forall_get?_insert hE.2 hKey⟩

theorem EntriesKnownBtl.prepareDataAndExpiryEntry {db : DB} {e e' : EntriesForPvtDataOfOldBlocks}
    {dataEntry : DataEntry} (hE : EntriesKnownBtl btlPolicy e)
    (h : prepareDataAndExpiryEntry db btlPolicy e dataEntry = .ok e') :
    EntriesKnownBtl btlPolicy e' := by
  unfold FabricPeer.Pvtdatastorage.prepareDataAndExpiryEntry at h
  obtain ⟨expKey, -, h⟩ := (bind_eq_ok _ _ _).1 h
  split at h
  · cases h
    exact hE
  · split at h
    · cases h
      exact hE
    · cases h
      exact hE

theorem EntriesKnownBtl.clearDeprio {db : DB} {e : EntriesForPvtDataOfOldBlocks}
    (hKept : db.BitmapsKept btlPolicy) (hE : EntriesKnownBtl btlPolicy e) (key : NsCollBlk)
    (txNum : ℕ) :
    EntriesKnownBtl btlPolicy (match getDeprioMissingDataFromEntriesOrStore db e key with
      | some deprio =>
        if txNum ∈ deprio then
          { e with
            deprioritizedMissingDataEntries :=
              e.deprioritizedMissingDataEntries.insert key (deprio.erase txNum) }
        else e
      | none => e) := by
  split
  · rename_i deprio hDeprio
    split
    · exact hE.insertDeprio (knownBtl_of_getDeprio hKept hE hDeprio) _
    · exact hE
  · exact hE

theorem EntriesKnownBtl.reflectReconciledData {db : DB} {e : EntriesForPvtDataOfOldBlocks}
    (hKept : db.BitmapsKept btlPolicy) (hE : EntriesKnownBtl btlPolicy e) (dataKey : DataKey) :
    EntriesKnownBtl btlPolicy (reflectReconciledData db e dataKey) := by
  unfold FabricPeer.Pvtdatastorage.reflectReconciledData
  dsimp only
  split
  · rename_i prio hPrio
    split
    · exact hE.insertPrio (knownBtl_of_getPrio hKept hE hPrio) _
    · exact hE.clearDeprio hKept _ _
  · exact hE.clearDeprio hKept _ _

theorem EntriesKnownBtl.reflectPriority {db : DB} {e : EntriesForPvtDataOfOldBlocks}
    (hKept : db.BitmapsKept btlPolicy) (hE : EntriesKnownBtl btlPolicy e) (key : NsCollBlk)
    (txNum : ℕ) : EntriesKnownBtl btlPolicy (reflectPriority db e key txNum) := by
  unfold FabricPeer.Pvtdatastorage.reflectPriority
  split
  · exact hE
  · rename_i prio hPrio
    have hKey := knownBtl_of_getPrio hKept hE hPrio
    exact (hE.insertPrio hKey _).insertDeprio hKey _

theorem eq_of_missingDataOp_eq_put {entry : NsCollBlk × Finset ℕ} {k : NsCollBlk}
    {bitmap : Finset ℕ} (h : missingDataOp entry = .put k bitmap) :
    entry = (k, bitmap) ∧ bitmap.Nonempty := by
  unfold missingDataOp at h
  split at h
  · cases h
  · cases h
    exact ⟨rfl, Finset.nonempty_iff_ne_empty.2 ‹_›⟩

theorem MapKept.writeBatch_missingDataOp {m : SortedMap NsCollBlk (Finset ℕ)}
    {entries : GoMap NsCollBlk (Finset ℕ)} (hm : MapKept btlPolicy m)
    (hEntries : ∀ k bitmap, entries.get? k = some bitmap → KnownBtl btlPolicy k) :
    MapKept btlPolicy (m.writeBatch (entries.entries.map missingDataOp)) := by
  refine hm.writeBatch fun k bitmap hPut => ?_
  obtain ⟨entry, hMem, hOp⟩ := List.mem_map.1 hPut
  obtain ⟨rfl, hNonempty⟩ := eq_of_missingDataOp_eq_put hOp
  exact ⟨hNonempty, hEntries k bitmap ((GoMap.mem_entries _ _).1 hMem)⟩

theorem DB.BitmapsKept.commitPvtDataOfOldBlocks {db db' : DB}
    {blocksPvtData : GoMap UInt64 (List TxPvtData)} {unreconciled : MissingPvtDataInfo}
    (hKept : db.BitmapsKept btlPolicy)
    (h : db.commitPvtDataOfOldBlocks btlPolicy computeStringHash blocksPvtData unreconciled =
      .ok db') :
    db'.BitmapsKept btlPolicy := by
  unfold DB.commitPvtDataOfOldBlocks at h
  obtain ⟨e, hPrepare, h⟩ := (bind_eq_ok _ _ _).1 h
  cases h
  have hE : EntriesKnownBtl btlPolicy e :=
    foldlM_eq_ok_invariant (EntriesKnownBtl btlPolicy)
      (fun _ _ _ hE hPass => hE.prepareDataAndExpiryEntry hPass) hPrepare
      ⟨fun _ _ h => by simp [EntriesForPvtDataOfOldBlocks.empty] at h,
        fun _ _ h => by simp [EntriesForPvtDataOfOldBlocks.empty] at h⟩
  have hHashed : EntriesKnownBtl btlPolicy (e.prepareHashedIndexEntries computeStringHash) := hE
  have hReconciled : EntriesKnownBtl btlPolicy (prepareMissingDataEntriesToReflectReconciledData db
      (e.prepareHashedIndexEntries computeStringHash)) :=
    foldl_invariant (EntriesKnownBtl btlPolicy)
      (fun _ dataKey hE' => hE'.reflectReconciledData hKept dataKey) _ _ hHashed
  have hPriority : EntriesKnownBtl btlPolicy (prepareMissingDataEntriesToReflectPriority db
      (prepareMissingDataEntriesToReflectReconciledData db
        (e.prepareHashedIndexEntries computeStringHash)) unreconciled) :=
    foldl_invariant (EntriesKnownBtl btlPolicy)
      (fun _ entry hE' => hE'.reflectPriority hKept entry.1 entry.2) _ _ hReconciled
  exact ⟨hKept.1.writeBatch_missingDataOp hPriority.1, hKept.2.writeBatch_missingDataOp hPriority.2⟩

theorem DB.BitmapsKept.purgeExpiryEntry {db : DB} (hKept : db.BitmapsKept btlPolicy)
    (expiryEntry : ExpiryKey × ExpiryData) :
    (db.purgeExpiryEntry computeStringHash expiryEntry).BitmapsKept btlPolicy :=
  ⟨hKept.1.writeBatch_deletes _, hKept.2.writeBatch_deletes _⟩

theorem DB.BitmapsKept.commitPendingChanges {db : DB} (hKept : db.BitmapsKept btlPolicy)
    (p : PurgeUpdatesProcessor) : (p.commitPendingChanges db).BitmapsKept btlPolicy :=
  hKept

theorem DB.BitmapsKept.process {db : DB} (hKept : db.BitmapsKept btlPolicy)
    (exceedsMaxBatchSize : PurgeUpdatesProcessor → Bool) (p : PurgeUpdatesProcessor)
    (entry : HashedIndexKey × String) :
    (p.process exceedsMaxBatchSize db entry).2.BitmapsKept btlPolicy := by
  unfold PurgeUpdatesProcessor.process
  dsimp only
  split
  · exact hKept.commitPendingChanges _
  · exact hKept

theorem DB.BitmapsKept.step {exceedsMaxBatchSize : PurgeUpdatesProcessor → Bool}
    {σ σ' : PeerState} (hKept : σ.store.db.BitmapsKept btlPolicy)
    (h : Step btlPolicy computeStringHash exceedsMaxBatchSize σ σ') :
    σ'.store.db.BitmapsKept btlPolicy := by
  cases h with
  | commit _ _ _ _ _ _ hCommit => exact hKept.commit hCommit
  | commitOldBlocks _ _ _ _ hCommit => exact hKept.commitPvtDataOfOldBlocks hCommit
  | expire e => exact hKept.purgeExpiryEntry e
  | process p _ _ e => exact hKept.process _ p e
  | release p => exact hKept.commitPendingChanges p
  | acquire | scanPurgeMarkers | scanHashedIndex | markerProcessed => exact hKept

theorem bitmapsKept_of_reachable {exceedsMaxBatchSize : PurgeUpdatesProcessor → Bool}
    {purgeInterval : UInt64} {σ : PeerState}
    (hReach : Reachable (Step btlPolicy computeStringHash exceedsMaxBatchSize)
      (PeerState.init purgeInterval) σ) :
    σ.store.db.BitmapsKept btlPolicy :=
  Reachable.invariant (fun σ : PeerState => σ.store.db.BitmapsKept btlPolicy) DB.bitmapsKept_empty
    (fun _ _ hKept hStep => hKept.step hStep) hReach

end Kept

section MissingData

variable (btlPolicy : BTLPolicy) (computeStringHash : KeyHasher)
  (exceedsMaxBatchSize : PurgeUpdatesProcessor → Bool)

theorem getMissingData_reports_most_recent_blocks {purgeInterval : UInt64} {σ : PeerState}
    (hReach : Reachable (Step btlPolicy computeStringHash exceedsMaxBatchSize)
      (PeerState.init purgeInterval) σ)
    (group : MissingDataGroup) (startingBlockNum : UInt64) (maxBlock : Int) (hMax : 1 ≤ maxBlock) :
    ∃ info, σ.store.getMissingData btlPolicy group startingBlockNum maxBlock = .ok info ∧
      Reports btlPolicy σ.store.lastCommittedBlock maxBlock
        (σ.store.missingDataInRange group startingBlockNum) info := by
  have hKept := bitmapsKept_of_reachable hReach
  have hGroup : MapKept btlPolicy (σ.store.db.missingDataGroup group) := by
    cases group
    · exact hKept.1
    · exact hKept.2
  have hRun := @getMissingDataLoop_reports btlPolicy σ.store.lastCommittedBlock maxBlock
    (σ.store.missingDataInRange group startingBlockNum) [] ⟨GoMap.empty, 0, 0, false⟩
    (by rw [List.nil_append]; exact SortedMap.pairwise_scan _ _)
    (fun e he => hGroup e.1 e.2 ((SortedMap.mem_scan _ _ _ _).1 he).1) (scanInv_init hMax)
  rw [List.nil_append] at hRun
  exact hRun

theorem getMissingData_reports_most_recent_blocks_threeCommits :
    ∃ σ, Reachable (Step (fun _ _ => .ok maxUint64) id fun _ => false) (PeerState.init 1) σ ∧
      ∃ info, σ.store.getMissingData (fun _ _ => .ok maxUint64) .prioritized 2 2 = .ok info ∧
        Reports (fun _ _ => .ok maxUint64) σ.store.lastCommittedBlock 2
          (σ.store.missingDataInRange .prioritized 2) info := by
  have hReach := (((Reachable.refl (Step (fun _ _ => .ok maxUint64) id fun _ => false)
    (PeerState.init 1)).tail
    (Step.commit _ 0 [] GoMap.empty [] _ _ rfl)).tail
    (Step.commit _ 1 [] (GoMap.empty.insert 0 [⟨"a", "c", true⟩]) [] _ _ rfl)).tail
    (Step.commit _ 2 [] (GoMap.empty.insert 0 [⟨"a", "c", true⟩, ⟨"b", "c", true⟩]) [] _ _ rfl)
  exact ⟨_, hReach,
    getMissingData_reports_most_recent_blocks _ _ _ hReach .prioritized 2 2 (by decide)⟩

end MissingData

end FabricPeer.Pvtdatastorage
