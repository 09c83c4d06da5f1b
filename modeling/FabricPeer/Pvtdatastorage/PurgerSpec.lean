import FabricPeer.Pvtdatastorage.Purger
import FabricPeer.Pvtdatastorage.StoreSpec

/-! # Runs of the purger, and a purge marker that a commit rewrites

The purger goroutine that holds `purgerLock` runs to its end whatever else happens: each of its
steps is enabled while it is where it is, so from any state the system reaches the state where
the purger has written its last batch (`PurgerPhase.finish`). On the way it deletes every purge
marker it has read, whatever the store holds under that key by then, and it writes back only
write sets of blocks it has read, which are at or below the last committed block.

`Commit` does not take `purgerLock`. A commit that runs while the purger holds a marker it has
read, and that writes a marker for the same key, loses that marker: the purger deletes it at its
last batch, and the writes of the new block to that key stay readable.
-/

namespace FabricPeer.Pvtdatastorage

open FabricPeer.Ledger GoRun KVStore Transition

set_option autoImplicit false

/-! ## One batch of the purger -/

theorem commitPendingChanges_purgeMarkers (p : PurgeUpdatesProcessor) (db : DB)
    (pk : PurgeMarkerKey) :
    (p.commitPendingChanges db).purgeMarkers.get? pk =
      if pk ∈ p.purgeMarkerDeletes then none else db.purgeMarkers.get? pk :=
  SortedMap.get?_writeBatch_deletes _ _ _

theorem commitPendingChanges_data_of_none (p : PurgeUpdatesProcessor) (db : DB) {k : DataKey}
    (hk : p.pvtWrites.get? k = none) : (p.commitPendingChanges db).data.get? k = db.data.get? k := by
  apply SortedMap.get?_writeBatch_of_forall_ne
  intro op hOp hKey
  obtain ⟨w, hw, rfl⟩ := List.mem_map.1 hOp
  have hGet := GoMap.get?_of_mem_entries _ hw
  rw [show w.1 = k from hKey, hk] at hGet
  cases hGet

def MarkerDeleted (pk : PurgeMarkerKey) (p : PurgeUpdatesProcessor) (db : DB) : Prop :=
  db.purgeMarkers.get? pk = none ∨ pk ∈ p.purgeMarkerDeletes

theorem MarkerDeleted.commitPendingChanges {pk : PurgeMarkerKey} {p : PurgeUpdatesProcessor}
    {db : DB} (h : MarkerDeleted pk p db) : (p.commitPendingChanges db).purgeMarkers.get? pk = none := by
  rw [commitPendingChanges_purgeMarkers]
  split_ifs with hMem
  · rfl
  · exact h.resolve_right hMem

theorem MarkerDeleted.addProcessed {pk : PurgeMarkerKey} {p : PurgeUpdatesProcessor} {db : DB}
    (h : MarkerDeleted pk p db) (pk' : PurgeMarkerKey) :
    MarkerDeleted pk (p.addProcessedPurgeMarkerForDeletion pk') db :=
  h.imp_right (List.mem_append_left _)

theorem markerDeleted_addProcessed_self (pk : PurgeMarkerKey) (p : PurgeUpdatesProcessor) (db : DB) :
    MarkerDeleted pk (p.addProcessedPurgeMarkerForDeletion pk) db :=
  .inr (List.mem_append_right _ (List.mem_singleton_self pk))

def PurgeUpdatesProcessor.WritesBelow (p : PurgeUpdatesProcessor) (n : ℕ) : Prop :=
  ∀ k c, p.pvtWrites.get? k = some c → k.blkNum.toNat ≤ n

theorem newPurgeUpdatesProcessor_writesBelow (n : ℕ) : newPurgeUpdatesProcessor.WritesBelow n :=
  fun _ _ hGet => nomatch hGet

theorem PurgeUpdatesProcessor.WritesBelow.trim {p : PurgeUpdatesProcessor} {n : ℕ}
    (h : p.WritesBelow n) (db : DB) {k : HashedIndexKey} (v : String) (hk : k.blkNum.toNat ≤ n) :
    (p.trim db k v).WritesBelow n := by
  intro k' c hGet
  simp only [PurgeUpdatesProcessor.trim, GoMap.get?_insert] at hGet
  split_ifs at hGet with hEq
  · rw [hEq]
    exact hk
  · exact h k' c hGet

theorem PurgeUpdatesProcessor.WritesBelow.addProcessed {p : PurgeUpdatesProcessor} {n : ℕ}
    (h : p.WritesBelow n) (pk : PurgeMarkerKey) : (p.addProcessedPurgeMarkerForDeletion pk).WritesBelow n :=
  h

theorem commitPendingChanges_data_above {p : PurgeUpdatesProcessor} {n : ℕ} (h : p.WritesBelow n)
    (db : DB) {k : DataKey} (hk : n < k.blkNum.toNat) :
    (p.commitPendingChanges db).data.get? k = db.data.get? k := by
  apply commitPendingChanges_data_of_none
  cases hGet : p.pvtWrites.get? k with
  | none => rfl
  | some c =>
    have hLe := h k c hGet
    omega

theorem commitPendingChanges_purgeMarkers_of_some (p : PurgeUpdatesProcessor) (db : DB)
    {pk : PurgeMarkerKey} {mh : Height}
    (hGet : (p.commitPendingChanges db).purgeMarkers.get? pk = some mh) :
    db.purgeMarkers.get? pk = some mh := by
  rw [commitPendingChanges_purgeMarkers] at hGet
  split_ifs at hGet
  exact hGet

/-! ## The loops of `deleteDataMarkedForPurge` -/

section Loops

variable (exceedsMaxBatchSize : PurgeUpdatesProcessor → Bool)

theorem processHashedIndexEntries_cons (p : PurgeUpdatesProcessor) (db : DB)
    (e : HashedIndexKey × String) (es : List (HashedIndexKey × String)) :
    processHashedIndexEntries exceedsMaxBatchSize p db (e :: es) =
      processHashedIndexEntries exceedsMaxBatchSize (p.process exceedsMaxBatchSize db e).1
        (p.process exceedsMaxBatchSize db e).2 es := rfl

theorem processPurgeMarkers_cons (p : PurgeUpdatesProcessor) (db : DB)
    (m : PurgeMarkerKey × Height) (ms : List (PurgeMarkerKey × Height)) :
    processPurgeMarkers exceedsMaxBatchSize p db (m :: ms) =
      processPurgeMarkers exceedsMaxBatchSize
        ((processHashedIndexEntries exceedsMaxBatchSize p db (db.hashedIndexRangeOf m)).1.addProcessedPurgeMarkerForDeletion m.1)
        (processHashedIndexEntries exceedsMaxBatchSize p db (db.hashedIndexRangeOf m)).2 ms := rfl

theorem MarkerDeleted.process {pk : PurgeMarkerKey} {p : PurgeUpdatesProcessor} {db : DB}
    (h : MarkerDeleted pk p db) (e : HashedIndexKey × String) :
    MarkerDeleted pk (p.process exceedsMaxBatchSize db e).1 (p.process exceedsMaxBatchSize db e).2 := by
  unfold PurgeUpdatesProcessor.process
  dsimp only
  split_ifs
  · exact .inl (MarkerDeleted.commitPendingChanges (p := p.trim db e.1 e.2) h)
  · exact h

theorem MarkerDeleted.processHashedIndexEntries {pk : PurgeMarkerKey} {p : PurgeUpdatesProcessor}
    {db : DB} (h : MarkerDeleted pk p db) (es : List (HashedIndexKey × String)) :
    MarkerDeleted pk (processHashedIndexEntries exceedsMaxBatchSize p db es).1
      (processHashedIndexEntries exceedsMaxBatchSize p db es).2 := by
  induction es generalizing p db with
  | nil => exact h
  | cons e es ih =>
    rw [processHashedIndexEntries_cons]
    exact ih (h.process exceedsMaxBatchSize e)

theorem processPurgeMarkers_deletes {pk : PurgeMarkerKey} (p : PurgeUpdatesProcessor) (db : DB)
    (ms : List (PurgeMarkerKey × Height)) (h : MarkerDeleted pk p db ∨ pk ∈ ms.map Prod.fst) :
    (processPurgeMarkers exceedsMaxBatchSize p db ms).purgeMarkers.get? pk = none := by
  induction ms generalizing p db with
  | nil => exact (h.resolve_right List.not_mem_nil).commitPendingChanges
  | cons m ms ih =>
    rw [processPurgeMarkers_cons]
    apply ih
    rcases h with hDel | hMem
    · exact .inl ((hDel.processHashedIndexEntries exceedsMaxBatchSize _).addProcessed m.1)
    · rcases List.mem_cons.1 hMem with rfl | hRest
      · exact .inl (markerDeleted_addProcessed_self _ _ _)
      · exact .inr hRest

theorem PurgeUpdatesProcessor.WritesBelow.process {p : PurgeUpdatesProcessor} {n : ℕ}
    (h : p.WritesBelow n) (db : DB) {e : HashedIndexKey × String} (he : e.1.blkNum.toNat ≤ n) :
    (p.process exceedsMaxBatchSize db e).1.WritesBelow n := by
  unfold PurgeUpdatesProcessor.process
  dsimp only
  split_ifs
  · exact newPurgeUpdatesProcessor_writesBelow n
  · exact h.trim db e.2 he

theorem process_data_above {p : PurgeUpdatesProcessor} {n : ℕ} (h : p.WritesBelow n) (db : DB)
    {e : HashedIndexKey × String} (he : e.1.blkNum.toNat ≤ n) {k : DataKey}
    (hk : n < k.blkNum.toNat) : (p.process exceedsMaxBatchSize db e).2.data.get? k = db.data.get? k := by
  unfold PurgeUpdatesProcessor.process
  dsimp only
  split_ifs
  · exact commitPendingChanges_data_above (h.trim db e.2 he) db hk
  · rfl

theorem process_purgeMarkers_of_some (p : PurgeUpdatesProcessor) (db : DB)
    (e : HashedIndexKey × String) {pk : PurgeMarkerKey} {mh : Height}
    (hGet : (p.process exceedsMaxBatchSize db e).2.purgeMarkers.get? pk = some mh) :
    db.purgeMarkers.get? pk = some mh := by
  unfold PurgeUpdatesProcessor.process at hGet
  dsimp only at hGet
  split_ifs at hGet
  · exact commitPendingChanges_purgeMarkers_of_some _ db hGet
  · exact hGet

theorem processHashedIndexEntries_below {p : PurgeUpdatesProcessor} {n : ℕ} (h : p.WritesBelow n)
    (db : DB) {es : List (HashedIndexKey × String)} (hes : ∀ e ∈ es, e.1.blkNum.toNat ≤ n)
    {k : DataKey} (hk : n < k.blkNum.toNat) :
    (processHashedIndexEntries exceedsMaxBatchSize p db es).1.WritesBelow n ∧
      (processHashedIndexEntries exceedsMaxBatchSize p db es).2.data.get? k = db.data.get? k := by
  induction es generalizing p db with
  | nil => exact ⟨h, rfl⟩
  | cons e es ih =>
    have he := hes e List.mem_cons_self
    rw [processHashedIndexEntries_cons]
    obtain ⟨hBelow, hData⟩ := ih (h.process exceedsMaxBatchSize db he) _
      fun e' he' => hes e' (List.mem_cons_of_mem _ he')
    exact ⟨hBelow, hData.trans (process_data_above exceedsMaxBatchSize h db he hk)⟩

theorem blkNum_le_of_mem_hashedIndexRangeOf {db : DB} {m : PurgeMarkerKey × Height}
    {e : HashedIndexKey × String} (he : e ∈ db.hashedIndexRangeOf m) :
    e.1.blkNum.toNat ≤ m.2.blockNum.toNat := by
  obtain ⟨k, v⟩ := e
  obtain ⟨-, hRange⟩ := (SortedMap.mem_scan _ _ _ _).1 he
  simp only [Bool.and_eq_true, heightLt, Bool.or_eq_true, decide_eq_true_eq] at hRange
  rcases hRange.2 with hLt | ⟨hEq, -⟩
  · exact Nat.le_of_lt (UInt64.lt_iff_toNat_lt.1 hLt)
  · rw [hEq]

theorem processPurgeMarkers_data_above {p : PurgeUpdatesProcessor} {n : ℕ} (h : p.WritesBelow n)
    (db : DB) {ms : List (PurgeMarkerKey × Height)} (hms : ∀ m ∈ ms, m.2.blockNum.toNat ≤ n)
    {k : DataKey} (hk : n < k.blkNum.toNat) :
    (processPurgeMarkers exceedsMaxBatchSize p db ms).data.get? k = db.data.get? k := by
  induction ms generalizing p db with
  | nil => exact commitPendingChanges_data_above h db hk
  | cons m ms ih =>
    have hm := hms m List.mem_cons_self
    obtain ⟨hBelow, hData⟩ := processHashedIndexEntries_below exceedsMaxBatchSize h db
      (fun e he => (blkNum_le_of_mem_hashedIndexRangeOf he).trans hm) hk
    rw [processPurgeMarkers_cons]
    exact (ih (hBelow.addProcessed m.1) _ fun m' hm' => hms m' (List.mem_cons_of_mem _ hm')).trans hData

end Loops

/-! ## The purger run to its end -/

def PurgerPhase.finish (computeStringHash : KeyHasher)
    (exceedsMaxBatchSize : PurgeUpdatesProcessor → Bool) (db : DB) : PurgerPhase → DB
  | .expiring es =>
    let db := es.foldl (DB.purgeExpiryEntry computeStringHash) db
    processPurgeMarkers exceedsMaxBatchSize newPurgeUpdatesProcessor db db.purgeMarkers.entries
  | .markers p ms => processPurgeMarkers exceedsMaxBatchSize p db ms
  | .hashedIndex p m ms es =>
    let r := processHashedIndexEntries exceedsMaxBatchSize p db es
    processPurgeMarkers exceedsMaxBatchSize (r.1.addProcessedPurgeMarkerForDeletion m.1) r.2 ms

def PurgerPhase.markersToDelete : PurgerPhase → List PurgeMarkerKey
  | .expiring _ => []
  | .markers p ms => p.purgeMarkerDeletes ++ ms.map Prod.fst
  | .hashedIndex p m ms _ => p.purgeMarkerDeletes ++ m.1 :: ms.map Prod.fst

def PurgerPhase.Below (n : ℕ) : PurgerPhase → Prop
  | .expiring _ => True
  | .markers p ms => p.WritesBelow n ∧ ∀ m ∈ ms, m.2.blockNum.toNat ≤ n
  | .hashedIndex p m ms es => p.WritesBelow n ∧ m.2.blockNum.toNat ≤ n ∧
      (∀ m' ∈ ms, m'.2.blockNum.toNat ≤ n) ∧ ∀ e ∈ es, e.1.blkNum.toNat ≤ n

theorem PurgerPhase.Below.mono {phase : PurgerPhase} {n n' : ℕ} (h : phase.Below n) (hLe : n ≤ n') :
    phase.Below n' := by
  have hWrites : ∀ {p : PurgeUpdatesProcessor}, p.WritesBelow n → p.WritesBelow n' :=
    fun hp k c hGet => (hp k c hGet).trans hLe
  cases phase with
  | expiring es => trivial
  | markers p ms => exact ⟨hWrites h.1, fun m hm => (h.2 m hm).trans hLe⟩
  | hashedIndex p m ms es =>
    obtain ⟨hp, hm, hms, hes⟩ := h
    exact ⟨hWrites hp, hm.trans hLe, fun m' hm' => (hms m' hm').trans hLe,
      fun e he => (hes e he).trans hLe⟩

section Finish

variable (computeStringHash : KeyHasher) (exceedsMaxBatchSize : PurgeUpdatesProcessor → Bool)

theorem PurgerPhase.finish_deletes (phase : PurgerPhase) (db : DB) {pk : PurgeMarkerKey}
    (h : pk ∈ phase.markersToDelete) :
    (phase.finish computeStringHash exceedsMaxBatchSize db).purgeMarkers.get? pk = none := by
  cases phase with
  | expiring es => exact absurd h List.not_mem_nil
  | markers p ms =>
    apply processPurgeMarkers_deletes
    exact (List.mem_append.1 h).imp_left Or.inr
  | hashedIndex p m ms es =>
    apply processPurgeMarkers_deletes
    rcases List.mem_append.1 h with hp | hRest
    · have hDel : MarkerDeleted pk p db := .inr hp
      exact .inl ((hDel.processHashedIndexEntries exceedsMaxBatchSize es).addProcessed m.1)
    · rcases List.mem_cons.1 hRest with rfl | hms
      · exact .inl (markerDeleted_addProcessed_self _ _ _)
      · exact .inr hms

theorem PurgerPhase.finish_data_above (phase : PurgerPhase) (hMarking : phase.markersToDelete ≠ [])
    {n : ℕ} (hBelow : phase.Below n) (db : DB) {k : DataKey} (hk : n < k.blkNum.toNat) :
    (phase.finish computeStringHash exceedsMaxBatchSize db).data.get? k = db.data.get? k := by
  cases phase with
  | expiring es => exact absurd rfl hMarking
  | markers p ms => exact processPurgeMarkers_data_above exceedsMaxBatchSize hBelow.1 db hBelow.2 hk
  | hashedIndex p m ms es =>
    obtain ⟨hp, -, hms, hes⟩ := hBelow
    obtain ⟨hBelow', hData⟩ := processHashedIndexEntries_below exceedsMaxBatchSize hp db hes hk
    exact (processPurgeMarkers_data_above exceedsMaxBatchSize (hBelow'.addProcessed m.1) _ hms hk).trans
      hData

end Finish

/-! ## Reachable states -/

section System

variable (btlPolicy : BTLPolicy) (computeStringHash : KeyHasher)
  (exceedsMaxBatchSize : PurgeUpdatesProcessor → Bool)

theorem reachable_processHashedIndexEntries (σ : PeerState) (p : PurgeUpdatesProcessor)
    (m : PurgeMarkerKey × Height) (ms : List (PurgeMarkerKey × Height))
    (es : List (HashedIndexKey × String)) (hPhase : σ.purger = some (.hashedIndex p m ms es)) :
    Reachable (Step btlPolicy computeStringHash exceedsMaxBatchSize) σ
      { σ.setDb (processHashedIndexEntries exceedsMaxBatchSize p σ.store.db es).2 with
        purger := some (.hashedIndex (processHashedIndexEntries exceedsMaxBatchSize p σ.store.db es).1
          m ms []) } := by
  induction es generalizing σ p with
  | nil =>
    obtain ⟨store, waiting, purger, blocksCommitted⟩ := σ
    cases hPhase
    exact Reachable.refl _ _
  | cons e es ih =>
    exact Reachable.head (Step.process σ p m ms e es hPhase) (ih _ _ rfl)

theorem reachable_processPurgeMarkers (σ : PeerState) (p : PurgeUpdatesProcessor)
    (ms : List (PurgeMarkerKey × Height)) (hPhase : σ.purger = some (.markers p ms)) :
    Reachable (Step btlPolicy computeStringHash exceedsMaxBatchSize) σ
      { σ.setDb (processPurgeMarkers exceedsMaxBatchSize p σ.store.db ms) with purger := none } := by
  induction ms generalizing σ p with
  | nil => exact Reachable.head (Step.release σ p hPhase) (Reachable.refl _ _)
  | cons m ms ih =>
    let σ₁ : PeerState :=
      { σ with purger := some (.hashedIndex p m ms (σ.store.db.hashedIndexRangeOf m)) }
    have hScan : Step btlPolicy computeStringHash exceedsMaxBatchSize σ σ₁ :=
      Step.scanHashedIndex σ p m ms hPhase
    have hEntries := reachable_processHashedIndexEntries btlPolicy computeStringHash
      exceedsMaxBatchSize σ₁ p m ms _ rfl
    exact Reachable.head hScan (hEntries.trans
      (Reachable.head (Step.markerProcessed _ _ m ms (by rfl)) (ih _ _ rfl)))

theorem reachable_finish (σ : PeerState) (phase : PurgerPhase) (hPhase : σ.purger = some phase) :
    Reachable (Step btlPolicy computeStringHash exceedsMaxBatchSize) σ
      { σ.setDb (phase.finish computeStringHash exceedsMaxBatchSize σ.store.db) with purger := none } := by
  cases phase with
  | expiring es =>
    induction es generalizing σ with
    | nil =>
      exact Reachable.head (Step.scanPurgeMarkers σ hPhase)
        (reachable_processPurgeMarkers btlPolicy computeStringHash exceedsMaxBatchSize _ _ _ rfl)
    | cons e es ih => exact Reachable.head (Step.expire σ e es hPhase) (ih _ rfl)
  | markers p ms =>
    exact reachable_processPurgeMarkers btlPolicy computeStringHash exceedsMaxBatchSize σ p ms hPhase
  | hashedIndex p m ms es =>
    have hEntries := reachable_processHashedIndexEntries btlPolicy computeStringHash
      exceedsMaxBatchSize σ p m ms es hPhase
    exact hEntries.trans (Reachable.head (Step.markerProcessed _ _ m ms (by rfl))
      (reachable_processPurgeMarkers btlPolicy computeStringHash exceedsMaxBatchSize _ _ _ rfl))

end System

/-! ## The bounds every reachable state keeps -/

theorem commitPvtDataOfOldBlocks_purgeMarkers {btlPolicy : BTLPolicy}
    {computeStringHash : KeyHasher} {db db' : DB} {blocksPvtData : GoMap UInt64 (List TxPvtData)}
    {unreconciledMissingData : MissingPvtDataInfo}
    (h : db.commitPvtDataOfOldBlocks btlPolicy computeStringHash blocksPvtData
      unreconciledMissingData = .ok db') : db'.purgeMarkers = db.purgeMarkers := by
  unfold DB.commitPvtDataOfOldBlocks at h
  cases hEntries : prepareDataAndExpiryEntries db btlPolicy .empty blocksPvtData with
  | error err =>
    rw [hEntries] at h
    cases h
  | ok e =>
    rw [hEntries] at h
    cases h
    rfl

structure PurgeBounded (σ : PeerState) : Prop where
  committed : σ.store.isEmpty = false → σ.store.lastCommittedBlock.toNat + 1 = σ.blocksCommitted
  empty : σ.store.isEmpty = true → σ.blocksCommitted = 0 ∧ σ.waiting = [] ∧ σ.purger = none ∧
    ∀ pk, σ.store.db.purgeMarkers.get? pk = none
  markers : ∀ pk mh, σ.store.db.purgeMarkers.get? pk = some mh →
    mh.blockNum.toNat ≤ σ.store.lastCommittedBlock.toNat
  purger : ∀ phase, σ.purger = some phase → phase.Below σ.store.lastCommittedBlock.toNat

theorem purgeBounded_init (purgeInterval : UInt64) : PurgeBounded (PeerState.init purgeInterval) where
  committed h := nomatch h
  empty _ := ⟨rfl, rfl, rfl, fun _ => rfl⟩
  markers _ _ h := nomatch h
  purger _ h := nomatch h

theorem PurgeBounded.isEmpty_eq_false {σ : PeerState} (h : PurgeBounded σ) {phase : PurgerPhase}
    (hPhase : σ.purger = some phase) : σ.store.isEmpty = false := by
  cases hEmpty : σ.store.isEmpty with
  | false => rfl
  | true =>
    rw [(h.empty hEmpty).2.2.1] at hPhase
    cases hPhase

theorem PurgeBounded.frame {σ : PeerState} (h : PurgeBounded σ) (db : DB) (waiting : List UInt64)
    (purger : Option PurgerPhase)
    (hMarkers : ∀ pk mh, db.purgeMarkers.get? pk = some mh → σ.store.db.purgeMarkers.get? pk = some mh)
    (hEmpty : σ.store.isEmpty = true → waiting = [] ∧ purger = none)
    (hPurger : ∀ phase, purger = some phase → phase.Below σ.store.lastCommittedBlock.toNat) :
    PurgeBounded { σ with store := { σ.store with db }, waiting, purger } where
  committed := h.committed
  empty hE := by
    obtain ⟨hCount, -, -, hNone⟩ := h.empty hE
    obtain ⟨hWaiting, hNoPurger⟩ := hEmpty hE
    refine ⟨hCount, hWaiting, hNoPurger, fun pk => ?_⟩
    cases hGet : db.purgeMarkers.get? pk with
    | none => rfl
    | some mh =>
      have hOld := hMarkers pk mh hGet
      rw [hNone pk] at hOld
      cases hOld
  markers pk mh hGet := h.markers pk mh (hMarkers pk mh hGet)
  purger := hPurger

section Bounds

variable {btlPolicy : BTLPolicy} {computeStringHash : KeyHasher}
  {exceedsMaxBatchSize : PurgeUpdatesProcessor → Bool}

theorem PurgeBounded.toNat_nextBlockNum {σ : PeerState} (h : PurgeBounded σ)
    (hRoom : σ.blocksCommitted + 1 ≤ 2 ^ 64) : σ.store.nextBlockNum.toNat = σ.blocksCommitted := by
  unfold Store.nextBlockNum
  cases hEmpty : σ.store.isEmpty with
  | true => exact (h.empty hEmpty).1.symm
  | false =>
    have hCount := h.committed hEmpty
    have hLt : σ.store.lastCommittedBlock < maxUint64 := by
      rw [UInt64.lt_iff_toNat_lt]
      simp only [maxUint64, UInt64.reduceToNat]
      omega
    rw [if_neg Bool.false_ne_true, toNat_add_one_of_lt _ hLt]
    exact hCount

theorem PurgeBounded.commit {σ : PeerState} (h : PurgeBounded σ) {blockNum : UInt64}
    {pvtData : List TxPvtData} {missingPvtData : TxMissingPvtData}
    {purgeMarkers : List PurgeMarker} {store : Store} {scheduled : Bool}
    (hCommit : σ.store.commit btlPolicy computeStringHash blockNum pvtData missingPvtData
      purgeMarkers = .ok (store, scheduled))
    (hRoom : σ.blocksCommitted + 1 ≤ 2 ^ 64) :
    PurgeBounded { σ with
      store
      waiting := if scheduled then σ.waiting ++ [blockNum] else σ.waiting
      blocksCommitted := σ.blocksCommitted + 1 } := by
  have hMarkers := fun pk mh (hGet : store.db.purgeMarkers.get? pk = some mh) =>
    Store.commit_purgeMarkers hCommit hGet
  have hNext := h.toNat_nextBlockNum hRoom
  have hLastLe : σ.store.isEmpty = false →
      σ.store.lastCommittedBlock.toNat ≤ σ.store.nextBlockNum.toNat := by
    intro hEmpty
    have hCount := h.committed hEmpty
    omega
  obtain ⟨rfl, -, entries, -, rfl, -⟩ := Store.commit_eq_ok hCommit
  refine ⟨fun _ => by simp only [hNext], (fun hEmpty => nomatch hEmpty), fun pk mh hGet => ?_,
    fun phase hPhase => ?_⟩
  · rcases hMarkers pk mh hGet with hNum | hOld
    · simp only [hNum, le_refl]
    · cases hEmpty : σ.store.isEmpty with
      | true =>
        rw [(h.empty hEmpty).2.2.2 pk] at hOld
        cases hOld
      | false => exact (h.markers pk mh hOld).trans (hLastLe hEmpty)
  · exact (h.purger phase hPhase).mono (hLastLe (h.isEmpty_eq_false hPhase))

theorem PurgeBounded.step {σ σ' : PeerState} (h : PurgeBounded σ)
    (hStep : Step btlPolicy computeStringHash exceedsMaxBatchSize σ σ')
    (hRoom : σ'.blocksCommitted ≤ 2 ^ 64) : PurgeBounded σ' := by
  cases hStep with
  | commit blockNum pvtData missingPvtData purgeMarkers store scheduled hCommit =>
    exact h.commit hCommit hRoom
  | commitOldBlocks blocksPvtData unreconciledMissingData db hFree hCommit =>
    have hSame := commitPvtDataOfOldBlocks_purgeMarkers hCommit
    exact h.frame db σ.waiting σ.purger (fun pk mh hGet => hSame ▸ hGet)
      (fun hEmpty => ⟨(h.empty hEmpty).2.1, hFree⟩) h.purger
  | acquire latestCommittedBlk hFree hWaiting =>
    refine h.frame σ.store.db _ _ (fun _ _ => id) (fun hEmpty => ?_) (fun phase hPhase => ?_)
    · rw [(h.empty hEmpty).2.1] at hWaiting
      cases hWaiting
    · cases hPhase
      trivial
  | expire e es hPhase =>
    refine h.frame _ σ.waiting _ (fun _ _ => id) (fun hEmpty => ?_) (fun phase hPhase' => ?_)
    · exact absurd hEmpty (by simp [h.isEmpty_eq_false hPhase])
    · cases hPhase'
      trivial
  | scanPurgeMarkers hPhase =>
    refine h.frame σ.store.db σ.waiting _ (fun _ _ => id) (fun hEmpty => ?_) (fun phase hPhase' => ?_)
    · exact absurd hEmpty (by simp [h.isEmpty_eq_false hPhase])
    · cases hPhase'
      exact ⟨newPurgeUpdatesProcessor_writesBelow _,
        fun m hm => h.markers m.1 m.2 ((SortedMap.get?_eq_some_iff _ _ _).2 hm)⟩
  | scanHashedIndex p m ms hPhase =>
    refine h.frame σ.store.db σ.waiting _ (fun _ _ => id) (fun hEmpty => ?_) (fun phase hPhase' => ?_)
    · exact absurd hEmpty (by simp [h.isEmpty_eq_false hPhase])
    · cases hPhase'
      obtain ⟨hp, hms⟩ := h.purger _ hPhase
      have hm := hms m List.mem_cons_self
      exact ⟨hp, hm, fun m' hm' => hms m' (List.mem_cons_of_mem _ hm'),
        fun e he => (blkNum_le_of_mem_hashedIndexRangeOf he).trans hm⟩
  | process p m ms e es hPhase =>
    refine h.frame _ σ.waiting _ (fun _ _ => process_purgeMarkers_of_some exceedsMaxBatchSize p _ e)
      (fun hEmpty => ?_) (fun phase hPhase' => ?_)
    · exact absurd hEmpty (by simp [h.isEmpty_eq_false hPhase])
    · cases hPhase'
      obtain ⟨hp, hm, hms, hes⟩ := h.purger _ hPhase
      exact ⟨hp.process exceedsMaxBatchSize _ (hes e List.mem_cons_self), hm, hms,
        fun e' he' => hes e' (List.mem_cons_of_mem _ he')⟩
  | markerProcessed p m ms hPhase =>
    refine h.frame σ.store.db σ.waiting _ (fun _ _ => id) (fun hEmpty => ?_) (fun phase hPhase' => ?_)
    · exact absurd hEmpty (by simp [h.isEmpty_eq_false hPhase])
    · cases hPhase'
      obtain ⟨hp, -, hms, -⟩ := h.purger _ hPhase
      exact ⟨hp.addProcessed m.1, hms⟩
  | release p hPhase =>
    refine h.frame _ σ.waiting none (fun _ _ => commitPendingChanges_purgeMarkers_of_some p _)
      (fun hEmpty => ?_) (fun phase hPhase' => nomatch hPhase')
    exact absurd hEmpty (by simp [h.isEmpty_eq_false hPhase])

theorem Step.blocksCommitted_le {σ σ' : PeerState}
    (hStep : Step btlPolicy computeStringHash exceedsMaxBatchSize σ σ') :
    σ.blocksCommitted ≤ σ'.blocksCommitted := by
  cases hStep <;> simp [PeerState.setDb]

theorem purgeBounded_of_reachable {purgeInterval : UInt64} {σ : PeerState}
    (hReach : Reachable (Step btlPolicy computeStringHash exceedsMaxBatchSize)
      (PeerState.init purgeInterval) σ)
    (hRoom : σ.blocksCommitted ≤ 2 ^ 64) : PurgeBounded σ := by
  refine Reachable.invariant (fun σ => σ.blocksCommitted ≤ 2 ^ 64 → PurgeBounded σ)
    (fun _ => purgeBounded_init purgeInterval) ?_ hReach hRoom
  intro σ σ' ih hStep hRoom'
  exact (ih (hStep.blocksCommitted_le.trans hRoom')).step hStep hRoom'

end Bounds

/-! ## A commit under the purger -/

section Race

variable (btlPolicy : BTLPolicy) (computeStringHash : KeyHasher)
  (exceedsMaxBatchSize : PurgeUpdatesProcessor → Bool)

/-- A commit that runs while the purger holds a purge marker it has read, for a key that the new
block writes, loses its own marker for that key: the purger runs to its end and deletes whatever
marker the store then holds under the key, and `GetPvtDataByBlockNum` returns the block's write
of the key. -/
theorem purger_deletes_marker_rewritten_by_commit (purgeInterval : UInt64) (σ : PeerState)
    (hReach : Reachable (Step btlPolicy computeStringHash exceedsMaxBatchSize)
      (PeerState.init purgeInterval) σ)
    (hRoom : σ.blocksCommitted + 1 < 2 ^ 64) (hKnown : ∀ ns coll, ∃ btl, btlPolicy ns coll = .ok btl)
    (phase : PurgerPhase) (hPhase : σ.purger = some phase) (blockNum : UInt64)
    (pvtData : List TxPvtData) (missingPvtData : TxMissingPvtData) (purgeMarkers : List PurgeMarker)
    (store : Store) (scheduled : Bool)
    (hCommit : σ.store.commit btlPolicy computeStringHash blockNum pvtData missingPvtData
      purgeMarkers = .ok (store, scheduled))
    (k : DataKey) (c : CollPvtRwSet) (w : KVWrite) (hBlock : k.blkNum = blockNum)
    (hData : store.db.data.get? k = some c) (hWrite : w ∈ c.writes)
    (hRead : ⟨k.ns, k.coll, computeStringHash w.key⟩ ∈ phase.markersToDelete) :
    ∃ σ' σ'', Step btlPolicy computeStringHash exceedsMaxBatchSize σ σ' ∧ σ'.store = store ∧
      Reachable (Step btlPolicy computeStringHash exceedsMaxBatchSize) σ' σ'' ∧
      σ''.purger = none ∧
      σ''.store.db.purgeMarkers.get? ⟨k.ns, k.coll, computeStringHash w.key⟩ = none ∧
      ∃ result, σ''.store.getPvtDataByBlockNum btlPolicy computeStringHash blockNum none = .ok result ∧
        ReturnsWrite result k.txNum k.ns w := by
  have hBounded := purgeBounded_of_reachable hReach (by omega)
  have hBelow := hBounded.purger phase hPhase
  have hMarking : phase.markersToDelete ≠ [] := List.ne_nil_of_mem hRead
  have hNext := hBounded.toNat_nextBlockNum (by omega)
  have hCount := hBounded.committed (hBounded.isEmpty_eq_false hPhase)
  obtain ⟨hNum, -, entries, -, hStore, -⟩ := Store.commit_eq_ok hCommit
  have hRoomNum : blockNum < maxUint64 := by
    rw [UInt64.lt_iff_toNat_lt, hNum, hNext]
    simp only [maxUint64, UInt64.reduceToNat]
    omega
  have hAbove : σ.store.lastCommittedBlock.toNat < k.blkNum.toNat := by
    rw [hBlock, hNum, hNext]
    omega
  have hMarker := PurgerPhase.finish_deletes computeStringHash exceedsMaxBatchSize phase store.db hRead
  have hKept := PurgerPhase.finish_data_above computeStringHash exceedsMaxBatchSize phase hMarking
    hBelow store.db hAbove
  refine ⟨_, _, Step.commit σ blockNum pvtData missingPvtData purgeMarkers store scheduled hCommit, rfl,
    reachable_finish btlPolicy computeStringHash exceedsMaxBatchSize _ phase hPhase, rfl, hMarker, ?_⟩
  exact getPvtDataByBlockNum_returnsWrite btlPolicy computeStringHash _ _ k c w hKnown
    (by subst hStore; rfl) (by subst hStore; rfl) hRoomNum hBlock (hKept.trans hData) hWrite hMarker

theorem purger_deletes_marker_rewritten_by_commit_block_two :
    ∃ σ store scheduled,
      Reachable (Step (fun _ _ => .ok maxUint64) id fun _ => false) (PeerState.init 2) σ ∧
      σ.store.commit (fun _ _ => .ok maxUint64) id 2
        [⟨0, [⟨"ns", [⟨"coll", [⟨"k", false, [2]⟩]⟩]⟩]⟩] GoMap.empty [⟨"ns", "coll", "k", 1⟩] =
        .ok (store, scheduled) ∧
      store.db.purgeMarkers.get? ⟨"ns", "coll", "k"⟩ = some ⟨2, 1⟩ ∧
      ∃ σ' σ'', Step (fun _ _ => .ok maxUint64) id (fun _ => false) σ σ' ∧ σ'.store = store ∧
        Reachable (Step (fun _ _ => .ok maxUint64) id fun _ => false) σ' σ'' ∧ σ''.purger = none ∧
        σ''.store.db.purgeMarkers.get? ⟨"ns", "coll", "k"⟩ = none ∧
        ∃ result, σ''.store.getPvtDataByBlockNum (fun _ _ => .ok maxUint64) id 2 none = .ok result ∧
          ReturnsWrite result 0 "ns" ⟨"k", false, [2]⟩ := by
  have hReach := ((((Reachable.refl (Step (fun _ _ => .ok maxUint64) id fun _ => false)
    (PeerState.init 2)).tail
    (Step.commit _ 0 [⟨0, [⟨"ns", [⟨"coll", [⟨"k", false, [0]⟩]⟩]⟩]⟩] GoMap.empty [] _ _ rfl)).tail
    (Step.commit _ 1 [] GoMap.empty [⟨"ns", "coll", "k", 0⟩] _ _ rfl)).tail
    (Step.acquire _ 0 rfl (by decide))).tail (Step.scanPurgeMarkers _ rfl)
  exact ⟨_, _, _, hReach, rfl, rfl,
    purger_deletes_marker_rewritten_by_commit _ _ _ 2 _ hReach (by decide)
      (fun _ _ => ⟨_, rfl⟩) _ rfl 2 [⟨0, [⟨"ns", [⟨"coll", [⟨"k", false, [2]⟩]⟩]⟩]⟩] GoMap.empty
      [⟨"ns", "coll", "k", 1⟩] _ _ rfl ⟨"ns", "coll", 2, 0⟩ ⟨"coll", [⟨"k", false, [2]⟩]⟩
      ⟨"k", false, [2]⟩ rfl rfl List.mem_cons_self (by decide)⟩

end Race

/-! ## What a purge shows to readers -/

/-- Transaction 0 of block 0 writes the key `k` twice in one collection, and block 1 marks `k`
for purge. The read of block 0 hides both writes. Both writes have the same hashed index entry,
so the purger removes only the first of them and then deletes the marker. After that, the read
returns the second write. -/
theorem purge_reveals_second_write_of_purged_key :
    ∃ s₀ s₁ scheduled₀ scheduled₁,
      (Store.init 1).commit (fun _ _ => .ok maxUint64) id 0
        [⟨0, [⟨"ns", [⟨"coll", [⟨"k", false, [1]⟩, ⟨"k", false, [2]⟩]⟩]⟩]⟩] GoMap.empty [] =
        .ok (s₀, scheduled₀) ∧
      s₀.commit (fun _ _ => .ok maxUint64) id 1 [] GoMap.empty [⟨"ns", "coll", "k", 0⟩] =
        .ok (s₁, scheduled₁) ∧
      s₁.getPvtDataByBlockNum (fun _ _ => .ok maxUint64) id 0 none =
        .ok [⟨0, [⟨"ns", [⟨"coll", []⟩]⟩]⟩] ∧
      { s₁ with
          db := DB.deleteDataMarkedForPurge (fun _ => false)
            (s₁.db.purgeExpiredData id 0 s₁.lastCommittedBlock) }.getPvtDataByBlockNum
        (fun _ _ => .ok maxUint64) id 0 none =
        .ok [⟨0, [⟨"ns", [⟨"coll", [⟨"k", false, [2]⟩]⟩]⟩]⟩] := by
  refine ⟨_, _, _, _, rfl, rfl, ?_, ?_⟩
  · decide
  · decide

end FabricPeer.Pvtdatastorage
