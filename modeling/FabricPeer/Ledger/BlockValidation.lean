import FabricPeer.Ledger.Validator

/-! # Runs of the state validator over a block

What `validateAndPrepareBatch` does over whole blocks. A transaction that reads nothing is valid
whatever the state, so the writes of such transactions always reach the update batch. A
metadata write completes its key from the latest state, and the latest state of a key that a
preceding valid transaction of the block deleted is the batch's delete marker: its nil value
is then passed to `PutValAndMetadata`, which panics.
-/

namespace FabricPeer.Ledger

open GoRun

set_option autoImplicit false

def NsRwSet.ReadsNothing (nsRWSet : NsRwSet) : Prop :=
  nsRWSet.kvRwSet.reads = [] ∧ nsRWSet.kvRwSet.rangeQueriesInfo = [] ∧
    ∀ collHashedRwSet ∈ nsRWSet.collHashedRwSets, collHashedRwSet.hashedRwSet.hashedReads = []

/-- The write set of a chaincode that only called `DelState(key)` in namespace `ns`. -/
def deleteStateRwSet (ns key : String) : TxRwSet :=
  ⟨[⟨ns, ⟨[], [], [⟨key, true, []⟩], []⟩, []⟩]⟩

/-- The write set of a chaincode that only called `SetStateMetadata(key, entries)` in `ns`. -/
def setStateMetadataRwSet (ns key : String) (entries : List KVMetadataEntry) : TxRwSet :=
  ⟨[⟨ns, ⟨[], [], [], [⟨key, entries⟩]⟩, []⟩]⟩

theorem NsRwSet.readsNothing_deleteStateRwSet (ns key : String) :
    ∀ nsRWSet ∈ (deleteStateRwSet ns key).nsRwSets, nsRWSet.ReadsNothing := by
  simp [deleteStateRwSet, NsRwSet.ReadsNothing]

theorem NsRwSet.readsNothing_setStateMetadataRwSet (ns key : String)
    (entries : List KVMetadataEntry) :
    ∀ nsRWSet ∈ (setStateMetadataRwSet ns key entries).nsRwSets, nsRWSet.ReadsNothing := by
  simp [setStateMetadataRwSet, NsRwSet.ReadsNothing]

theorem KeyOps.not_shortcut_of_metadata (keyop : KeyOps)
    (hFlag : keyop.flag = metadataUpdate ∨ keyop.flag = metadataDelete) :
    (keyop.isDelete || keyop.isUpsertAndMetadataUpdate) = false ∧ keyop.isOnlyUpsert = false := by
  rcases hFlag with hFlag | hFlag <;>
    simp [KeyOps.isDelete, KeyOps.isUpsertAndMetadataUpdate, KeyOps.isOnlyUpsert, hFlag] <;> decide

theorem prepareKeyOps_of_metadata (u : PublicAndHashUpdates) (db : DB) (ck : CompositeKey)
    (keyop : KeyOps) (hFlag : keyop.flag = metadataUpdate ∨ keyop.flag = metadataDelete) :
    prepareKeyOps u db ck keyop = (retrieveLatestState ck.ns ck.coll ck.key u db).map
      fun latestVal => { keyop with value := latestVal.value } := by
  obtain ⟨hShortcut, hOnlyUpsert⟩ := keyop.not_shortcut_of_metadata hFlag
  unfold prepareKeyOps
  rw [if_neg (by simp [hShortcut]), if_neg (by simp [hOnlyUpsert])]
  cases retrieveLatestState ck.ns ck.coll ck.key u db <;> rfl

theorem retrieveLatestState_public_of_get (u : PublicAndHashUpdates) (db : DB) (ns key : String)
    (vv : VersionedValue) (hGet : u.publicUpdates.get ns key = some vv) :
    retrieveLatestState ns "" key u db = some vv := by
  simp [retrieveLatestState, hGet]

section

variable (hashFunc : HashFunc) (serializeKVReads : List KVRead → Except String Bytes)
  (serialize : List KVMetadataEntry → Except String Bytes) (db : DB)

theorem validateNsRwSets_of_readsNothing (nsRwSets : List NsRwSet) (updates : PublicAndHashUpdates)
    (hBlind : ∀ nsRWSet ∈ nsRwSets, nsRWSet.ReadsNothing) :
    validateNsRwSets hashFunc serializeKVReads db nsRwSets updates = .ok .valid := by
  induction nsRwSets with
  | nil => rfl
  | cons nsRWSet nsRwSets ih =>
    obtain ⟨hReads, hRanges, hHashed⟩ := hBlind nsRWSet List.mem_cons_self
    have hHashedValid : validateNsHashedReadSets db nsRWSet.nameSpace nsRWSet.collHashedRwSets
        updates.hashUpdates = true := by
      simp only [validateNsHashedReadSets, List.all_eq_true]
      intro collHashedRwSet hMem
      simp [hHashed collHashedRwSet hMem]
    simp only [validateNsRwSets, validateReadSet, hReads, hRanges, List.all_nil, Bool.not_true,
      validateRangeQueries, bind_ok, hHashedValid]
    exact ih fun nsRWSet' hMem => hBlind nsRWSet' (List.mem_cons_of_mem _ hMem)

theorem validateEndorserTX_of_readsNothing (txRWSet : TxRwSet) (doMVCCValidation : Bool)
    (updates : PublicAndHashUpdates) (hBlind : ∀ nsRWSet ∈ txRWSet.nsRwSets, nsRWSet.ReadsNothing) :
    validateEndorserTX hashFunc serializeKVReads db txRWSet doMVCCValidation updates = .ok .valid := by
  cases doMVCCValidation with
  | false => rfl
  | true => exact validateNsRwSets_of_readsNothing hashFunc serializeKVReads db _ _ hBlind

theorem applyWriteSet_deleteState (u : PublicAndHashUpdates) (ns key : String) (txHeight : Height)
    (containsPostOrderWrites : Bool) :
    ∃ u', applyWriteSet serialize db u (deleteStateRwSet ns key) txHeight containsPostOrderWrites =
        .ok u' ∧ u'.publicUpdates.get ns key = some ⟨none, [], txHeight⟩ := by
  have hPrepare : prepareTxOps serialize (deleteStateRwSet ns key)
      (u.markPostOrderWrites containsPostOrderWrites) db =
        .ok (GoMap.empty.insert ⟨ns, "", key⟩ ⟨keyDelete, none, []⟩) := by
    have hTxOps : TxOps.applyTxRwset serialize GoMap.empty (deleteStateRwSet ns key) =
        .ok (GoMap.empty.insert ⟨ns, "", key⟩ ⟨keyDelete, none, []⟩) := rfl
    simp only [prepareTxOps, hTxOps, bind_ok]
    exact congrArg _ (GoMap.filterMapVal_insert_empty _ _ _ _ rfl)
  refine ⟨{ u.markPostOrderWrites containsPostOrderWrites with publicUpdates :=
    (u.markPostOrderWrites containsPostOrderWrites).publicUpdates.delete ns key txHeight }, ?_,
    UpdateBatch.get_delete_self _ ns key txHeight⟩
  simp only [applyWriteSet, hPrepare, bind_ok, GoMap.entries_insert_empty, List.foldlM_cons,
    List.foldlM_nil]
  rfl

theorem applyTxRwset_setStateMetadata (ns key : String) (entries : List KVMetadataEntry)
    (metadataBytes : Bytes) (hSerialize : serialize entries = .ok metadataBytes) :
    ∃ keyop : KeyOps, (keyop.flag = metadataUpdate ∨ keyop.flag = metadataDelete) ∧
      keyop.value = none ∧
      TxOps.applyTxRwset serialize GoMap.empty (setStateMetadataRwSet ns key entries) =
        .ok (GoMap.empty.insert ⟨ns, "", key⟩ keyop) := by
  cases entries with
  | nil => exact ⟨⟨metadataDelete, none, []⟩, .inr rfl, rfl, rfl⟩
  | cons entry entries =>
    refine ⟨⟨metadataUpdate, none, metadataBytes⟩, .inl rfl, rfl, ?_⟩
    simp only [setStateMetadataRwSet, TxOps.applyTxRwset, TxOps.applyNsRwSet, TxOps.applyMetadata,
      hSerialize, List.foldlM_cons, List.foldlM_nil, List.foldl_nil, bind_ok, ofExcept_ok]
    rfl

theorem applyWriteSet_setStateMetadata_after_delete (u : PublicAndHashUpdates) (ns key : String)
    (entries : List KVMetadataEntry) (metadataBytes : Bytes)
    (hSerialize : serialize entries = .ok metadataBytes) (vv : VersionedValue)
    (hGet : u.publicUpdates.get ns key = some vv) (hNil : vv.value = none) (txHeight : Height)
    (containsPostOrderWrites : Bool) :
    applyWriteSet serialize db u (setStateMetadataRwSet ns key entries) txHeight
        containsPostOrderWrites =
      .error (.panic "Nil value not allowed. Instead call 'Delete' function") := by
  obtain ⟨keyop, hFlag, -, hTxOps⟩ :=
    applyTxRwset_setStateMetadata serialize ns key entries metadataBytes hSerialize
  have hLatest : retrieveLatestState ns "" key (u.markPostOrderWrites containsPostOrderWrites) db =
      some vv :=
    retrieveLatestState_public_of_get _ db ns key vv (by simpa using hGet)
  have hPrepared : prepareKeyOps (u.markPostOrderWrites containsPostOrderWrites) db
      ⟨ns, "", key⟩ keyop = some { keyop with value := none } := by
    rw [prepareKeyOps_of_metadata _ db _ keyop hFlag, hLatest, Option.map_some, hNil]
  have hPrepare : prepareTxOps serialize (setStateMetadataRwSet ns key entries)
      (u.markPostOrderWrites containsPostOrderWrites) db =
        .ok (GoMap.empty.insert ⟨ns, "", key⟩ { keyop with value := none }) := by
    simp only [prepareTxOps, hTxOps, bind_ok]
    exact congrArg _ (GoMap.filterMapVal_insert_empty _ _ _ _ hPrepared)
  have hNotDelete : ({ keyop with value := none } : KeyOps).isDelete = false := by
    rcases hFlag with hFlag | hFlag <;> simp [KeyOps.isDelete, hFlag] <;> decide
  simp only [applyWriteSet, hPrepare, bind_ok, GoMap.entries_insert_empty, List.foldlM_cons,
    List.foldlM_nil]
  simp [applyKeyOps, hNotDelete, UpdateBatch.putValAndMetadata]

theorem validateAndPrepareTx_deleteState (blkNum : UInt64) (doMVCCValidation : Bool)
    (st : BatchState) (tx : Transaction) (ns key : String)
    (hRwSet : tx.rwset = deleteStateRwSet ns key) :
    ∃ st', validateAndPrepareTx hashFunc serializeKVReads serialize db blkNum doMVCCValidation st tx =
        .ok st' ∧
      st'.updates.publicUpdates.get ns key = some ⟨none, [], ⟨blkNum, tx.indexInBlock.toUInt64⟩⟩ := by
  have hValid := validateEndorserTX_of_readsNothing hashFunc serializeKVReads db
    (deleteStateRwSet ns key) doMVCCValidation st.updates (NsRwSet.readsNothing_deleteStateRwSet ns key)
  obtain ⟨u', hApply, hGet⟩ := applyWriteSet_deleteState serialize db st.updates ns key
    ⟨blkNum, tx.indexInBlock.toUInt64⟩ tx.containsPostOrderWrites
  refine ⟨⟨u', st.purgeTracker.update tx.rwset ⟨blkNum, tx.indexInBlock.toUInt64⟩,
    st.validationCodes ++ [.valid]⟩, ?_, hGet⟩
  simp only [validateAndPrepareTx, hRwSet, hValid, bind_ok, if_pos, hApply]
  rfl

theorem validateAndPrepareTx_setStateMetadata_after_delete (blkNum : UInt64)
    (doMVCCValidation : Bool) (st : BatchState) (tx : Transaction) (ns key : String)
    (entries : List KVMetadataEntry) (metadataBytes : Bytes)
    (hSerialize : serialize entries = .ok metadataBytes) (vv : VersionedValue)
    (hGet : st.updates.publicUpdates.get ns key = some vv) (hNil : vv.value = none)
    (hRwSet : tx.rwset = setStateMetadataRwSet ns key entries) :
    validateAndPrepareTx hashFunc serializeKVReads serialize db blkNum doMVCCValidation st tx =
      .error (.panic "Nil value not allowed. Instead call 'Delete' function") := by
  have hValid := validateEndorserTX_of_readsNothing hashFunc serializeKVReads db
    (setStateMetadataRwSet ns key entries) doMVCCValidation st.updates
    (NsRwSet.readsNothing_setStateMetadataRwSet ns key entries)
  have hApply := applyWriteSet_setStateMetadata_after_delete serialize db st.updates ns key entries
    metadataBytes hSerialize vv hGet hNil ⟨blkNum, tx.indexInBlock.toUInt64⟩ tx.containsPostOrderWrites
  simp only [validateAndPrepareTx, hRwSet, hValid, bind_ok, if_pos, hApply]
  rfl

/-- A block in which a valid transaction deletes a key and a later one only writes the key's
metadata makes the validator panic, whatever precedes the two. -/
theorem validateAndPrepareBatch_panics_on_metadata_write_after_delete (blkNum : UInt64)
    (doMVCCValidation : Bool) (pre post : List Transaction) (st : BatchState)
    (hPre : pre.foldlM (validateAndPrepareTx hashFunc serializeKVReads serialize db blkNum
      doMVCCValidation) BatchState.init = .ok st)
    (ns key : String) (entries : List KVMetadataEntry) (metadataBytes : Bytes)
    (hSerialize : serialize entries = .ok metadataBytes) (delTx metaTx : Transaction)
    (hDel : delTx.rwset = deleteStateRwSet ns key)
    (hMeta : metaTx.rwset = setStateMetadataRwSet ns key entries) :
    validateAndPrepareBatch hashFunc serializeKVReads serialize db
        ⟨blkNum, pre ++ delTx :: metaTx :: post⟩ doMVCCValidation =
      .error (.panic "Nil value not allowed. Instead call 'Delete' function") := by
  obtain ⟨st', hDelStep, hGet⟩ :=
    validateAndPrepareTx_deleteState hashFunc serializeKVReads serialize db blkNum doMVCCValidation
      st delTx ns key hDel
  have hMetaStep := validateAndPrepareTx_setStateMetadata_after_delete hashFunc serializeKVReads
    serialize db blkNum doMVCCValidation st' metaTx ns key entries metadataBytes hSerialize _ hGet rfl
    hMeta
  simp only [validateAndPrepareBatch, List.foldlM_append, hPre, bind_ok, List.foldlM_cons, hDelStep,
    hMetaStep, bind_error]

end

def committedK : DB where
  state ns := if ns = "cc" then [("k", ⟨[1], [], ⟨1, 0⟩⟩)] else []
  sorted ns := by
    split <;> decide
  metadataHint _ := false

theorem validateAndPrepareBatch_panics_delete_then_metadata :
    validateAndPrepareBatch (fun b => .ok b) (fun _ => .ok []) (fun _ => .ok [9]) committedK
        ⟨2, [] ++ ⟨0, "t0", deleteStateRwSet "cc" "k", false⟩ ::
          ⟨1, "t1", setStateMetadataRwSet "cc" "k" [⟨"VALIDATION_PARAMETER", [7]⟩], false⟩ :: []⟩
        true =
      .error (.panic "Nil value not allowed. Instead call 'Delete' function") :=
  validateAndPrepareBatch_panics_on_metadata_write_after_delete (fun b => .ok b) (fun _ => .ok [])
    (fun _ => .ok [9]) committedK 2 true [] [] BatchState.init rfl "cc" "k"
    [⟨"VALIDATION_PARAMETER", [7]⟩] [9] rfl _ _ rfl rfl

end FabricPeer.Ledger
