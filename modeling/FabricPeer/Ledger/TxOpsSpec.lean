import FabricPeer.Ledger.TxOps

/-! # Repeated writes in a transaction's write set

`applyTxRwset` gathers the operations on a key by adding one-bit flags to its flag byte, so an
operation the write set carries twice carries into the next bit: two upserts of a key make
flag `2`, which `prepareTxOps` reads as a metadata-only update, and two deletes make flag `16`,
which no predicate of `keyOpsFlag` recognises and which is handled as a metadata-only update
as well. The committer rejects a write set that repeats a namespace, but nothing rejects one
that repeats a write within a namespace.
-/

namespace FabricPeer.Ledger

open GoRun

set_option autoImplicit false

namespace TxOps

theorem getOrCreateKeyEntry_of_get? (txops : TxOps) (k : CompositeKey) (keyops : KeyOps)
    (hGet : txops.get? k = some keyops) : txops.getOrCreateKeyEntry k = keyops := by
  rw [getOrCreateKeyEntry, hGet, Option.getD_some]

@[simp] theorem getOrCreateKeyEntry_empty (k : CompositeKey) :
    TxOps.getOrCreateKeyEntry GoMap.empty k = ⟨0, none, []⟩ := rfl

theorem get?_record_self (txops : TxOps) (k : CompositeKey) (flag : UInt8) (set : KeyOps → KeyOps) :
    (txops.record k flag set).get? k =
      some (set { txops.getOrCreateKeyEntry k with
        flag := (txops.getOrCreateKeyEntry k).flag + flag }) :=
  GoMap.get?_insert_self _ _ _

theorem get?_applyKVWrite_self (txops : TxOps) (ns coll : String) (kvWrite : KVWrite) :
    (txops.applyKVWrite ns coll kvWrite).get? ⟨ns, coll, kvWrite.key⟩ =
      let keyops := txops.getOrCreateKeyEntry ⟨ns, coll, kvWrite.key⟩
      some (if isKVWriteDelete kvWrite then { keyops with flag := keyops.flag + keyDelete }
        else { keyops with flag := keyops.flag + upsertVal, value := some kvWrite.value }) := by
  unfold applyKVWrite
  split
  · exact get?_record_self _ _ _ _
  · exact get?_record_self _ _ _ _

end TxOps

theorem prepareKeyOps_of_unrecognised (u : PublicAndHashUpdates) (db : DB) (ck : CompositeKey)
    (keyop : KeyOps) (hShortcut : (keyop.isDelete || keyop.isUpsertAndMetadataUpdate) = false)
    (hOnlyUpsert : keyop.isOnlyUpsert = false) :
    prepareKeyOps u db ck keyop = (retrieveLatestState ck.ns ck.coll ck.key u db).map
      fun latestVal => { keyop with value := latestVal.value } := by
  unfold prepareKeyOps
  rw [if_neg (by simp [hShortcut]), if_neg (by simp [hOnlyUpsert])]
  cases retrieveLatestState ck.ns ck.coll ck.key u db <;> rfl

theorem prepareKeyOps_of_isDelete (u : PublicAndHashUpdates) (db : DB) (ck : CompositeKey)
    (keyop : KeyOps) (hDelete : keyop.isDelete = true) : prepareKeyOps u db ck keyop = some keyop := by
  simp [prepareKeyOps, hDelete]

theorem prepareKeyOps_of_isOnlyUpsert (u : PublicAndHashUpdates) (db : DB) (ck : CompositeKey)
    (keyop : KeyOps) (hShortcut : (keyop.isDelete || keyop.isUpsertAndMetadataUpdate) = false)
    (hOnlyUpsert : keyop.isOnlyUpsert = true) :
    prepareKeyOps u db ck keyop =
      some { keyop with metadata := retrieveLatestMetadata ck.ns ck.coll ck.key u db } := by
  unfold prepareKeyOps
  rw [if_neg (by simp [hShortcut]), if_pos hOnlyUpsert]

/-- The write set of a transaction whose only effect is the writes `kvWrites` to public keys
of `ns`. -/
def writesRwSet (ns : String) (kvWrites : List KVWrite) : TxRwSet :=
  ⟨[⟨ns, ⟨[], [], kvWrites, []⟩, []⟩]⟩

section

variable (serialize : List KVMetadataEntry → Except String Bytes)

theorem applyTxRwset_writesRwSet (ns : String) (kvWrites : List KVWrite) :
    TxOps.applyTxRwset serialize GoMap.empty (writesRwSet ns kvWrites) =
      .ok (kvWrites.foldl (fun (txops : TxOps) kvWrite => txops.applyKVWrite ns "" kvWrite) GoMap.empty) :=
  rfl

theorem prepareTxOps_writesRwSet (u : PublicAndHashUpdates) (db : DB) (ns : String)
    (kvWrites : List KVWrite) :
    prepareTxOps serialize (writesRwSet ns kvWrites) u db =
      .ok ((kvWrites.foldl (fun (txops : TxOps) kvWrite => txops.applyKVWrite ns "" kvWrite)
        GoMap.empty).filterMapVal (prepareKeyOps u db)) := by
  rw [prepareTxOps, applyTxRwset_writesRwSet, bind_ok]
  rfl

/-- A write set that carries one write twice is not prepared as the write set that carries it
once: the doubled write is completed from the latest state as a metadata-only update (or
dropped), where the single one is recorded as the upsert or the delete it is. -/
theorem prepareTxOps_repeated_write (u : PublicAndHashUpdates) (db : DB) (ns : String)
    (kvWrite : KVWrite) :
    ∃ txops txops' : TxOps,
      prepareTxOps serialize (writesRwSet ns [kvWrite, kvWrite]) u db = .ok txops ∧
      prepareTxOps serialize (writesRwSet ns [kvWrite]) u db = .ok txops' ∧
      txops.get? ⟨ns, "", kvWrite.key⟩ = (retrieveLatestState ns "" kvWrite.key u db).map
        (fun latestVal => if isKVWriteDelete kvWrite then ⟨keyDelete + keyDelete, latestVal.value, []⟩
          else ⟨upsertVal + upsertVal, latestVal.value, []⟩) ∧
      txops'.get? ⟨ns, "", kvWrite.key⟩ = some (if isKVWriteDelete kvWrite then ⟨keyDelete, none, []⟩
        else ⟨upsertVal, some kvWrite.value, retrieveLatestMetadata ns "" kvWrite.key u db⟩) ∧
      txops.get? ⟨ns, "", kvWrite.key⟩ ≠ txops'.get? ⟨ns, "", kvWrite.key⟩ := by
  refine ⟨_, _, prepareTxOps_writesRwSet serialize u db ns _,
    prepareTxOps_writesRwSet serialize u db ns _, ?_⟩
  simp only [GoMap.get?_filterMapVal, List.foldl_cons, List.foldl_nil]
  have hOnce := TxOps.get?_applyKVWrite_self GoMap.empty ns "" kvWrite
  have hTwice := TxOps.get?_applyKVWrite_self (TxOps.applyKVWrite GoMap.empty ns "" kvWrite) ns "" kvWrite
  rw [TxOps.getOrCreateKeyEntry_of_get? _ _ _ hOnce] at hTwice
  rw [hOnce, hTwice]
  cases hDel : isKVWriteDelete kvWrite
  case false =>
    simp only [TxOps.getOrCreateKeyEntry_empty, Option.bind_some, Bool.false_eq_true, ↓reduceIte]
    rw [prepareKeyOps_of_unrecognised u db _ _
      (by simp only [KeyOps.isDelete, KeyOps.isUpsertAndMetadataUpdate]; decide)
      (by simp only [KeyOps.isOnlyUpsert]; decide)]
    rw [prepareKeyOps_of_isOnlyUpsert u db _ _
      (by simp only [KeyOps.isDelete, KeyOps.isUpsertAndMetadataUpdate]; decide)
      (by simp only [KeyOps.isOnlyUpsert]; decide)]
    have hFlag : upsertVal + upsertVal ≠ 0 + upsertVal := by decide
    refine ⟨rfl, by simp, ?_⟩
    cases retrieveLatestState ns "" kvWrite.key u db with
    | none => simp
    | some latestVal =>
      simp only [Option.map_some, ne_eq, Option.some.injEq]
      exact fun h => hFlag (congrArg KeyOps.flag h)
  case true =>
    simp only [TxOps.getOrCreateKeyEntry_empty, Option.bind_some, ↓reduceIte]
    rw [prepareKeyOps_of_unrecognised u db _ _
      (by simp only [KeyOps.isDelete, KeyOps.isUpsertAndMetadataUpdate]; decide)
      (by simp only [KeyOps.isOnlyUpsert]; decide)]
    rw [prepareKeyOps_of_isDelete u db _ _ (by simp only [KeyOps.isDelete]; decide)]
    have hFlag : keyDelete + keyDelete ≠ 0 + keyDelete := by decide
    refine ⟨rfl, by simp, ?_⟩
    cases retrieveLatestState ns "" kvWrite.key u db with
    | none => simp
    | some latestVal =>
      simp only [Option.map_some, ne_eq, Option.some.injEq]
      exact fun h => hFlag (congrArg KeyOps.flag h)

end

end FabricPeer.Ledger
