import FabricPeer.Ledger.RangeQueryValidator
import FabricPeer.Ledger.CombinedIterator
import FabricPeer.Ledger.TxOps

/-! # The state validator of a block

`validation/validator.go` and `validation/types.go`: the MVCC validation of the endorser
transactions of a block, in block order, against the committed state and the updates of the
preceding valid transactions. A transaction is valid when none of its public reads, range
queries and hashed reads is contradicted; the write set of a valid transaction is then applied
to the updates, each write stamped with the height of the transaction. The bulk preloading of
committed versions only fills a cache and is left out.
-/

namespace FabricPeer.Ledger

open GoRun

set_option autoImplicit false

structure Transaction where
  indexInBlock : Nat
  id : String
  rwset : TxRwSet
  containsPostOrderWrites : Bool
  deriving DecidableEq, Repr

structure Block where
  num : UInt64
  txs : List Transaction
  deriving DecidableEq, Repr

inductive TxValidationCode where
  | valid
  | mvccReadConflict
  | phantomReadConflict
  deriving DecidableEq, Repr

/-- `privacyenabledstate.HashedCompositeKey`. -/
structure HashedCompositeKey where
  namespace_ : String
  collectionName : String
  keyHash : String
  deriving DecidableEq, Repr

structure AppInitiatedPurgeUpdate where
  compositeKey : HashedCompositeKey
  version : Height
  deriving DecidableEq, Repr

structure PvtdataPurgeTracker where
  m : GoMap HashedCompositeKey AppInitiatedPurgeUpdate

namespace PvtdataPurgeTracker

def newPvtdataPurgeTracker : PvtdataPurgeTracker := ⟨.empty⟩

/-- `update`: the purged keys of a valid transaction, each with its height. -/
def update (p : PvtdataPurgeTracker) (rwset : TxRwSet) (version : Height) : PvtdataPurgeTracker :=
  ⟨rwset.nsRwSets.foldl (fun m nsRwSets =>
    nsRwSets.collHashedRwSets.foldl (fun m collHashedRwSet =>
      collHashedRwSet.hashedRwSet.hashedWrites.foldl (fun m hashedWrite =>
        let ck : HashedCompositeKey :=
          ⟨nsRwSets.nameSpace, collHashedRwSet.collectionName, hashedWrite.keyHash⟩
        if hashedWrite.isPurge then m.insert ck ⟨ck, version⟩ else m) m) m) p.m⟩

def getUpdates (p : PvtdataPurgeTracker) : List AppInitiatedPurgeUpdate := p.m.entries.map (·.2)

end PvtdataPurgeTracker

section

variable (hashFunc : HashFunc) (serializeKVReads : List KVRead → Except String Bytes)
  (serialize : List KVMetadataEntry → Except String Bytes) (db : DB)

def validateKVRead (ns : String) (kvRead : KVRead) (updates : UpdateBatch) : Bool :=
  if updates.keyExists ns kvRead.key then false
  else areSame (db.getVersion ns kvRead.key) kvRead.version

def validateReadSet (ns : String) (kvReads : List KVRead) (updates : UpdateBatch) : Bool :=
  kvReads.all fun kvRead => validateKVRead db ns kvRead updates

/-- `validateRangeQuery`: the hash validator when a merkle summary was recorded, else the raw
one, over the combined iterator of the recorded range. -/
def validateRangeQuery (ns : String) (rangeQueryInfo : RangeQueryInfo) (updates : UpdateBatch) :
    Run Bool :=
  let includeEndKey := !rangeQueryInfo.itrExhausted
  let combinedItr := combinedIterator db updates ns rangeQueryInfo.startKey
    rangeQueryInfo.endKey includeEndKey
  match rangeQueryInfo.getReadsMerkleHashes with
  | some _ => rangeQueryHashValidate hashFunc serializeKVReads rangeQueryInfo combinedItr
  | none => rangeQueryResultsValidate rangeQueryInfo combinedItr

def validateRangeQueries (ns : String) : List RangeQueryInfo → UpdateBatch → Run Bool
  | [], _ => .ok true
  | rqi :: rangeQueriesInfo, updates => do
    let valid ← validateRangeQuery hashFunc serializeKVReads db ns rqi updates
    if !valid then .ok false
    else validateRangeQueries ns rangeQueriesInfo updates

def validateKVReadHash (ns coll : String) (kvReadHash : KVReadHash) (updates : HashedUpdateBatch) :
    Bool :=
  if updates.contains ns coll kvReadHash.keyHash then false
  else areSame (db.getKeyHashVersion ns coll kvReadHash.keyHash) kvReadHash.version

def validateNsHashedReadSets (ns : String) (collHashedRWSets : List CollHashedRwSet)
    (updates : HashedUpdateBatch) : Bool :=
  collHashedRWSets.all fun collHashedRWSet =>
    collHashedRWSet.hashedRwSet.hashedReads.all fun kvReadHash =>
      validateKVReadHash db ns collHashedRWSet.collectionName kvReadHash updates

def validateNsRwSets : List NsRwSet → PublicAndHashUpdates → Run TxValidationCode
  | [], _ => .ok .valid
  | nsRWSet :: nsRwSets, updates =>
    let ns := nsRWSet.nameSpace
    if !validateReadSet db ns nsRWSet.kvRwSet.reads updates.publicUpdates then
      .ok .mvccReadConflict
    else do
      let valid ← validateRangeQueries hashFunc serializeKVReads db ns
        nsRWSet.kvRwSet.rangeQueriesInfo updates.publicUpdates
      if !valid then .ok .phantomReadConflict
      else if !validateNsHashedReadSets db ns nsRWSet.collHashedRwSets updates.hashUpdates then
        .ok .mvccReadConflict
      else validateNsRwSets nsRwSets updates

def validateTx (txRWSet : TxRwSet) (updates : PublicAndHashUpdates) : Run TxValidationCode :=
  validateNsRwSets hashFunc serializeKVReads db txRWSet.nsRwSets updates

def validateEndorserTX (txRWSet : TxRwSet) (doMVCCValidation : Bool)
    (updates : PublicAndHashUpdates) : Run TxValidationCode :=
  if doMVCCValidation then validateTx hashFunc serializeKVReads db txRWSet updates
  else .ok .valid

def applyKeyOps (txHeight : Height) (u : PublicAndHashUpdates) (entry : CompositeKey × KeyOps) :
    Run PublicAndHashUpdates :=
  let (compositeKey, keyops) := entry
  if compositeKey.coll = "" then
    if keyops.isDelete then
      .ok { u with publicUpdates := u.publicUpdates.delete compositeKey.ns compositeKey.key txHeight }
    else do
      let publicUpdates ← u.publicUpdates.putValAndMetadata compositeKey.ns compositeKey.key
        keyops.value keyops.metadata txHeight
      pure { u with publicUpdates := publicUpdates }
  else
    if keyops.isDelete then
      let hashUpdates := u.hashUpdates.delete compositeKey.ns compositeKey.coll compositeKey.key
        txHeight
      .ok { u with hashUpdates := hashUpdates }
    else do
      let hashUpdates ← u.hashUpdates.putValHashAndMetadata compositeKey.ns compositeKey.coll
        compositeKey.key keyops.value keyops.metadata txHeight
      pure { u with hashUpdates := hashUpdates }

def PublicAndHashUpdates.markPostOrderWrites (u : PublicAndHashUpdates)
    (containsPostOrderWrites : Bool) : PublicAndHashUpdates :=
  { u with publicUpdates := { u.publicUpdates with
      containsPostOrderWrites := u.publicUpdates.containsPostOrderWrites || containsPostOrderWrites } }

@[simp] theorem PublicAndHashUpdates.markPostOrderWrites_get (u : PublicAndHashUpdates)
    (containsPostOrderWrites : Bool) (ns key : String) :
    (u.markPostOrderWrites containsPostOrderWrites).publicUpdates.get ns key =
      u.publicUpdates.get ns key := rfl

def applyWriteSet (u : PublicAndHashUpdates) (txRWSet : TxRwSet) (txHeight : Height)
    (containsPostOrderWrites : Bool) : Run PublicAndHashUpdates := do
  let u := u.markPostOrderWrites containsPostOrderWrites
  let txops ← prepareTxOps serialize txRWSet u db
  txops.entries.foldlM (applyKeyOps txHeight) u

/-- What the loop of `validateAndPrepareBatch` carries: the updates, the purge tracker and the
codes given so far, in block order. -/
structure BatchState where
  updates : PublicAndHashUpdates
  purgeTracker : PvtdataPurgeTracker
  validationCodes : List TxValidationCode

def BatchState.init : BatchState :=
  ⟨newPubAndHashUpdates, .newPvtdataPurgeTracker, []⟩

/-- One transaction of the loop of `validateAndPrepareBatch`. -/
def validateAndPrepareTx (blkNum : UInt64) (doMVCCValidation : Bool) (st : BatchState)
    (tx : Transaction) : Run BatchState := do
  let validationCode ← validateEndorserTX hashFunc serializeKVReads db tx.rwset doMVCCValidation
    st.updates
  if validationCode = .valid then
    let committingTxHeight : Height := ⟨blkNum, tx.indexInBlock.toUInt64⟩
    let updates ← applyWriteSet serialize db st.updates tx.rwset committingTxHeight
      tx.containsPostOrderWrites
    pure ⟨updates, st.purgeTracker.update tx.rwset committingTxHeight,
      st.validationCodes ++ [validationCode]⟩
  else pure { st with validationCodes := st.validationCodes ++ [validationCode] }

/-- `validateAndPrepareBatch`: the updates, the purges, and the code of each transaction. -/
def validateAndPrepareBatch (blk : Block) (doMVCCValidation : Bool) :
    Run (PublicAndHashUpdates × List AppInitiatedPurgeUpdate × List TxValidationCode) := do
  let st ← blk.txs.foldlM
    (validateAndPrepareTx hashFunc serializeKVReads serialize db blk.num doMVCCValidation)
    BatchState.init
  pure (st.updates, st.purgeTracker.getUpdates, st.validationCodes)

end

end FabricPeer.Ledger
