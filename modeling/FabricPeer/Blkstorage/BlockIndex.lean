import FabricPeer.Blkstorage.Stream
import FabricPeer.Lib.GoMap

/-! # The block index

`blockindex.go` keeps, in the ledger's leveldb, where each block and each transaction lies in
the block files: by block hash, by block number, by transaction id (with the block and
transaction numbers in the key, so that a duplicate id gets an entry of its own), and by block
and transaction number; a save point records the last block indexed. Which of the four indexes
are kept is configured. The keys here are the tuples that `constructTxIDKey` and the other key
builders encode; their encodings sort the entries of one transaction id by block number and
then by transaction number, which is the order a range scan finds them in.
-/

namespace FabricPeer.Blkstorage

open FabricPeer.Ledger GoRun

set_option autoImplicit false

inductive IndexableAttr where
  | blockNum
  | blockHash
  | txID
  | blockNumTranNum
  deriving DecidableEq, Repr

structure FileLocPointer where
  fileSuffixNum : Nat
  offset : Nat
  bytesLength : Nat
  deriving DecidableEq, Repr

def newFileLocationPointer (fileSuffixNum beginningOffset : Nat) (relativeLP : LocPointer) :
    FileLocPointer :=
  ⟨fileSuffixNum, beginningOffset + relativeLP.offset, relativeLP.bytesLength⟩

structure TxIDIndexValue where
  blkLocation : FileLocPointer
  txLocation : FileLocPointer
  txValidationCode : UInt8
  deriving DecidableEq, Repr

/-- The index entries of the leveldb, by the key they are stored under. -/
structure IndexDb where
  blockHashes : GoMap Bytes FileLocPointer
  blockNums : GoMap Nat FileLocPointer
  txIDs : GoMap (String × Nat × Nat) TxIDIndexValue
  blockNumTranNums : GoMap (Nat × Nat) FileLocPointer
  savePoint : Option Nat

def IndexDb.empty : IndexDb := ⟨.empty, .empty, .empty, .empty, none⟩

structure BlockIdxInfo where
  blockNum : Nat
  blockHash : Bytes
  flp : FileLocPointer
  txOffsets : List TxIndexInfo
  metadata : Option (List Bytes)
  deriving DecidableEq, Repr

def transactionsFilter : Int := 2

def errIndexSavePointKeyNotPresent : String := "NoBlockIndexed"

/-- `blockIndex`: the configured indexes over the leveldb. -/
structure BlockIndex where
  attrsToIndex : List IndexableAttr
  db : IndexDb

namespace BlockIndex

def isAttributeIndexed (index : BlockIndex) (attr : IndexableAttr) : Bool :=
  decide (attr ∈ index.attrsToIndex)

def putTxIDs (blkNum : Nat) (flp : FileLocPointer) (txsfltr : Bytes)
    (txIDs : GoMap (String × Nat × Nat) TxIDIndexValue) :
    List (TxIndexInfo × Nat) → Run (GoMap (String × Nat × Nat) TxIDIndexValue)
  | [] => .ok txIDs
  | (txoffset, i) :: rest => do
    let txFlp := newFileLocationPointer flp.fileSuffixNum flp.offset txoffset.loc
    let txValidationCode ← index txsfltr i
    putTxIDs blkNum flp txsfltr (txIDs.insert (txoffset.txID, blkNum, i) ⟨flp, txFlp, txValidationCode⟩)
      rest

/-- `indexBlock`: the entries of one block and the new save point, written in one batch. A
block whose metadata lacks the transactions filter, or whose filter is shorter than its
transactions, makes it panic. -/
def indexBlock (index : BlockIndex) (blockIdxInfo : BlockIdxInfo) : Run BlockIndex :=
  if index.attrsToIndex = [] then .ok index
  else do
    let metadata ← match blockIdxInfo.metadata with
      | some metadata => pure metadata
      | none => .error (.panic "runtime error: invalid memory address or nil pointer dereference")
    let txsfltr ← GoRun.index metadata transactionsFilter
    let flp := blockIdxInfo.flp
    let blkNum := blockIdxInfo.blockNum
    let db := index.db
    let blockHashes := if index.isAttributeIndexed .blockHash then
        db.blockHashes.insert blockIdxInfo.blockHash flp
      else db.blockHashes
    let blockNums := if index.isAttributeIndexed .blockNum then db.blockNums.insert blkNum flp
      else db.blockNums
    let txIDs ← if index.isAttributeIndexed .txID then
        putTxIDs blkNum flp txsfltr db.txIDs blockIdxInfo.txOffsets.zipIdx
      else pure db.txIDs
    let blockNumTranNums := if index.isAttributeIndexed .blockNumTranNum then
        blockIdxInfo.txOffsets.zipIdx.foldl (fun m (e : TxIndexInfo × Nat) =>
          m.insert (blkNum, e.2) (newFileLocationPointer flp.fileSuffixNum flp.offset e.1.loc))
          db.blockNumTranNums
      else db.blockNumTranNums
    pure { index with db := ⟨blockHashes, blockNums, txIDs, blockNumTranNums, some blkNum⟩ }

def getLastBlockIndexed (index : BlockIndex) : Except String Nat :=
  match index.db.savePoint with
  | some blockNum => .ok blockNum
  | none => .error errIndexSavePointKeyNotPresent

theorem getLastBlockIndexed_toOption (index : BlockIndex) :
    index.getLastBlockIndexed.toOption = index.db.savePoint := by
  unfold getLastBlockIndexed
  split <;> simp_all [Except.toOption]

def getBlockLocByHash (index : BlockIndex) (blockHash : Bytes) : Except String FileLocPointer :=
  if !index.isAttributeIndexed .blockHash then .error "block hashes not maintained in index"
  else match index.db.blockHashes.get? blockHash with
    | some blkLoc => .ok blkLoc
    | none => .error ("no such block hash [" ++ goHex blockHash ++ "] in index")

def getBlockLocByBlockNum (index : BlockIndex) (blockNum : Nat) : Except String FileLocPointer :=
  if !index.isAttributeIndexed .blockNum then .error "block numbers not maintained in index"
  else match index.db.blockNums.get? blockNum with
    | some blkLoc => .ok blkLoc
    | none => .error ("no such block number [" ++ toString blockNum ++ "] in index")

def getTXLocByBlockNumTranNum (index : BlockIndex) (blockNum tranNum : Nat) :
    Except String FileLocPointer :=
  if !index.isAttributeIndexed .blockNumTranNum then
    .error "<blockNumber, transactionNumber> tuple not maintained in index"
  else match index.db.blockNumTranNums.get? (blockNum, tranNum) with
    | some txFLP => .ok txFLP
    | none => .error ("no such blockNumber, transactionNumber <" ++ toString blockNum ++ ", " ++
        toString tranNum ++ "> in index")

def txIDKeyLt (a b : String × Nat × Nat) : Bool :=
  a.2.1 < b.2.1 || (a.2.1 = b.2.1 && a.2.2 < b.2.2)

def firstTxIDEntry (entries : List ((String × Nat × Nat) × TxIDIndexValue)) :
    Option ((String × Nat × Nat) × TxIDIndexValue) :=
  entries.foldl (fun first e => match first with
    | some f => if txIDKeyLt e.1 f.1 then some e else some f
    | none => some e) none

/-- `getTxIDVal`: the value of the first entry of the id, with the block number of its key. -/
def getTxIDVal (index : BlockIndex) (txID : String) : Except String (TxIDIndexValue × Nat) :=
  if !index.isAttributeIndexed .txID then .error "transaction IDs not maintained in index"
  else match firstTxIDEntry (index.db.txIDs.entries.filter (·.1.1 = txID)) with
    | some ((_, blockNum, _), val) => .ok (val, blockNum)
    | none => .error ("no such transaction ID [" ++ txID ++ "] in index")

def getTxValidationCodeByTxID (index : BlockIndex) (txID : String) : Except String (UInt8 × Nat) := do
  let (v, blkNum) ← index.getTxIDVal txID
  pure (v.txValidationCode, blkNum)

end BlockIndex

end FabricPeer.Blkstorage
