import FabricPeer.Blkstorage.FileSearch

/-! # Rolling the block store back

`Rollback` (`rollback.go`) takes the block store of a ledger back to a target block. It first
deletes the index entries of the blocks after the target, in batches of at most ten blocks from
the last indexed block down; each batch also moves the index save point below its blocks. It
then deletes the saved `blockfilesInfo`, finds the file of the target block with
`binarySearchFileNumForBlock`, removes the files after that one and cuts it at the end of the
target block. Every write reaches the disk when it is made, so a rollback that fails keeps what
it wrote before the failure: the model returns the disk together with the fault it stopped at.
-/

namespace FabricPeer.Blkstorage

open FabricPeer.Ledger GoRun

set_option autoImplicit false

theorem lt_length_of_openBlockfile_eq_ok {files : List Bytes} {rootDir : String} {fileNum : Nat}
    {file : Bytes} (h : openBlockfile files rootDir fileNum = .ok file) : fileNum < files.length := by
  by_contra hGe
  have hNone : files[fileNum]? = none := List.getElem?_eq_none (by omega)
  simp [openBlockfile, openFile, hNone, errorsWrap, GoRun.ofExcept] at h

/-- `blockStream.nextBlockBytes` of a stream without an end file (`endFileNum = -1`) that stands
at `offset` of file `fileNum`: the next block's bytes, and the file and offset the stream then
stands at. At the end of a file the stream opens the next one, which must exist. -/
def nextStreamBlock (files : List Bytes) (rootDir : String) (fileNum offset : Nat) :
    Run (Bytes × Nat × Nat) :=
  match nextBlockBytesAndPlacementInfo (files.getD fileNum []) fileNum offset with
  | .error fault => .error fault
  | .ok (some (blockBytes, info)) => .ok (blockBytes, fileNum, info.blockBytesOffset + blockBytes.length)
  | .ok none =>
    match h : openBlockfile files rootDir (fileNum + 1) with
    | .error fault => .error fault
    | .ok _ =>
      have := lt_length_of_openBlockfile_eq_ok h
      nextStreamBlock files rootDir (fileNum + 1) 0
termination_by files.length - fileNum

section

variable (getOrComputeTxIDFromEnvelope : Bytes → String) (blockHeaderHash : BlockHeader → Bytes)

/-- `addIndexEntriesToBeDeleted`, with the deletions applied to the index they are for. -/
def addIndexEntriesToBeDeleted (index : BlockIndex) (db : IndexDb) (blockInfo : SerializedBlockInfo) :
    IndexDb :=
  let blkNum := blockInfo.blockHeader.number
  let txs := blockInfo.txOffsets.zipIdx
  { db with
    blockHashes := if index.isAttributeIndexed .blockHash then
        db.blockHashes.delete (blockHeaderHash blockInfo.blockHeader)
      else db.blockHashes
    blockNums := if index.isAttributeIndexed .blockNum then db.blockNums.delete blkNum
      else db.blockNums
    blockNumTranNums := if index.isAttributeIndexed .blockNumTranNum then
        txs.foldl (fun m e => m.delete (blkNum, e.2)) db.blockNumTranNums
      else db.blockNumTranNums
    txIDs := if index.isAttributeIndexed .txID then
        txs.foldl (fun m e => m.delete (e.1.txID, blkNum, e.2)) db.txIDs
      else db.txIDs }

def deleteIndexEntriesOfBlocks (index : BlockIndex) (files : List Bytes) (rootDir : String) :
    (n fileNum offset : Nat) → IndexDb → Run IndexDb
  | 0, _, _, db => .ok db
  | n + 1, fileNum, offset, db => do
    let (blockBytes, fileNum, offset) ← nextStreamBlock files rootDir fileNum offset
    let blockInfo ← ofExcept (extractSerializedBlockInfo getOrComputeTxIDFromEnvelope blockBytes)
    deleteIndexEntriesOfBlocks index files rootDir n fileNum offset
      (addIndexEntriesToBeDeleted blockHeaderHash index db blockInfo)

/-- `deleteIndexEntriesRange`: the index after the batch that deletes the entries of the blocks
`startBlkNum` to `endBlkNum` and sets the save point to `startBlkNum - 1`. -/
def deleteIndexEntriesRange (index : BlockIndex) (files : List Bytes) (rootDir : String)
    (startBlkNum endBlkNum : Nat) : Run IndexDb := do
  let lp ← ofExcept (index.getBlockLocByBlockNum startBlkNum)
  let _ ← openBlockfile files rootDir lp.fileSuffixNum
  let db ← deleteIndexEntriesOfBlocks getOrComputeTxIDFromEnvelope blockHeaderHash index files
    rootDir (endBlkNum - startBlkNum + 1) lp.fileSuffixNum lp.offset index.db
  pure { db with savePoint := some (startBlkNum - 1) }

def batchLimit : Nat := 10

/-- The loop of `rollbackBlockIndex`, from the range `targetBlockNum + 1` to `endBlk` on: each
batch takes the last `batchLimit` blocks of the range. A batch that fails ends the loop, and the
batches written before stay. -/
def rollbackBlockIndexFrom (attrsToIndex : List IndexableAttr) (files : List Bytes)
    (rootDir : String) (targetBlockNum : Nat) (db : IndexDb) (endBlk : Nat) : IndexDb × Option Fault :=
  if targetBlockNum + 1 ≤ endBlk then
    let start := if batchLimit ≤ endBlk - (targetBlockNum + 1) then endBlk - batchLimit + 1
      else targetBlockNum + 1
    match deleteIndexEntriesRange getOrComputeTxIDFromEnvelope blockHeaderHash ⟨attrsToIndex, db⟩
        files rootDir start endBlk with
    | .error fault => (db, some fault)
    | .ok db => rollbackBlockIndexFrom attrsToIndex files rootDir targetBlockNum db (start - 1)
  else (db, none)
termination_by endBlk
decreasing_by
  have hLimit : batchLimit = 10 := rfl
  by_cases hBatch : batchLimit ≤ endBlk - (targetBlockNum + 1)
  · rw [dif_pos hBatch]
    omega
  · rw [dif_neg hBatch]
    omega

def rollbackBlockIndex (index : BlockIndex) (files : List Bytes) (rootDir : String)
    (targetBlockNum : Nat) : IndexDb × Option Fault :=
  match index.getLastBlockIndexed with
  | .error err =>
    if err = errIndexSavePointKeyNotPresent then (index.db, none) else (index.db, some (.error err))
  | .ok lastBlockNumber =>
    rollbackBlockIndexFrom getOrComputeTxIDFromEnvelope blockHeaderHash index.attrsToIndex files
      rootDir targetBlockNum index.db lastBlockNumber

def endOffsetOfBlock (blockNum : Nat) (stop : Option Fault) (fileEnd : Nat) :
    List (Bytes × BlockPlacementInfo) → Run Nat
  | [] => match stop with
    | some fault => .error fault
    | none =>
      match extractSerializedBlockInfo getOrComputeTxIDFromEnvelope [] with
      | .error err => .error (.error err)
      | .ok _ => .ok fileEnd
  | (blockBytes, info) :: rest =>
    match extractSerializedBlockInfo getOrComputeTxIDFromEnvelope blockBytes with
    | .error err => .error (.error err)
    | .ok blockInfo =>
      if blockInfo.blockHeader.number = blockNum then .ok (info.blockBytesOffset + blockBytes.length)
      else endOffsetOfBlock blockNum stop fileEnd rest

def calculateEndOffSet (files : List Bytes) (rootDir : String) (targetBlkFileNum blockNum : Nat) :
    Run Nat := do
  let file ← openBlockfile files rootDir targetBlkFileNum
  let (blocks, stop, fileEnd) := readBlocks file targetBlkFileNum 0
  endOffsetOfBlock getOrComputeTxIDFromEnvelope blockNum stop fileEnd blocks

/-- `rollbackBlockFiles`: the saved `blockfilesInfo` is deleted first; the files after the one
of the target block are removed and that file is cut at the end of the target block. -/
def rollbackBlockFiles (disk : Disk) (rootDir : String) (targetBlockNum : Nat) :
    Disk × Option Fault :=
  let disk := { disk with blkfilesInfo := none }
  match binarySearchFileNumForBlock getOrComputeTxIDFromEnvelope disk.files rootDir
      targetBlockNum with
  | .error fault => (disk, some fault)
  | .ok targetFileNum =>
    let disk := { disk with files := disk.files.take (targetFileNum + 1) }
    match calculateEndOffSet getOrComputeTxIDFromEnvelope disk.files rootDir targetFileNum
        targetBlockNum with
    | .error fault => (disk, some fault)
    | .ok endOffset =>
      ({ disk with files := truncateBlockfile disk.files targetFileNum endOffset }, none)

/-- `Rollback` of the ledger whose block files are in `rootDir`, with the index configuration
`attrsToIndex`. -/
def rollback (disk : Disk) (rootDir : String) (targetBlockNum : Nat)
    (attrsToIndex : List IndexableAttr) : Disk × Option Fault :=
  match constructBlockfilesInfo getOrComputeTxIDFromEnvelope disk.files rootDir with
  | .error fault => (disk, some fault)
  | .ok _ =>
    let (index, stop) := rollbackBlockIndex getOrComputeTxIDFromEnvelope blockHeaderHash
      ⟨attrsToIndex, disk.index⟩ disk.files rootDir targetBlockNum
    let disk := { disk with index }
    match stop with
    | some fault => (disk, some fault)
    | none => rollbackBlockFiles getOrComputeTxIDFromEnvelope disk rootDir targetBlockNum


end

/-! ## A rollback after a crash in a new block file -/

/-- `attrsToIndex` of `kvledger`: the peer indexes every attribute. -/
def kvledgerAttrsToIndex : List IndexableAttr := [.blockHash, .blockNum, .txID, .blockNumTranNum]

/-- A header hash that tells the headers of the blocks below apart. -/
def numberHeaderHash (header : BlockHeader) : Bytes := [UInt8.ofNat header.number]

def blockZero : Block := ⟨⟨0, [], []⟩, [], some [[], [], []]⟩

def blockOne : Block := ⟨⟨1, [], numberHeaderHash blockZero.header⟩, [], some [[], [], []]⟩

/-- Blocks 0 and 1 fill file 0 up to 19 of its 20 bytes, so the next block opens file 1, and a
crash comes right after `moveToNextFile`. A rollback to block 0 deletes the index entries of
block 1, sets the save point to 0 and deletes the saved `blockfilesInfo`. It then fails in
`binarySearchFileNumForBlock`, which reads the empty file 1, with the files as they were: they
still hold block 1. -/
theorem rollback_fails_after_index_rollback_when_last_file_is_empty :
    ∃ mgr, (do
        let mgr ← newBlockfileMgr (fun _ => "") numberHeaderHash "ledger" 20 kvledgerAttrsToIndex
          .empty
        let mgr ← mgr.addBlock (fun _ => "") numberHeaderHash blockZero
        mgr.addBlock (fun _ => "") numberHeaderHash blockOne) = .ok mgr ∧
      let crashed := mgr.moveToNextFile.disk
      let after := rollback (fun _ => "") numberHeaderHash crashed "ledger" 0 kvledgerAttrsToIndex
      after.2 = some (.error
        "error decoding the block number: error decoding varint with proto.Buffer: unexpected EOF") ∧
      after.1.files = crashed.files ∧
      (constructBlockfilesInfo (fun _ => "") after.1.files "ledger").map (·.lastPersistedBlock) =
        .ok 1 ∧
      after.1.index.savePoint = some 0 ∧ after.1.index.blockNums.get? 1 = none ∧
      after.1.blkfilesInfo = none := by
  refine ⟨_, rfl, ?_⟩
  decide +kernel

end FabricPeer.Blkstorage
