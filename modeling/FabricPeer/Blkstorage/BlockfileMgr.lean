import FabricPeer.Blkstorage.BlockIndex

/-! # The block file manager

`blockfileMgr` appends blocks to the current block file and indexes them, and serves blocks and
transactions back through the index. When a block does not fit in what is left of the current
file, `moveToNextFile` starts the next one. `newBlockfileMgr` restarts the manager from what
survived on disk: the saved `blockfilesInfo`, brought up to date with the last file
(`syncBlockfilesInfoFromFS`) or rebuilt from the files when none was saved
(`constructBlockfilesInfo`), and the index, brought up to date with the files (`syncIndex`).

The state that survives a crash is `Disk`: the block files and the leveldb. `addBlock` is kept
as its two halves, `appendBlock` up to the append of the block's bytes and `commitBlock` from
the save of the new `blockfilesInfo` on, so that a crash between them, which loses that
unsynced save, is a state the model can name. The hash of a block header and the transaction
id of an envelope are parameters; a ledger bootstrapped from a snapshot is not modelled.
-/

namespace FabricPeer.Blkstorage

open FabricPeer.Ledger GoRun

set_option autoImplicit false

structure BlockfilesInfo where
  latestFileNumber : Nat
  latestFileSize : Nat
  noBlockFiles : Bool
  lastPersistedBlock : Nat
  deriving DecidableEq, Repr

structure Disk where
  files : List Bytes
  blkfilesInfo : Option BlockfilesInfo
  index : IndexDb

def Disk.empty : Disk := ⟨[], none, .empty⟩

structure BlockchainInfo where
  height : Nat
  currentBlockHash : Bytes
  previousBlockHash : Bytes
  deriving DecidableEq, Repr

structure BlockfileMgr where
  rootDir : String
  maxBlockfileSize : Nat
  attrsToIndex : List IndexableAttr
  disk : Disk
  /-- The current writer appends to file `blockfilesInfo.latestFileNumber`. -/
  blockfilesInfo : BlockfilesInfo
  bcInfo : BlockchainInfo

def shiftTxOffsets (txOffsets : List TxIndexInfo) (numBytesToShift : Nat) : List TxIndexInfo :=
  txOffsets.map fun txOffset =>
    { txOffset with loc := { txOffset.loc with offset := txOffset.loc.offset + numBytesToShift } }

/-- What `addBlock` has computed once the block's bytes are in the file. -/
structure AppendedBlock where
  block : Block
  blockHash : Bytes
  info : SerializedBlockInfo
  currentOffset : Nat
  blockBytesEncodedLen : Nat
  totalBytesToAppend : Nat

namespace BlockfileMgr

def index (mgr : BlockfileMgr) : BlockIndex := ⟨mgr.attrsToIndex, mgr.disk.index⟩

def saveBlkfilesInfo (mgr : BlockfileMgr) (blkfilesInfo : BlockfilesInfo) : BlockfileMgr :=
  { mgr with disk := { mgr.disk with blkfilesInfo := some blkfilesInfo } }

def moveToNextFile (mgr : BlockfileMgr) : BlockfileMgr :=
  let blkfilesInfo : BlockfilesInfo :=
    ⟨mgr.blockfilesInfo.latestFileNumber + 1, 0, false, mgr.blockfilesInfo.lastPersistedBlock⟩
  let files := createBlockfile mgr.disk.files blkfilesInfo.latestFileNumber
  { mgr with
    disk := { mgr.disk with files, blkfilesInfo := some blkfilesInfo }
    blockfilesInfo := blkfilesInfo }

@[simp] theorem moveToNextFile_blockfilesInfo (mgr : BlockfileMgr) :
    mgr.moveToNextFile.blockfilesInfo =
      ⟨mgr.blockfilesInfo.latestFileNumber + 1, 0, false, mgr.blockfilesInfo.lastPersistedBlock⟩ :=
  rfl

@[simp] theorem moveToNextFile_disk (mgr : BlockfileMgr) :
    mgr.moveToNextFile.disk = { mgr.disk with
      files := createBlockfile mgr.disk.files (mgr.blockfilesInfo.latestFileNumber + 1)
      blkfilesInfo := some mgr.moveToNextFile.blockfilesInfo } := rfl

@[simp] theorem moveToNextFile_bcInfo (mgr : BlockfileMgr) :
    mgr.moveToNextFile.bcInfo = mgr.bcInfo := rfl

section

variable (getOrComputeTxIDFromEnvelope : Bytes → String) (blockHeaderHash : BlockHeader → Bytes)

def appendBlock (mgr : BlockfileMgr) (block : Block) : Run (BlockfileMgr × AppendedBlock) :=
  if block.header.number ≠ mgr.bcInfo.height then
    .error (.error ("block number should have been " ++ toString mgr.bcInfo.height ++
      " but was " ++ toString block.header.number))
  else if block.header.previousHash ≠ mgr.bcInfo.currentBlockHash then
    .error (.error ("unexpected Previous block hash. Expected PreviousHash = [" ++
      goHex mgr.bcInfo.currentBlockHash ++ "], PreviousHash referred in the latest block= [" ++
      goHex block.header.previousHash ++ "]"))
  else do
    let (blockBytes, info) ← serializeBlock getOrComputeTxIDFromEnvelope block
    let blockHash := blockHeaderHash block.header
    let blockBytesEncodedLen := Varint.encode blockBytes.length
    let totalBytesToAppend := blockBytes.length + blockBytesEncodedLen.length
    let (mgr, currentOffset) :=
      if mgr.maxBlockfileSize < mgr.blockfilesInfo.latestFileSize + totalBytesToAppend then
        (mgr.moveToNextFile, 0)
      else (mgr, mgr.blockfilesInfo.latestFileSize)
    let latest := mgr.blockfilesInfo.latestFileNumber
    let files := appendBlockfile (appendBlockfile mgr.disk.files latest blockBytesEncodedLen) latest
      blockBytes
    pure ({ mgr with disk := { mgr.disk with files } },
      ⟨block, blockHash, info, currentOffset, blockBytesEncodedLen.length, totalBytesToAppend⟩)

/-- `addBlock` from the save of the new `blockfilesInfo`, which is not synced, on. -/
def commitBlock (mgr : BlockfileMgr) (appended : AppendedBlock) : Run BlockfileMgr := do
  let currentBlkfilesInfo := mgr.blockfilesInfo
  let newBlkfilesInfo : BlockfilesInfo := ⟨currentBlkfilesInfo.latestFileNumber,
    currentBlkfilesInfo.latestFileSize + appended.totalBytesToAppend, false,
    appended.block.header.number⟩
  let mgr := mgr.saveBlkfilesInfo newBlkfilesInfo
  let blockFLP : FileLocPointer := ⟨newBlkfilesInfo.latestFileNumber, appended.currentOffset, 0⟩
  let index ← mgr.index.indexBlock ⟨appended.block.header.number, appended.blockHash, blockFLP,
    shiftTxOffsets appended.info.txOffsets appended.blockBytesEncodedLen, appended.block.metadata⟩
  pure { mgr with
    disk := { mgr.disk with index := index.db }
    blockfilesInfo := newBlkfilesInfo
    bcInfo := ⟨mgr.bcInfo.height + 1, appended.blockHash, appended.block.header.previousHash⟩ }

def addBlock (mgr : BlockfileMgr) (block : Block) : Run BlockfileMgr := do
  let (mgr, appended) ← appendBlock getOrComputeTxIDFromEnvelope blockHeaderHash mgr block
  commitBlock mgr appended

/-! ## Serving blocks and transactions -/

def fetchBlockBytes (mgr : BlockfileMgr) (lp : FileLocPointer) : Run Bytes := do
  let file ← openBlockfile mgr.disk.files mgr.rootDir lp.fileSuffixNum
  let next ← nextBlockBytesAndPlacementInfo file lp.fileSuffixNum lp.offset
  pure ((next.map (·.1)).getD [])

def fetchBlock (mgr : BlockfileMgr) (lp : FileLocPointer) : Run Block := do
  let blockBytes ← mgr.fetchBlockBytes lp
  ofExcept (deserializeBlock getOrComputeTxIDFromEnvelope blockBytes)

/-- `fetchRawBytes`: `ReadAt` of `bytesLength` bytes, which fails at the end of the file. -/
def fetchRawBytes (mgr : BlockfileMgr) (lp : FileLocPointer) : Run Bytes := do
  let filePath := deriveBlockfilePath mgr.rootDir lp.fileSuffixNum
  let file ← ofExcept (errorsWrap ("error opening block file reader for file " ++ filePath)
    (openFile mgr.disk.files mgr.rootDir lp.fileSuffixNum))
  if file.length < lp.offset + lp.bytesLength then
    .error (.error ("error reading block file for offset " ++ toString lp.offset ++
      " and length " ++ toString lp.bytesLength ++ ": EOF"))
  else pure ((file.drop lp.offset).take lp.bytesLength)

/-- `fetchTransactionEnvelope`: the envelope past the length prefix of the raw bytes, unmarshalled
by `protoutil.GetEnvelopeFromBlock`. -/
def fetchTransactionEnvelope {Envelope : Type} (getEnvelopeFromBlock : Bytes → Except String Envelope)
    (mgr : BlockfileMgr) (lp : FileLocPointer) : Run Envelope := do
  let txEnvelopeBytes ← mgr.fetchRawBytes lp
  let n := match Varint.decode txEnvelopeBytes with
    | some (_, n) => n
    | none => 0
  ofExcept (getEnvelopeFromBlock (txEnvelopeBytes.drop n))

/-- `math.MaxUint64`, which `retrieveBlockByNumber` reads as the last block. -/
def maxUint64 : Nat := 2 ^ 64 - 1

def retrieveBlockByNumber (mgr : BlockfileMgr) (blockNum : Nat) : Run Block := do
  let blockNum := if blockNum = maxUint64 then mgr.bcInfo.height - 1 else blockNum
  let loc ← ofExcept (mgr.index.getBlockLocByBlockNum blockNum)
  fetchBlock getOrComputeTxIDFromEnvelope mgr loc

def retrieveBlockByHash (mgr : BlockfileMgr) (blockHash : Bytes) : Run Block := do
  let loc ← ofExcept (mgr.index.getBlockLocByHash blockHash)
  fetchBlock getOrComputeTxIDFromEnvelope mgr loc

def retrieveTransactionByBlockNumTranNum {Envelope : Type}
    (getEnvelopeFromBlock : Bytes → Except String Envelope) (mgr : BlockfileMgr)
    (blockNum tranNum : Nat) : Run Envelope := do
  let loc ← ofExcept (mgr.index.getTXLocByBlockNumTranNum blockNum tranNum)
  fetchTransactionEnvelope getEnvelopeFromBlock mgr loc

def retrieveTxValidationCodeByTxID (mgr : BlockfileMgr) (txID : String) : Run (UInt8 × Nat) :=
  ofExcept (mgr.index.getTxValidationCodeByTxID txID)

def retrieveBlockHeaderByNumber (mgr : BlockfileMgr) (blockNum : Nat) : Run BlockHeader := do
  let loc ← ofExcept (mgr.index.getBlockLocByBlockNum blockNum)
  let blockBytes ← mgr.fetchBlockBytes loc
  let info ← ofExcept (extractSerializedBlockInfo getOrComputeTxIDFromEnvelope blockBytes)
  pure info.blockHeader

end

end BlockfileMgr

/-! ## Restart -/

section

variable (getOrComputeTxIDFromEnvelope : Bytes → String) (blockHeaderHash : BlockHeader → Bytes)

def retrieveFirstBlockNumFromFile (files : List Bytes) (rootDir : String) (fileNum : Nat) :
    Run Nat := do
  let file ← openBlockfile files rootDir fileNum
  let next ← nextBlockBytesAndPlacementInfo file fileNum 0
  let blockInfo ← ofExcept (extractSerializedBlockInfo getOrComputeTxIDFromEnvelope
    ((next.map (·.1)).getD []))
  pure blockInfo.blockHeader.number

def indexStreamedBlock (index : BlockIndex) (streamed : Bytes × BlockPlacementInfo) :
    Run BlockIndex := do
  let (blockBytes, blockPlacementInfo) := streamed
  let info ← ofExcept (extractSerializedBlockInfo getOrComputeTxIDFromEnvelope blockBytes)
  let numBytesToShift := blockPlacementInfo.blockBytesOffset - blockPlacementInfo.blockStartOffset
  index.indexBlock ⟨info.blockHeader.number, blockHeaderHash info.blockHeader,
    ⟨blockPlacementInfo.fileNum, blockPlacementInfo.blockStartOffset, 0⟩,
    shiftTxOffsets info.txOffsets numBytesToShift, info.metadata⟩

/-- `syncIndex`: the index after the blocks that the files hold past its save point are added. -/
def syncIndex (mgr : BlockfileMgr) : Run BlockIndex := do
  let index := mgr.index
  let lastBlockIndexed := index.getLastBlockIndexed.toOption
  let nextIndexableBlock := (lastBlockIndexed.map (· + 1)).getD 0
  let lastBlockIndexed := lastBlockIndexed.getD 0
  if mgr.blockfilesInfo.noBlockFiles then pure index
  else if nextIndexableBlock = mgr.blockfilesInfo.lastPersistedBlock + 1 then pure index
  else do
    let endFileNum := mgr.blockfilesInfo.latestFileNumber
    let firstAvailableBlkNum ←
      retrieveFirstBlockNumFromFile getOrComputeTxIDFromEnvelope mgr.disk.files mgr.rootDir 0
    let (startFileNum, startOffset, skipFirstBlock) ←
      if firstAvailableBlkNum < nextIndexableBlock then do
        let flp ← ofExcept (index.getBlockLocByBlockNum lastBlockIndexed)
        pure (flp.fileSuffixNum, flp.offset, true)
      else pure (0, 0, false)
    let _ ← openBlockfile mgr.disk.files mgr.rootDir startFileNum
    let (blocks, stop) :=
      streamBlocks mgr.disk.files mgr.rootDir (endFileNum - startFileNum) startFileNum startOffset
    let blocks ← if skipFirstBlock then
        match blocks, stop with
        | [], some fault => .error fault
        | [], none => .error (.error ("block bytes for block num = [" ++ toString lastBlockIndexed ++
            "] should not be nil here. The indexes for the block are already present"))
        | _ :: blocks, _ => pure blocks
      else pure blocks
    let index ← blocks.foldlM (indexStreamedBlock getOrComputeTxIDFromEnvelope blockHeaderHash) index
    match stop with
    | some fault => .error fault
    | none => pure index

def syncBlockfilesInfoFromFS (files : List Bytes) (rootDir : String)
    (blkfilesInfo : BlockfilesInfo) : Run BlockfilesInfo :=
  match files[blkfilesInfo.latestFileNumber]? with
  | none => pure blkfilesInfo
  | some file =>
    if file.length = blkfilesInfo.latestFileSize then pure blkfilesInfo
    else do
      let (_, endOffsetLastBlock, numBlocks) ←
        panicOnError "Could not open current file for detecting last block in the file"
          (scanForLastCompleteBlock files rootDir blkfilesInfo.latestFileNumber
            blkfilesInfo.latestFileSize)
      let blkfilesInfo := { blkfilesInfo with latestFileSize := endOffsetLastBlock }
      if numBlocks = 0 then pure blkfilesInfo
      else pure { blkfilesInfo with
        lastPersistedBlock := if blkfilesInfo.noBlockFiles then numBlocks - 1
          else blkfilesInfo.lastPersistedBlock + numBlocks
        noBlockFiles := false }

/-- `constructBlockfilesInfo`: the info rebuilt from the last file, or from the one before it when
the last holds no complete block. -/
def constructBlockfilesInfo (files : List Bytes) (rootDir : String) : Run BlockfilesInfo :=
  if files = [] then pure ⟨0, 0, true, 0⟩
  else do
    let lastFileNum := files.length - 1
    let (lastBlockBytes, endOffsetLastBlock, numBlocksInFile) ←
      scanForLastCompleteBlock files rootDir lastFileNum 0
    let lastBlockBytes ← if numBlocksInFile = 0 ∧ 0 < lastFileNum then do
        let (lastBlockBytes, _, _) ← scanForLastCompleteBlock files rootDir (lastFileNum - 1) 0
        pure lastBlockBytes
      else pure lastBlockBytes
    let lastBlockNumber ← match lastBlockBytes with
      | some lastBlockBytes => do
        let lastBlock ← ofExcept (deserializeBlock getOrComputeTxIDFromEnvelope lastBlockBytes)
        pure lastBlock.header.number
      | none => pure 0
    pure ⟨lastFileNum, endOffsetLastBlock, decide (lastFileNum = 0 ∧ numBlocksInFile = 0),
      lastBlockNumber⟩

/-- The first statements of `newBlockfileMgr`: the saved `blockfilesInfo` brought up to date with
the files, or the one rebuilt from them when none is saved. -/
def recoverBlockfilesInfo (rootDir : String) (disk : Disk) : Run BlockfilesInfo :=
  match disk.blkfilesInfo with
  | none => panicOnError "Could not build blockfilesInfo info from block files"
      (constructBlockfilesInfo getOrComputeTxIDFromEnvelope disk.files rootDir)
  | some blockfilesInfo => syncBlockfilesInfoFromFS disk.files rootDir blockfilesInfo

def newBlockfileMgr (rootDir : String) (maxBlockfileSize : Nat) (attrsToIndex : List IndexableAttr)
    (disk : Disk) : Run BlockfileMgr := do
  let blockfilesInfo ← recoverBlockfilesInfo getOrComputeTxIDFromEnvelope rootDir disk
  let latest := blockfilesInfo.latestFileNumber
  let files := truncateBlockfile (createBlockfile disk.files latest) latest
    blockfilesInfo.latestFileSize
  let mgr : BlockfileMgr := ⟨rootDir, maxBlockfileSize, attrsToIndex,
    { disk with files, blkfilesInfo := some blockfilesInfo }, blockfilesInfo, ⟨0, [], []⟩⟩
  let index ← syncIndex getOrComputeTxIDFromEnvelope blockHeaderHash mgr
  let mgr := { mgr with disk := { mgr.disk with index := index.db } }
  if blockfilesInfo.noBlockFiles then pure mgr
  else do
    let lastBlockHeader ← panicOnError "Could not retrieve header of the last block form file"
      (mgr.retrieveBlockHeaderByNumber getOrComputeTxIDFromEnvelope
        blockfilesInfo.lastPersistedBlock)
    pure { mgr with bcInfo := ⟨blockfilesInfo.lastPersistedBlock + 1, blockHeaderHash lastBlockHeader,
      lastBlockHeader.previousHash⟩ }

end

end FabricPeer.Blkstorage
