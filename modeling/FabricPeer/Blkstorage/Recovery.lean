import FabricPeer.Blkstorage.BlockfileMgr

/-! # Restarting the block store

A restart after a clean stop finds the saved `blockfilesInfo` in agreement with the files, and
`syncIndex` has nothing to read unless the index lags behind the files. When it does, it first
reads the number of the first block of file 0. That file is empty when the very first block was
too large for it: `addBlock` then moved to file 1 before writing anything, so a restart that has
to rebuild the index fails. The same rollover also leaves a crash between the append and the
unsynced save of the new `blockfilesInfo` recovered as two blocks: the info that
`moveToNextFile` saved says that block 0 is already persisted (`noBlockFiles` is false), and
`syncBlockfilesInfoFromFS` adds the block it finds in file 1 on top of it.
-/

namespace FabricPeer.Blkstorage

open FabricPeer.Ledger GoRun

set_option autoImplicit false

/-! ## Files -/

theorem createBlockfile_of_lt {files : List Bytes} {fileNum : Nat} (h : fileNum < files.length) :
    createBlockfile files fileNum = files := if_pos h

theorem createBlockfile_length (files : List Bytes) :
    createBlockfile files files.length = files ++ [[]] := by
  simp [createBlockfile]

theorem truncateBlockfile_of_length {files : List Bytes} {fileNum size : Nat}
    (h : (files[fileNum]?).map List.length = some size) :
    truncateBlockfile files fileNum size = files := by
  obtain ⟨file, hFile, rfl⟩ : ∃ file, files[fileNum]? = some file ∧ file.length = size := by
    simpa using h
  apply List.ext_getElem?
  intro j
  rw [truncateBlockfile, List.getElem?_modify]
  by_cases hj : fileNum = j
  · subst hj
    simp [hFile]
  · simp [hj]

theorem appendBlockfile_appendBlockfile (files : List Bytes) (fileNum : Nat) (a b : Bytes) :
    appendBlockfile (appendBlockfile files fileNum a) fileNum b =
      appendBlockfile files fileNum (a ++ b) := by
  simp only [appendBlockfile, List.modify_modify_eq]
  congr 1
  funext file
  simp

/-- The bytes a block takes in a block file: its length, then itself. -/
def blockRecord (blockBytes : Bytes) : Bytes := Varint.encode blockBytes.length ++ blockBytes

/-! ## Reading a record back -/

theorem nextBlockBytesAndPlacementInfo_of_end (file : Bytes) (fileNum : Nat) :
    nextBlockBytesAndPlacementInfo file fileNum file.length = .ok none := by
  simp [nextBlockBytesAndPlacementInfo]

theorem nextBlockBytesAndPlacementInfo_of_record {file blockBytes rest : Bytes}
    (fileNum : Nat) {offset : Nat} (hLength : blockBytes.length < 2 ^ 56)
    (hFile : file.drop offset = blockRecord blockBytes ++ rest) :
    nextBlockBytesAndPlacementInfo file fileNum offset = .ok (some (blockBytes,
      ⟨fileNum, offset, offset + (Varint.encode blockBytes.length).length⟩)) := by
  have hEncoded : (Varint.encode blockBytes.length).length ≤ 8 :=
    Varint.length_encode_le (by decide) (by simpa using hLength)
  have hOne := Varint.one_le_length_encode blockBytes.length
  have hRemaining : file.length - offset =
      (Varint.encode blockBytes.length).length + blockBytes.length + rest.length := by
    have := congrArg List.length hFile
    simpa [blockRecord, Nat.add_assoc] using this
  have hPeek : (file.drop offset).take (min 8 (file.length - offset)) =
      Varint.encode blockBytes.length ++ (blockBytes ++ rest).take
        (min 8 (file.length - offset) - (Varint.encode blockBytes.length).length) := by
    rw [hFile, blockRecord, List.append_assoc, List.take_append,
      List.take_of_length_le (by omega)]
  have hBytes : file.drop (offset + (Varint.encode blockBytes.length).length) =
      blockBytes ++ rest := by
    apply drop_add_length_of_drop
    rw [hFile, blockRecord, List.append_assoc]
  unfold nextBlockBytesAndPlacementInfo
  rw [if_neg (by omega), if_neg (by omega)]
  dsimp only
  rw [hPeek, Varint.decode_encode_append]
  dsimp only
  rw [if_neg (by omega), hBytes, List.take_left]

theorem readBlocks_of_end (file : Bytes) (fileNum : Nat) :
    readBlocks file fileNum file.length = ([], none, file.length) := by
  rw [readBlocks]
  split
  · rename_i h
    simp [nextBlockBytesAndPlacementInfo_of_end] at h
  · rfl
  · rename_i h
    simp [nextBlockBytesAndPlacementInfo_of_end] at h

theorem readBlocks_of_record {file blockBytes rest : Bytes} {fileNum offset : Nat}
    (hLength : blockBytes.length < 2 ^ 56)
    (hFile : file.drop offset = blockRecord blockBytes ++ rest) :
    readBlocks file fileNum offset =
      ((blockBytes, ⟨fileNum, offset, offset + (Varint.encode blockBytes.length).length⟩) ::
        (readBlocks file fileNum (offset + (blockRecord blockBytes).length)).1,
        (readBlocks file fileNum (offset + (blockRecord blockBytes).length)).2) := by
  have hNext := nextBlockBytesAndPlacementInfo_of_record fileNum hLength hFile
  rw [readBlocks]
  split
  · rename_i h
    rw [hNext] at h
    cases h
  · rename_i h
    rw [hNext] at h
    cases h
  · rename_i blockBytes' info h
    rw [hNext] at h
    simp only [Except.ok.injEq, Option.some.injEq, Prod.mk.injEq] at h
    obtain ⟨rfl, rfl⟩ := h
    simp [blockRecord, Nat.add_assoc]

/-! ## What `addBlock` does to the manager -/

def BlockfileMgr.appendRecord (mgr : BlockfileMgr) (blockBytes : Bytes) : BlockfileMgr :=
  { mgr with disk := { mgr.disk with
    files := appendBlockfile mgr.disk.files mgr.blockfilesInfo.latestFileNumber
      (blockRecord blockBytes) } }

def BlockfileMgr.rollover (mgr : BlockfileMgr) (totalBytesToAppend : Nat) : BlockfileMgr :=
  if mgr.maxBlockfileSize < mgr.blockfilesInfo.latestFileSize + totalBytesToAppend then
    mgr.moveToNextFile
  else mgr

@[simp] theorem appendRecord_blockfilesInfo (mgr : BlockfileMgr) (blockBytes : Bytes) :
    (mgr.appendRecord blockBytes).blockfilesInfo = mgr.blockfilesInfo := rfl

@[simp] theorem appendRecord_bcInfo (mgr : BlockfileMgr) (blockBytes : Bytes) :
    (mgr.appendRecord blockBytes).bcInfo = mgr.bcInfo := rfl

@[simp] theorem length_blockRecord (blockBytes : Bytes) :
    (blockRecord blockBytes).length = (Varint.encode blockBytes.length).length + blockBytes.length := by
  simp [blockRecord]

section

variable (getOrComputeTxIDFromEnvelope : Bytes → String) (blockHeaderHash : BlockHeader → Bytes)

theorem appendBlock_eq_ok {mgr mgr' : BlockfileMgr} {block : Block} {appended : AppendedBlock}
    (h : mgr.appendBlock getOrComputeTxIDFromEnvelope blockHeaderHash block = .ok (mgr', appended)) :
    ∃ blockBytes, serializeBlock getOrComputeTxIDFromEnvelope block = .ok (blockBytes, appended.info) ∧
      block.header.number = mgr.bcInfo.height ∧ appended.block = block ∧
      appended.totalBytesToAppend = (blockRecord blockBytes).length ∧
      mgr' = (mgr.rollover (blockRecord blockBytes).length).appendRecord blockBytes ∧
      appended.currentOffset = if mgr.maxBlockfileSize <
        mgr.blockfilesInfo.latestFileSize + (blockRecord blockBytes).length then 0
        else mgr.blockfilesInfo.latestFileSize := by
  unfold BlockfileMgr.appendBlock at h
  split at h
  · cases h
  rename_i hNumber
  split at h
  · cases h
  cases hSerialize : serializeBlock getOrComputeTxIDFromEnvelope block with
  | error fault => simp [hSerialize, bind, Except.bind] at h
  | ok result =>
    obtain ⟨blockBytes, info⟩ := result
    simp only [hSerialize, bind, Except.bind, pure, Except.pure] at h
    have hTotal : blockBytes.length + (Varint.encode blockBytes.length).length =
        (blockRecord blockBytes).length := by
      simp [Nat.add_comm]
    split at h
    · rename_i hOverflow
      simp only [Except.ok.injEq, Prod.mk.injEq] at h
      obtain ⟨rfl, rfl⟩ := h
      refine ⟨blockBytes, rfl, by omega, rfl, hTotal, ?_, ?_⟩
      · rw [BlockfileMgr.rollover, if_pos (by omega)]
        simp [BlockfileMgr.appendRecord, appendBlockfile_appendBlockfile, blockRecord]
      · rw [if_pos (by omega)]
    · rename_i hFits
      simp only [Except.ok.injEq, Prod.mk.injEq] at h
      obtain ⟨rfl, rfl⟩ := h
      refine ⟨blockBytes, rfl, by omega, rfl, hTotal, ?_, ?_⟩
      · rw [BlockfileMgr.rollover, if_neg (by omega)]
        simp [BlockfileMgr.appendRecord, appendBlockfile_appendBlockfile, blockRecord]
      · rw [if_neg (by omega)]

theorem commitBlock_eq_ok {mgr mgr' : BlockfileMgr} {appended : AppendedBlock}
    (h : mgr.commitBlock appended = .ok mgr') :
    mgr'.disk.files = mgr.disk.files ∧
      mgr'.blockfilesInfo = ⟨mgr.blockfilesInfo.latestFileNumber,
        mgr.blockfilesInfo.latestFileSize + appended.totalBytesToAppend, false,
        appended.block.header.number⟩ ∧
      mgr'.disk.blkfilesInfo = some mgr'.blockfilesInfo ∧
      mgr'.bcInfo.height = mgr.bcInfo.height + 1 := by
  unfold BlockfileMgr.commitBlock at h
  simp only [bind, Except.bind, pure, Except.pure] at h
  split at h
  · cases h
  · simp only [Except.ok.injEq] at h
    subst h
    exact ⟨rfl, rfl, rfl, rfl⟩

end

/-! ## The saved info agrees with the files -/

structure InSync (mgr : BlockfileMgr) : Prop where
  saved : mgr.disk.blkfilesInfo = some mgr.blockfilesInfo
  filesLength : mgr.disk.files.length = mgr.blockfilesInfo.latestFileNumber + 1
  latestSize : (mgr.disk.files[mgr.blockfilesInfo.latestFileNumber]?).map List.length =
    some mgr.blockfilesInfo.latestFileSize

theorem InSync.moveToNextFile {mgr : BlockfileMgr} (hSync : InSync mgr) :
    InSync mgr.moveToNextFile := by
  have hFiles : createBlockfile mgr.disk.files (mgr.blockfilesInfo.latestFileNumber + 1) =
      mgr.disk.files ++ [[]] := by
    rw [← hSync.filesLength, createBlockfile_length]
  have hNew : mgr.moveToNextFile.disk.files[mgr.blockfilesInfo.latestFileNumber + 1]? = some [] := by
    rw [BlockfileMgr.moveToNextFile_disk]
    dsimp only
    have hLength := hSync.filesLength
    rw [hFiles, List.getElem?_append_right (by omega), hLength]
    simp
  constructor
  · rfl
  · simp [hFiles, hSync.filesLength]
  · show (mgr.moveToNextFile.disk.files[mgr.blockfilesInfo.latestFileNumber + 1]?).map List.length =
      some 0
    rw [hNew]
    rfl

theorem InSync.rollover {mgr : BlockfileMgr} (hSync : InSync mgr) (totalBytesToAppend : Nat) :
    InSync (mgr.rollover totalBytesToAppend) := by
  unfold BlockfileMgr.rollover
  split
  · exact hSync.moveToNextFile
  · exact hSync

theorem rollover_files_of_lt {mgr : BlockfileMgr} (hSync : InSync mgr) (totalBytesToAppend : Nat)
    {j : Nat} (hj : j ≤ mgr.blockfilesInfo.latestFileNumber) :
    (mgr.rollover totalBytesToAppend).disk.files[j]? = mgr.disk.files[j]? := by
  unfold BlockfileMgr.rollover
  split
  · rw [BlockfileMgr.moveToNextFile_disk]
    dsimp only
    have hLength := hSync.filesLength
    rw [← hLength, createBlockfile_length, List.getElem?_append_left (by omega)]
  · rfl

theorem le_rollover_latestFileNumber (mgr : BlockfileMgr) (totalBytesToAppend : Nat) :
    mgr.blockfilesInfo.latestFileNumber ≤
      (mgr.rollover totalBytesToAppend).blockfilesInfo.latestFileNumber := by
  unfold BlockfileMgr.rollover
  split
  · simp
  · exact Nat.le_refl _

theorem rollover_latestFileNumber_of_lt {mgr : BlockfileMgr} {totalBytesToAppend : Nat}
    (hOverflow : mgr.maxBlockfileSize < mgr.blockfilesInfo.latestFileSize + totalBytesToAppend) :
    (mgr.rollover totalBytesToAppend).blockfilesInfo.latestFileNumber =
      mgr.blockfilesInfo.latestFileNumber + 1 := by
  rw [BlockfileMgr.rollover, if_pos hOverflow]
  rfl

@[simp] theorem rollover_bcInfo (mgr : BlockfileMgr) (totalBytesToAppend : Nat) :
    (mgr.rollover totalBytesToAppend).bcInfo = mgr.bcInfo := by
  unfold BlockfileMgr.rollover
  split <;> rfl

theorem appendRecord_files {mgr : BlockfileMgr} (blockBytes : Bytes) (j : Nat) :
    (mgr.appendRecord blockBytes).disk.files[j]? =
      if j = mgr.blockfilesInfo.latestFileNumber then
        (mgr.disk.files[j]?).map (· ++ blockRecord blockBytes)
      else mgr.disk.files[j]? := by
  simp only [BlockfileMgr.appendRecord, appendBlockfile, List.getElem?_modify]
  split
  · simp [*]
  · rename_i hj
    simp [Ne.symm hj]

section

variable (getOrComputeTxIDFromEnvelope : Bytes → String) (blockHeaderHash : BlockHeader → Bytes)

theorem addBlock_eq_ok {mgr mgr' : BlockfileMgr} {block : Block}
    (h : mgr.addBlock getOrComputeTxIDFromEnvelope blockHeaderHash block = .ok mgr') :
    ∃ blockBytes info, serializeBlock getOrComputeTxIDFromEnvelope block = .ok (blockBytes, info) ∧
      block.header.number = mgr.bcInfo.height ∧
      mgr'.disk.files =
        ((mgr.rollover (blockRecord blockBytes).length).appendRecord blockBytes).disk.files ∧
      mgr'.blockfilesInfo =
        ⟨(mgr.rollover (blockRecord blockBytes).length).blockfilesInfo.latestFileNumber,
          (mgr.rollover (blockRecord blockBytes).length).blockfilesInfo.latestFileSize +
            (blockRecord blockBytes).length, false, block.header.number⟩ ∧
      mgr'.disk.blkfilesInfo = some mgr'.blockfilesInfo ∧
      mgr'.bcInfo.height = mgr.bcInfo.height + 1 := by
  obtain ⟨⟨appendedMgr, appended⟩, hAppend, hCommit⟩ := (bind_eq_ok _ _ _).mp h
  obtain ⟨blockBytes, hSerialize, hNumber, hBlock, hTotal, rfl, -⟩ :=
    appendBlock_eq_ok getOrComputeTxIDFromEnvelope blockHeaderHash hAppend
  obtain ⟨hFiles, hInfo, hSaved, hHeight⟩ := commitBlock_eq_ok hCommit
  refine ⟨blockBytes, appended.info, hSerialize, hNumber, hFiles, ?_, hSaved, ?_⟩
  · rw [hInfo, hTotal, hBlock]
    rfl
  · rw [hHeight, appendRecord_bcInfo, rollover_bcInfo]

theorem InSync.addBlock {mgr mgr' : BlockfileMgr} {block : Block} (hSync : InSync mgr)
    (h : mgr.addBlock getOrComputeTxIDFromEnvelope blockHeaderHash block = .ok mgr') :
    InSync mgr' := by
  obtain ⟨blockBytes, -, -, -, hFiles, hInfo, hSaved, -⟩ :=
    addBlock_eq_ok getOrComputeTxIDFromEnvelope blockHeaderHash h
  have hMoved := hSync.rollover (blockRecord blockBytes).length
  refine ⟨hSaved, ?_, ?_⟩
  · rw [hFiles, hInfo]
    simpa [BlockfileMgr.appendRecord, appendBlockfile] using hMoved.filesLength
  · rw [hFiles, hInfo]
    dsimp only
    rw [appendRecord_files, if_pos rfl, Option.map_map]
    have hLatest := hMoved.latestSize
    rw [show (List.length ∘ (· ++ blockRecord blockBytes)) =
      (· + (blockRecord blockBytes).length) ∘ List.length by funext; simp]
    rw [← Option.map_map, hLatest]
    rfl

end

/-! ## A clean restart -/

theorem syncBlockfilesInfoFromFS_of_size {files : List Bytes} {rootDir : String}
    {blkfilesInfo : BlockfilesInfo}
    (h : (files[blkfilesInfo.latestFileNumber]?).map List.length = some blkfilesInfo.latestFileSize) :
    syncBlockfilesInfoFromFS files rootDir blkfilesInfo = .ok blkfilesInfo := by
  obtain ⟨file, hFile, hSize⟩ : ∃ file, files[blkfilesInfo.latestFileNumber]? = some file ∧
      file.length = blkfilesInfo.latestFileSize := by
    simpa using h
  simp [syncBlockfilesInfoFromFS, hFile, hSize, pure, Except.pure]

section

variable (getOrComputeTxIDFromEnvelope : Bytes → String) (blockHeaderHash : BlockHeader → Bytes)

theorem recoverBlockfilesInfo_of_inSync {mgr : BlockfileMgr} (hSync : InSync mgr)
    (rootDir : String) (index : IndexDb) :
    recoverBlockfilesInfo getOrComputeTxIDFromEnvelope rootDir { mgr.disk with index } =
      .ok mgr.blockfilesInfo := by
  simp only [recoverBlockfilesInfo, hSync.saved]
  exact syncBlockfilesInfoFromFS_of_size hSync.latestSize

theorem newBlockfileMgr_empty (rootDir : String) (maxBlockfileSize : Nat)
    (attrsToIndex : List IndexableAttr) :
    newBlockfileMgr getOrComputeTxIDFromEnvelope blockHeaderHash rootDir maxBlockfileSize
        attrsToIndex .empty =
      .ok ⟨rootDir, maxBlockfileSize, attrsToIndex, ⟨[[]], some ⟨0, 0, true, 0⟩, .empty⟩,
        ⟨0, 0, true, 0⟩, ⟨0, [], []⟩⟩ := rfl

theorem retrieveFirstBlockNumFromFile_of_empty {files : List Bytes} (rootDir : String)
    {fileNum : Nat} (h : files[fileNum]? = some []) :
    retrieveFirstBlockNumFromFile getOrComputeTxIDFromEnvelope files rootDir fileNum =
      .error (.error
        "error decoding the block number: error decoding varint with proto.Buffer: unexpected EOF") := by
  simp only [retrieveFirstBlockNumFromFile, openBlockfile, openFile, h, errorsWrap, GoRun.ofExcept,
    bind, Except.bind]
  rfl

theorem syncIndex_of_first_file_empty (mgr : BlockfileMgr) (hEmpty : mgr.disk.files[0]? = some [])
    (hBlocks : mgr.blockfilesInfo.noBlockFiles = false)
    (hBehind : ∀ k, mgr.disk.index.savePoint = some k → k < mgr.blockfilesInfo.lastPersistedBlock) :
    syncIndex getOrComputeTxIDFromEnvelope blockHeaderHash mgr = .error (.error
      "error decoding the block number: error decoding varint with proto.Buffer: unexpected EOF") := by
  have hFirst := retrieveFirstBlockNumFromFile_of_empty getOrComputeTxIDFromEnvelope
    mgr.rootDir hEmpty
  have hRebuild : (mgr.index.db.savePoint.map (· + 1)).getD 0 ≠
      mgr.blockfilesInfo.lastPersistedBlock + 1 := by
    cases hSave : mgr.index.db.savePoint with
    | none => simp
    | some k =>
      have := hBehind k hSave
      simp only [Option.map_some, Option.getD_some]
      omega
  unfold syncIndex
  simp only [hBlocks, Bool.false_eq_true, if_false, BlockIndex.getLastBlockIndexed_toOption]
  rw [if_neg hRebuild, hFirst]
  rfl

theorem newBlockfileMgr_of_first_file_empty {disk : Disk} {blkfilesInfo : BlockfilesInfo}
    (rootDir : String) (maxBlockfileSize : Nat) (attrsToIndex : List IndexableAttr)
    (hRecover : recoverBlockfilesInfo getOrComputeTxIDFromEnvelope rootDir disk = .ok blkfilesInfo)
    (hEmpty : disk.files[0]? = some [])
    (hLatest : (disk.files[blkfilesInfo.latestFileNumber]?).map List.length =
      some blkfilesInfo.latestFileSize)
    (hBlocks : blkfilesInfo.noBlockFiles = false)
    (hBehind : ∀ k, disk.index.savePoint = some k → k < blkfilesInfo.lastPersistedBlock) :
    newBlockfileMgr getOrComputeTxIDFromEnvelope blockHeaderHash rootDir maxBlockfileSize
        attrsToIndex disk = .error (.error
      "error decoding the block number: error decoding varint with proto.Buffer: unexpected EOF") := by
  have hExists : blkfilesInfo.latestFileNumber < disk.files.length := by
    obtain ⟨file, hFile, -⟩ : ∃ file, disk.files[blkfilesInfo.latestFileNumber]? = some file ∧
        file.length = blkfilesInfo.latestFileSize := by
      simpa using hLatest
    exact (List.getElem?_eq_some_iff.mp hFile).1
  have hFiles : truncateBlockfile (createBlockfile disk.files blkfilesInfo.latestFileNumber)
      blkfilesInfo.latestFileNumber blkfilesInfo.latestFileSize = disk.files := by
    rw [createBlockfile_of_lt hExists, truncateBlockfile_of_length hLatest]
  unfold newBlockfileMgr
  rw [hRecover]
  simp only [bind, Except.bind]
  rw [hFiles, syncIndex_of_first_file_empty getOrComputeTxIDFromEnvelope blockHeaderHash
    ⟨rootDir, maxBlockfileSize, attrsToIndex, ⟨disk.files, some blkfilesInfo, disk.index⟩,
      blkfilesInfo, ⟨0, [], []⟩⟩ hEmpty hBlocks hBehind]

end

/-! ## A first block larger than a file -/

structure FirstFileEmpty (mgr : BlockfileMgr) : Prop extends InSync mgr where
  firstEmpty : mgr.disk.files[0]? = some []
  latestPos : 0 < mgr.blockfilesInfo.latestFileNumber
  hasBlocks : mgr.blockfilesInfo.noBlockFiles = false
  persisted : mgr.blockfilesInfo.lastPersistedBlock + 1 = mgr.bcInfo.height

section

variable (getOrComputeTxIDFromEnvelope : Bytes → String) (blockHeaderHash : BlockHeader → Bytes)

theorem firstFileEmpty_of_addBlock {mgr mgr' : BlockfileMgr} {block : Block} (hSync : InSync mgr)
    (hFirst : mgr.disk.files[0]? = some [])
    (h : mgr.addBlock getOrComputeTxIDFromEnvelope blockHeaderHash block = .ok mgr')
    (hPast : 0 < mgr'.blockfilesInfo.latestFileNumber) :
    FirstFileEmpty mgr' := by
  obtain ⟨blockBytes, -, -, hNumber, hFiles, hInfo, -, hHeight⟩ :=
    addBlock_eq_ok getOrComputeTxIDFromEnvelope blockHeaderHash h
  have hLatest : mgr'.blockfilesInfo.latestFileNumber =
      (mgr.rollover (blockRecord blockBytes).length).blockfilesInfo.latestFileNumber := by
    rw [hInfo]
  refine ⟨hSync.addBlock getOrComputeTxIDFromEnvelope blockHeaderHash h, ?_, hPast, ?_, ?_⟩
  · rw [hFiles, appendRecord_files, if_neg (by omega),
      rollover_files_of_lt hSync _ (Nat.zero_le _), hFirst]
  · rw [hInfo]
  · rw [hInfo, hHeight, hNumber]

theorem FirstFileEmpty.addBlock {mgr mgr' : BlockfileMgr} {block : Block} (hInv : FirstFileEmpty mgr)
    (h : mgr.addBlock getOrComputeTxIDFromEnvelope blockHeaderHash block = .ok mgr') :
    FirstFileEmpty mgr' ∧ mgr'.bcInfo.height = mgr.bcInfo.height + 1 := by
  obtain ⟨blockBytes, -, -, -, -, hInfo, -, hHeight⟩ :=
    addBlock_eq_ok getOrComputeTxIDFromEnvelope blockHeaderHash h
  have hPast : 0 < mgr'.blockfilesInfo.latestFileNumber := by
    rw [hInfo]
    exact Nat.lt_of_lt_of_le hInv.latestPos (le_rollover_latestFileNumber _ _)
  exact ⟨firstFileEmpty_of_addBlock getOrComputeTxIDFromEnvelope blockHeaderHash
    hInv.toInSync hInv.firstEmpty h hPast, hHeight⟩

theorem FirstFileEmpty.foldlM_addBlock (blocks : List Block) {mgr mgr' : BlockfileMgr}
    (hInv : FirstFileEmpty mgr)
    (hRun : blocks.foldlM (BlockfileMgr.addBlock getOrComputeTxIDFromEnvelope blockHeaderHash) mgr =
      .ok mgr') :
    FirstFileEmpty mgr' ∧ mgr'.bcInfo.height = mgr.bcInfo.height + blocks.length := by
  induction blocks generalizing mgr with
  | nil =>
    simp only [List.foldlM_nil, pure, Except.pure, Except.ok.injEq] at hRun
    subst hRun
    exact ⟨hInv, rfl⟩
  | cons block blocks ih =>
    rw [List.foldlM_cons] at hRun
    obtain ⟨mgrNext, hStep, hRest⟩ := (bind_eq_ok _ _ _).mp hRun
    obtain ⟨hInvNext, hHeightNext⟩ := hInv.addBlock getOrComputeTxIDFromEnvelope blockHeaderHash hStep
    obtain ⟨hInv', hHeight'⟩ := ih hInvNext hRest
    refine ⟨hInv', ?_⟩
    rw [hHeight', hHeightNext, List.length_cons]
    omega

theorem firstFileEmpty_of_first_block {rootDir : String} {maxBlockfileSize : Nat}
    {attrsToIndex : List IndexableAttr} {first : Block} {mgr : BlockfileMgr}
    {firstBytes : Bytes} {firstInfo : SerializedBlockInfo}
    (hSerialize : serializeBlock getOrComputeTxIDFromEnvelope first = .ok (firstBytes, firstInfo))
    (hOverflow : maxBlockfileSize < (blockRecord firstBytes).length)
    (h : BlockfileMgr.addBlock getOrComputeTxIDFromEnvelope blockHeaderHash
      ⟨rootDir, maxBlockfileSize, attrsToIndex, ⟨[[]], some ⟨0, 0, true, 0⟩, .empty⟩,
        ⟨0, 0, true, 0⟩, ⟨0, [], []⟩⟩ first = .ok mgr) :
    FirstFileEmpty mgr := by
  have hSync : InSync ⟨rootDir, maxBlockfileSize, attrsToIndex, ⟨[[]], some ⟨0, 0, true, 0⟩, .empty⟩,
      ⟨0, 0, true, 0⟩, ⟨0, [], []⟩⟩ := ⟨rfl, rfl, rfl⟩
  apply firstFileEmpty_of_addBlock getOrComputeTxIDFromEnvelope blockHeaderHash hSync rfl h
  obtain ⟨blockBytes, info, hSerialize', -, -, hInfo, -, -⟩ :=
    addBlock_eq_ok getOrComputeTxIDFromEnvelope blockHeaderHash h
  rw [hSerialize] at hSerialize'
  obtain ⟨rfl, -⟩ := Prod.mk.inj (Except.ok.inj hSerialize')
  rw [hInfo]
  dsimp only
  rw [rollover_latestFileNumber_of_lt (by simpa using hOverflow)]
  omega

end

section

variable (getOrComputeTxIDFromEnvelope : Bytes → String) (blockHeaderHash : BlockHeader → Bytes)

theorem newBlockfileMgr_fails_after_first_block_overflow (rootDir : String) (maxBlockfileSize : Nat)
    (attrsToIndex : List IndexableAttr) (first : Block) (blocks : List Block) (mgr : BlockfileMgr)
    (hRun : (do
      let mgr ← newBlockfileMgr getOrComputeTxIDFromEnvelope blockHeaderHash rootDir
        maxBlockfileSize attrsToIndex .empty
      (first :: blocks).foldlM (BlockfileMgr.addBlock getOrComputeTxIDFromEnvelope blockHeaderHash)
        mgr) = .ok mgr)
    (firstBytes : Bytes) (firstInfo : SerializedBlockInfo)
    (hSerialize : serializeBlock getOrComputeTxIDFromEnvelope first = .ok (firstBytes, firstInfo))
    (hOverflow : maxBlockfileSize < (Varint.encode firstBytes.length).length + firstBytes.length)
    (index : IndexDb) (hBehind : ∀ k, index.savePoint = some k → k < blocks.length) :
    newBlockfileMgr getOrComputeTxIDFromEnvelope blockHeaderHash rootDir maxBlockfileSize
        attrsToIndex { mgr.disk with index } = .error (.error
      "error decoding the block number: error decoding varint with proto.Buffer: unexpected EOF") := by
  rw [newBlockfileMgr_empty, bind_ok, List.foldlM_cons] at hRun
  obtain ⟨mgrFirst, hFirst, hRest⟩ := (bind_eq_ok _ _ _).mp hRun
  have hInvFirst := firstFileEmpty_of_first_block getOrComputeTxIDFromEnvelope blockHeaderHash
    hSerialize (by simpa using hOverflow) hFirst
  obtain ⟨-, -, -, -, -, -, -, hHeightFirst⟩ :=
    addBlock_eq_ok getOrComputeTxIDFromEnvelope blockHeaderHash hFirst
  obtain ⟨hInv, hHeight⟩ := hInvFirst.foldlM_addBlock getOrComputeTxIDFromEnvelope blockHeaderHash
    blocks hRest
  have hLast : mgr.blockfilesInfo.lastPersistedBlock = blocks.length := by
    have := hInv.persisted
    simp only at hHeightFirst
    omega
  exact newBlockfileMgr_of_first_file_empty getOrComputeTxIDFromEnvelope blockHeaderHash rootDir
    maxBlockfileSize attrsToIndex (recoverBlockfilesInfo_of_inSync getOrComputeTxIDFromEnvelope
      hInv.toInSync rootDir index) hInv.firstEmpty hInv.latestSize hInv.hasBlocks
    (fun k hk => hLast ▸ hBehind k hk)

end

def genesisBlock : Block := ⟨⟨0, [], []⟩, [], some [[], [], []]⟩

theorem newBlockfileMgr_fails_after_genesis_overflow :
    newBlockfileMgr (fun _ => "") (fun _ => []) "ledger" 4 [] ⟨[[], [8, 0, 0, 0, 0, 3, 0, 0, 0]],
        some ⟨1, 9, false, 0⟩, .empty⟩ = .error (.error
      "error decoding the block number: error decoding varint with proto.Buffer: unexpected EOF") :=
  newBlockfileMgr_fails_after_first_block_overflow (fun _ => "") (fun _ => []) "ledger" 4 []
    genesisBlock [] ⟨"ledger", 4, [], ⟨[[], [8, 0, 0, 0, 0, 3, 0, 0, 0]], some ⟨1, 9, false, 0⟩, .empty⟩,
      ⟨1, 9, false, 0⟩, ⟨1, [], []⟩⟩ rfl [0, 0, 0, 0, 3, 0, 0, 0]
    ⟨⟨0, [], []⟩, [], some [[], [], []]⟩ rfl (by decide) .empty (fun _ h => by cases h)

theorem scanForLastCompleteBlock_of_record {files : List Bytes} (rootDir : String) {fileNum : Nat}
    {blockBytes : Bytes} (hLength : blockBytes.length < 2 ^ 56)
    (hFile : files[fileNum]? = some (blockRecord blockBytes)) :
    scanForLastCompleteBlock files rootDir fileNum 0 =
      .ok (some blockBytes, (blockRecord blockBytes).length, 1) := by
  have hRead : readBlocks (blockRecord blockBytes) fileNum 0 =
      ([(blockBytes, ⟨fileNum, 0, (Varint.encode blockBytes.length).length⟩)], none,
        (blockRecord blockBytes).length) := by
    rw [readBlocks_of_record hLength
      (show (blockRecord blockBytes).drop 0 = blockRecord blockBytes ++ [] by simp)]
    simp only [Nat.zero_add]
    rw [readBlocks_of_end]
  simp only [scanForLastCompleteBlock, openBlockfile, openFile, hFile, errorsWrap, GoRun.ofExcept,
    bind, Except.bind, hRead]
  rfl

section

variable (getOrComputeTxIDFromEnvelope : Bytes → String) (blockHeaderHash : BlockHeader → Bytes)

theorem newBlockfileMgr_recovers_two_blocks_after_first_rollover (rootDir : String)
    (maxBlockfileSize : Nat) (attrsToIndex : List IndexableAttr) (first : Block)
    (crashed : BlockfileMgr) (appended : AppendedBlock)
    (hAppend : (do
      let mgr ← newBlockfileMgr getOrComputeTxIDFromEnvelope blockHeaderHash rootDir
        maxBlockfileSize attrsToIndex .empty
      mgr.appendBlock getOrComputeTxIDFromEnvelope blockHeaderHash first) = .ok (crashed, appended))
    (firstBytes : Bytes) (firstInfo : SerializedBlockInfo)
    (hSerialize : serializeBlock getOrComputeTxIDFromEnvelope first = .ok (firstBytes, firstInfo))
    (hOverflow : maxBlockfileSize < (Varint.encode firstBytes.length).length + firstBytes.length)
    (hLength : firstBytes.length < 2 ^ 56) :
    crashed.disk.files = [[], Varint.encode firstBytes.length ++ firstBytes] ∧
      crashed.disk.blkfilesInfo = some ⟨1, 0, false, 0⟩ ∧
      recoverBlockfilesInfo getOrComputeTxIDFromEnvelope rootDir crashed.disk =
        .ok ⟨1, (Varint.encode firstBytes.length).length + firstBytes.length, false, 1⟩ ∧
      newBlockfileMgr getOrComputeTxIDFromEnvelope blockHeaderHash rootDir maxBlockfileSize
          attrsToIndex crashed.disk = .error (.error
        "error decoding the block number: error decoding varint with proto.Buffer: unexpected EOF") := by
  rw [newBlockfileMgr_empty, bind_ok] at hAppend
  obtain ⟨blockBytes, hSerialize', -, -, -, hCrashed, -⟩ :=
    appendBlock_eq_ok getOrComputeTxIDFromEnvelope blockHeaderHash hAppend
  rw [hSerialize] at hSerialize'
  obtain ⟨rfl, -⟩ := Prod.mk.inj (Except.ok.inj hSerialize')
  have hFiles : crashed.disk.files = [[], blockRecord firstBytes] := by
    rw [hCrashed, BlockfileMgr.rollover, if_pos (by simpa using hOverflow)]
    rfl
  have hSaved : crashed.disk.blkfilesInfo = some ⟨1, 0, false, 0⟩ := by
    rw [hCrashed, BlockfileMgr.rollover, if_pos (by simpa using hOverflow)]
    rfl
  have hScan := scanForLastCompleteBlock_of_record rootDir hLength
    (show crashed.disk.files[1]? = some (blockRecord firstBytes) by rw [hFiles]; rfl)
  have hRecover : recoverBlockfilesInfo getOrComputeTxIDFromEnvelope rootDir crashed.disk =
      .ok ⟨1, (Varint.encode firstBytes.length).length + firstBytes.length, false, 1⟩ := by
    have hNonEmpty : (blockRecord firstBytes).length ≠ 0 := by
      have := Varint.one_le_length_encode firstBytes.length
      simp only [length_blockRecord]
      omega
    simp only [recoverBlockfilesInfo, hSaved]
    unfold syncBlockfilesInfoFromFS
    dsimp only
    rw [show crashed.disk.files[1]? = some (blockRecord firstBytes) by rw [hFiles]; rfl]
    dsimp only
    rw [if_neg hNonEmpty, hScan]
    simp [panicOnError, bind, Except.bind, pure, Except.pure]
  refine ⟨hFiles, hSaved, hRecover, ?_⟩
  apply newBlockfileMgr_of_first_file_empty getOrComputeTxIDFromEnvelope blockHeaderHash rootDir
    maxBlockfileSize attrsToIndex hRecover
  · rw [hFiles]
    rfl
  · rw [hFiles]
    simp
  · rfl
  · intro k hk
    rw [hCrashed, BlockfileMgr.rollover, if_pos (by simpa using hOverflow)] at hk
    cases hk

end

def genesisCrash : BlockfileMgr :=
  ⟨"ledger", 4, [], ⟨[[], [8, 0, 0, 0, 0, 3, 0, 0, 0]], some ⟨1, 0, false, 0⟩, .empty⟩,
    ⟨1, 0, false, 0⟩, ⟨0, [], []⟩⟩

theorem newBlockfileMgr_recovers_two_blocks_after_genesis_rollover :
    genesisCrash.disk.files = [[], Varint.encode 8 ++ [0, 0, 0, 0, 3, 0, 0, 0]] ∧
      genesisCrash.disk.blkfilesInfo = some ⟨1, 0, false, 0⟩ ∧
      recoverBlockfilesInfo (fun _ => "") "ledger" genesisCrash.disk =
        .ok ⟨1, (Varint.encode 8).length + 8, false, 1⟩ ∧
      newBlockfileMgr (fun _ => "") (fun _ => []) "ledger" 4 [] genesisCrash.disk = .error (.error
        "error decoding the block number: error decoding varint with proto.Buffer: unexpected EOF") :=
  newBlockfileMgr_recovers_two_blocks_after_first_rollover (fun _ => "") (fun _ => []) "ledger" 4 []
    genesisBlock genesisCrash ⟨genesisBlock, [], ⟨⟨0, [], []⟩, [], some [[], [], []]⟩, 0, 1, 9⟩ rfl
    [0, 0, 0, 0, 3, 0, 0, 0] ⟨⟨0, [], []⟩, [], some [[], [], []]⟩ rfl (by decide) (by decide)

end FabricPeer.Blkstorage
