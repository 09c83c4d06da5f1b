import FabricPeer.Blkstorage.StreamSpec
import FabricPeer.Lib.BinarySearch

/-! # Finding the file of a block

A rollback finds the file that holds its target block without the index, which may be behind:
`binarySearchFileNumForBlock` (`blockfile_helper.go`) rebuilds the `blockfilesInfo` from the
files with `constructBlockfilesInfo`, then searches the file numbers from `0` to the latest one
for the last file whose first block is at most the target, reading the first block of each file
it probes with `retrieveFirstBlockNumFromFile`.

The files are described by the blocks each holds (`BlockfilesLayout`): records of written blocks
whose numbers increase, every file but the last holding one, and the last file possibly ending
with a record cut short by a crash. When every file holds a block, the search returns the last
file whose first block is at most the target (`binarySearchFileNumForBlock_eq_ok`). The latest
file number is that of the last file even when it holds no block, as after a crash between the
creation of a new file and the append of its first block, and the search then probes that file
and fails for every block of the file before it but its first
(`binarySearchFileNumForBlock_fails_when_last_file_holds_no_block`).
-/

namespace FabricPeer.Blkstorage

open FabricPeer.Ledger GoRun BinarySearch

set_option autoImplicit false

section

variable (getOrComputeTxIDFromEnvelope : Bytes → String)

/-- `binarySearchFileNumForBlock`: the `blockfilesInfo` rebuilt from the files, then the search of
the file numbers from `0` to the latest for the last file whose first block is at most
`blockNum`. -/
def binarySearchFileNumForBlock (files : List Bytes) (rootDir : String) (blockNum : Nat) :
    Run Nat := do
  let blkfilesInfo ← constructBlockfilesInfo getOrComputeTxIDFromEnvelope files rootDir
  searchLast (retrieveFirstBlockNumFromFile getOrComputeTxIDFromEnvelope files rootDir) blockNum 0
    blkfilesInfo.latestFileNumber

/-! ## Block files after a run and a crash -/

structure Written (block : Block) (blockBytes : Bytes) : Prop where
  serialize_eq : ∃ info, serializeBlock getOrComputeTxIDFromEnvelope block = .ok (blockBytes, info)
  length_lt : blockBytes.length < 2 ^ 56

/-- The files that hold the records of `blocks[i]` in file `i`, the last file then `torn`. -/
def layoutFiles (blocks : List (List (Block × Bytes))) (torn : Bytes) : List Bytes :=
  blocks.mapIdx fun i fileBlocks =>
    (fileBlocks.map Prod.snd).flatMap blockRecord ++ if i + 1 = blocks.length then torn else []

/-- The number of the first block of file `i`. -/
def firstBlockNum (blocks : List (List (Block × Bytes))) (i : Nat) : Nat :=
  match blocks[i]? with
  | some ((block, _) :: _) => block.header.number
  | _ => 0

/-- Block files as the manager leaves them, a crash included: file `i` holds the records of the
written blocks `blocks[i]` and the last file then `torn`, a proper prefix of one more record,
empty or not; every file but the last holds a block, and the block numbers increase from record
to record and from file to file. -/
structure BlockfilesLayout (blocks : List (List (Block × Bytes))) (torn : Bytes) : Prop where
  ne_nil : blocks ≠ []
  written : ∀ fileBlocks ∈ blocks, ∀ b ∈ fileBlocks, Written getOrComputeTxIDFromEnvelope b.1 b.2
  torn_cut : ∃ blockBytes : Bytes, blockBytes.length < 2 ^ 56 ∧ torn <+: blockRecord blockBytes ∧
    torn.length < (blockRecord blockBytes).length
  held : ∀ i (h : i + 1 < blocks.length), blocks[i] ≠ []
  increasing : (blocks.flatten.map (·.1.header.number)).Pairwise (· < ·)

variable {getOrComputeTxIDFromEnvelope}

@[simp] theorem length_layoutFiles (blocks : List (List (Block × Bytes))) (torn : Bytes) :
    (layoutFiles blocks torn).length = blocks.length :=
  List.length_mapIdx

theorem getElem?_layoutFiles (blocks : List (List (Block × Bytes))) (torn : Bytes) {i : Nat}
    (hi : i < blocks.length) :
    (layoutFiles blocks torn)[i]? = some ((blocks[i].map Prod.snd).flatMap blockRecord ++
      if i + 1 = blocks.length then torn else []) := by
  simp [layoutFiles, hi]

theorem firstBlockNum_of_cons {blocks : List (List (Block × Bytes))} {i : Nat} {b : Block × Bytes}
    {rest : List (Block × Bytes)} (h : blocks[i]? = some (b :: rest)) :
    firstBlockNum blocks i = b.1.header.number := by
  simp [firstBlockNum, h]

theorem retrieveFirstBlockNumFromFile_of_written {files : List Bytes} (rootDir : String)
    {fileNum : Nat} {block : Block} {blockBytes rest : Bytes}
    (hWritten : Written getOrComputeTxIDFromEnvelope block blockBytes)
    (hFile : files[fileNum]? = some (blockRecord blockBytes ++ rest)) :
    retrieveFirstBlockNumFromFile getOrComputeTxIDFromEnvelope files rootDir fileNum =
      .ok block.header.number := by
  obtain ⟨info, hSerialize⟩ := hWritten.serialize_eq
  have hNext := nextBlockBytesAndPlacementInfo_of_record fileNum hWritten.length_lt
    (List.drop_zero : (blockRecord blockBytes ++ rest).drop 0 = _)
  have hInfo := extractSerializedBlockInfo_serializeBlock getOrComputeTxIDFromEnvelope hSerialize
  obtain ⟨_, -, -, rfl⟩ := serializeBlock_eq_ok getOrComputeTxIDFromEnvelope hSerialize
  simp only [retrieveFirstBlockNumFromFile, openBlockfile, openFile, hFile, errorsWrap,
    GoRun.ofExcept, bind_ok, hNext, Option.map_some, Option.getD_some, hInfo]
  rfl

theorem retrieveFirstBlockNumFromFile_of_torn {files : List Bytes} (rootDir : String)
    {fileNum : Nat} {torn blockBytes : Bytes} (hLength : blockBytes.length < 2 ^ 56)
    (hTorn : torn <+: blockRecord blockBytes) (hShort : torn.length < (blockRecord blockBytes).length)
    (hFile : files[fileNum]? = some torn) :
    retrieveFirstBlockNumFromFile getOrComputeTxIDFromEnvelope files rootDir fileNum =
      .error (if torn = [] then .error
        "error decoding the block number: error decoding varint with proto.Buffer: unexpected EOF"
        else errUnexpectedEndOfBlockfile) := by
  by_cases hEmpty : torn = []
  · subst hEmpty
    rw [if_pos rfl, retrieveFirstBlockNumFromFile_of_empty getOrComputeTxIDFromEnvelope rootDir hFile]
  · have hNext : nextBlockBytesAndPlacementInfo torn fileNum 0 = .error errUnexpectedEndOfBlockfile :=
      nextBlockBytesAndPlacementInfo_of_torn fileNum hLength (by rwa [List.drop_zero])
        (by rwa [List.drop_zero]) (by rwa [List.drop_zero])
    rw [if_neg hEmpty]
    simp only [retrieveFirstBlockNumFromFile, openBlockfile, openFile, hFile, errorsWrap,
      GoRun.ofExcept, bind_ok, hNext, bind_error]

section Layout

variable {blocks : List (List (Block × Bytes))} {torn : Bytes}

theorem BlockfilesLayout.tail_cut (hLayout : BlockfilesLayout getOrComputeTxIDFromEnvelope blocks torn)
    (i : Nat) : ∃ blockBytes : Bytes, blockBytes.length < 2 ^ 56 ∧
      (if i + 1 = blocks.length then torn else []) <+: blockRecord blockBytes ∧
      (if i + 1 = blocks.length then torn else []).length < (blockRecord blockBytes).length := by
  obtain ⟨blockBytes, hLength, hPrefix, hShort⟩ := hLayout.torn_cut
  refine ⟨blockBytes, hLength, ?_, ?_⟩ <;> split_ifs
  · exact hPrefix
  · exact List.nil_prefix
  · exact hShort
  · exact Nat.lt_of_le_of_lt (Nat.zero_le _) hShort

theorem scanForLastCompleteBlock_layoutFiles
    (hLayout : BlockfilesLayout getOrComputeTxIDFromEnvelope blocks torn) (rootDir : String)
    {i : Nat} (hi : i < blocks.length) :
    scanForLastCompleteBlock (layoutFiles blocks torn) rootDir i 0 =
      .ok ((blocks[i].map Prod.snd).getLast?,
        ((blocks[i].map Prod.snd).flatMap blockRecord).length, blocks[i].length) := by
  obtain ⟨blockBytes, hLength, hPrefix, hShort⟩ := hLayout.tail_cut i
  have hWritten : ∀ b ∈ blocks[i].map Prod.snd, b.length < 2 ^ 56 := by
    intro b hb
    obtain ⟨⟨block, b⟩, hMem, rfl⟩ := List.mem_map.1 hb
    exact (hLayout.written _ (List.getElem_mem hi) _ hMem).length_lt
  rw [scanForLastCompleteBlock_of_torn_tail rootDir hWritten hLength hPrefix hShort
    (getElem?_layoutFiles blocks torn hi), List.length_map]

theorem BlockfilesLayout.deserializeBlock_eq_ok
    (hLayout : BlockfilesLayout getOrComputeTxIDFromEnvelope blocks torn) {j : Nat}
    (hj : j < blocks.length) {blockBytes : Bytes} (hMem : blockBytes ∈ blocks[j].map Prod.snd) :
    ∃ block, deserializeBlock getOrComputeTxIDFromEnvelope blockBytes = .ok block := by
  obtain ⟨⟨block, blockBytes⟩, hBlock, rfl⟩ := List.mem_map.1 hMem
  obtain ⟨info, hSerialize⟩ := (hLayout.written _ (List.getElem_mem hj) _ hBlock).serialize_eq
  exact ⟨block, deserializeBlock_serializeBlock getOrComputeTxIDFromEnvelope hSerialize⟩

theorem constructBlockfilesInfo_layoutFiles
    (hLayout : BlockfilesLayout getOrComputeTxIDFromEnvelope blocks torn) (rootDir : String) :
    ∃ blkfilesInfo, constructBlockfilesInfo getOrComputeTxIDFromEnvelope (layoutFiles blocks torn)
      rootDir = .ok blkfilesInfo ∧ blkfilesInfo.latestFileNumber = blocks.length - 1 := by
  have hLen : 0 < blocks.length := List.length_pos_iff.2 hLayout.ne_nil
  have hFiles : layoutFiles blocks torn ≠ [] := by
    rw [← List.length_pos_iff, length_layoutFiles]
    exact hLen
  unfold constructBlockfilesInfo
  rw [if_neg hFiles]
  dsimp only
  rw [length_layoutFiles, scanForLastCompleteBlock_layoutFiles hLayout rootDir (by omega), bind_ok]
  dsimp only
  split_ifs with hNone
  on_goal 1 =>
    rw [scanForLastCompleteBlock_layoutFiles hLayout rootDir (by omega), bind_ok]
    dsimp only
  all_goals
    simp only [pure_bind]
    split
    · rename_i lastBlockBytes hLast
      obtain ⟨block, hBlock⟩ :=
        hLayout.deserializeBlock_eq_ok (by omega) (List.mem_of_getLast? hLast)
      simp only [hBlock, GoRun.ofExcept, bind_ok]
      exact ⟨_, rfl, rfl⟩
    · exact ⟨_, rfl, rfl⟩

theorem BlockfilesLayout.firstBlockNum_lt
    (hLayout : BlockfilesLayout getOrComputeTxIDFromEnvelope blocks torn) {i j : Nat} (hij : i < j)
    (hj : j < blocks.length) (hHeldI : blocks[i] ≠ []) (hHeldJ : blocks[j] ≠ []) :
    firstBlockNum blocks i < firstBlockNum blocks j := by
  have hi : i < blocks.length := by omega
  obtain ⟨a, as, hA⟩ := List.exists_cons_of_ne_nil hHeldI
  obtain ⟨b, bs, hB⟩ := List.exists_cons_of_ne_nil hHeldJ
  rw [firstBlockNum_of_cons (by rw [List.getElem?_eq_getElem hi, hA]),
    firstBlockNum_of_cons (by rw [List.getElem?_eq_getElem hj, hB])]
  have hPairwise := hLayout.increasing
  rw [List.pairwise_map, List.pairwise_flatten] at hPairwise
  exact List.pairwise_iff_getElem.1 hPairwise.2 i j hi hj hij a (by rw [hA]; exact List.mem_cons_self)
    b (by rw [hB]; exact List.mem_cons_self)

theorem BlockfilesLayout.strictMonoOn_firstBlockNum
    (hLayout : BlockfilesLayout getOrComputeTxIDFromEnvelope blocks torn) {top : Nat}
    (hTop : top < blocks.length) (hHeld : ∀ i (hi : i < blocks.length), i ≤ top → blocks[i] ≠ []) :
    StrictMonoOn (firstBlockNum blocks) (Set.Iic top) := by
  intro i hi j hj hij
  have hjTop : j ≤ top := hj
  exact hLayout.firstBlockNum_lt hij (by omega) (hHeld i (by omega) (Nat.le_trans hij.le hjTop))
    (hHeld j (by omega) hjTop)

theorem retrieveFirstBlockNumFromFile_layoutFiles
    (hLayout : BlockfilesLayout getOrComputeTxIDFromEnvelope blocks torn) (rootDir : String)
    {i : Nat} (hi : i < blocks.length) (hHeld : blocks[i] ≠ []) :
    retrieveFirstBlockNumFromFile getOrComputeTxIDFromEnvelope (layoutFiles blocks torn) rootDir i =
      .ok (firstBlockNum blocks i) := by
  obtain ⟨b, rest, hB⟩ := List.exists_cons_of_ne_nil hHeld
  have hFile := getElem?_layoutFiles blocks torn hi
  rw [hB, List.map_cons, List.flatMap_cons, List.append_assoc] at hFile
  have hWritten := hLayout.written _ (List.getElem_mem hi) b (by rw [hB]; exact List.mem_cons_self)
  rw [retrieveFirstBlockNumFromFile_of_written rootDir hWritten hFile,
    firstBlockNum_of_cons (by rw [List.getElem?_eq_getElem hi, hB])]

theorem binarySearchFileNumForBlock_eq_ok
    (hLayout : BlockfilesLayout getOrComputeTxIDFromEnvelope blocks torn) (rootDir : String)
    (hHeld : [] ∉ blocks) {blockNum : Nat} (hFirst : firstBlockNum blocks 0 ≤ blockNum) :
    ∃ f, binarySearchFileNumForBlock getOrComputeTxIDFromEnvelope (layoutFiles blocks torn)
      rootDir blockNum = .ok f ∧ IsLastAtMost (firstBlockNum blocks) (blocks.length - 1) blockNum f := by
  have hLen : 0 < blocks.length := List.length_pos_iff.2 hLayout.ne_nil
  have hHeldAt : ∀ i (hi : i < blocks.length), blocks[i] ≠ [] :=
    fun i hi hNil => hHeld (hNil ▸ List.getElem_mem hi)
  obtain ⟨blkfilesInfo, hInfo, hLatest⟩ := constructBlockfilesInfo_layoutFiles hLayout rootDir
  rw [binarySearchFileNumForBlock, hInfo, bind_ok, hLatest]
  have hStart : Bracket (firstBlockNum blocks) (blocks.length - 1) blockNum 0 (blocks.length - 1) :=
    ⟨Nat.zero_le _, le_rfl, hFirst, fun h => absurd h (Nat.lt_irrefl _)⟩
  exact searchLast_eq_ok
    (fun i _ hi => retrieveFirstBlockNumFromFile_layoutFiles hLayout rootDir (by omega)
      (hHeldAt i (by omega)))
    (hLayout.strictMonoOn_firstBlockNum (by omega) fun i hi _ => hHeldAt i hi) hStart

/-- When the last file holds no complete block, empty or with a record cut short by a crash, the
search for any block past the first of the file before it probes the last file and fails. -/
theorem binarySearchFileNumForBlock_fails_when_last_file_holds_no_block
    (hLayout : BlockfilesLayout getOrComputeTxIDFromEnvelope blocks torn) (rootDir : String)
    (hTwo : 2 ≤ blocks.length) (hLast : blocks.getLast? = some []) {blockNum : Nat}
    (hAfter : firstBlockNum blocks (blocks.length - 2) < blockNum) :
    binarySearchFileNumForBlock getOrComputeTxIDFromEnvelope (layoutFiles blocks torn) rootDir
        blockNum =
      .error (if torn = [] then .error
        "error decoding the block number: error decoding varint with proto.Buffer: unexpected EOF"
        else errUnexpectedEndOfBlockfile) := by
  have hLastNil : blocks[blocks.length - 1] = [] := by
    rw [List.getLast?_eq_getElem?, List.getElem?_eq_getElem (by omega), Option.some_inj] at hLast
    exact hLast
  have hHeldAt : ∀ i (hi : i < blocks.length), i ≤ blocks.length - 2 → blocks[i] ≠ [] :=
    fun i _ hi => hLayout.held i (by omega)
  obtain ⟨blkfilesInfo, hInfo, hLatest⟩ := constructBlockfilesInfo_layoutFiles hLayout rootDir
  rw [binarySearchFileNumForBlock, hInfo, bind_ok, hLatest]
  have hLastFile : (layoutFiles blocks torn)[blocks.length - 1]? = some torn := by
    rw [getElem?_layoutFiles blocks torn (by omega), hLastNil, if_pos (by omega)]
    rfl
  obtain ⟨blockBytes, hLength, hPrefix, hShort⟩ := hLayout.torn_cut
  have hTop : retrieveFirstBlockNumFromFile getOrComputeTxIDFromEnvelope (layoutFiles blocks torn)
      rootDir (blocks.length - 1) = _ :=
    retrieveFirstBlockNumFromFile_of_torn rootDir hLength hPrefix hShort hLastFile
  have hMono : StrictMonoOn (firstBlockNum blocks) (Set.Iic (blocks.length - 2)) :=
    hLayout.strictMonoOn_firstBlockNum (by omega) hHeldAt
  refine searchLast_eq_error hTop (fun i hi hiLast => ⟨firstBlockNum blocks i,
    retrieveFirstBlockNumFromFile_layoutFiles hLayout rootDir (by omega) (hHeldAt i (by omega) (by omega)),
    Nat.lt_of_le_of_lt (hMono.monotoneOn (Set.mem_Iic.2 (by omega)) (Set.mem_Iic.2 le_rfl) (by omega))
      hAfter⟩) (by omega)

end Layout

end

def crashAfterRollover : List (List (Block × Bytes)) :=
  [[(⟨⟨0, [], []⟩, [], some []⟩, [0, 0, 0, 0, 0]), (⟨⟨1, [], []⟩, [], some []⟩, [1, 0, 0, 0, 0])], []]

theorem blockfilesLayout_crashAfterRollover :
    BlockfilesLayout (fun _ => "") crashAfterRollover [] where
  ne_nil := by decide
  written := by
    intro fileBlocks hFile b hb
    simp only [crashAfterRollover, List.mem_cons, List.not_mem_nil, or_false] at hFile
    rcases hFile with rfl | rfl
    · simp only [List.mem_cons, List.not_mem_nil, or_false] at hb
      rcases hb with rfl | rfl
      · exact ⟨⟨_, rfl⟩, by decide⟩
      · exact ⟨⟨_, rfl⟩, by decide⟩
    · cases hb
  torn_cut := ⟨[], by decide, List.nil_prefix, by decide⟩
  held := by
    intro i hi
    obtain rfl : i = 0 := by
      simp only [crashAfterRollover, List.length_cons, List.length_nil] at hi
      omega
    simp [crashAfterRollover]
  increasing := by decide

theorem binarySearchFileNumForBlock_fails_after_crash_in_new_file :
    binarySearchFileNumForBlock (fun _ => "") (layoutFiles crashAfterRollover []) "ledger" 1 =
      .error (.error
        "error decoding the block number: error decoding varint with proto.Buffer: unexpected EOF") := by
  have h := binarySearchFileNumForBlock_fails_when_last_file_holds_no_block
    blockfilesLayout_crashAfterRollover "ledger" (by decide) rfl
    (show firstBlockNum crashAfterRollover (crashAfterRollover.length - 2) < 1 by decide)
  rwa [if_pos rfl] at h

end FabricPeer.Blkstorage
