import FabricPeer.Blkstorage.Recovery

/-! # Block files cut short

A crash while a block is appended leaves its file with the records of the blocks before it and
a prefix of the new record. A stream reads such a file as the blocks of its complete records,
each where it lies, and then stops: at the end of the file when nothing of the new record was
written, and with `ErrUnexpectedEndOfBlockfile` otherwise. It does so from the start of the
file or of any record, and never panics, as long as every length fits in the 8 bytes the stream
peeks. Recovery, which scans the last file for its last complete block, therefore finds it.
-/

namespace FabricPeer.Blkstorage

open FabricPeer.Ledger GoRun

set_option autoImplicit false

/-- The blocks `blocks` with where their records lie when written one after the other from
`offset` on. -/
def placeRecords (fileNum : Nat) : Nat → List Bytes → List (Bytes × BlockPlacementInfo)
  | _, [] => []
  | offset, blockBytes :: blocks =>
    (blockBytes, ⟨fileNum, offset, offset + (Varint.encode blockBytes.length).length⟩) ::
      placeRecords fileNum (offset + (blockRecord blockBytes).length) blocks

theorem map_fst_placeRecords (fileNum offset : Nat) (blocks : List Bytes) :
    (placeRecords fileNum offset blocks).map Prod.fst = blocks := by
  induction blocks generalizing offset with
  | nil => rfl
  | cons blockBytes blocks ih => simp [placeRecords, ih]

theorem length_placeRecords (fileNum offset : Nat) (blocks : List Bytes) :
    (placeRecords fileNum offset blocks).length = blocks.length := by
  rw [← List.length_map Prod.fst, map_fst_placeRecords]

theorem nextBlockBytesAndPlacementInfo_of_torn {file blockBytes : Bytes} (fileNum : Nat)
    {offset : Nat} (hLength : blockBytes.length < 2 ^ 56)
    (hTorn : file.drop offset <+: blockRecord blockBytes) (hNe : file.drop offset ≠ [])
    (hShort : (file.drop offset).length < (blockRecord blockBytes).length) :
    nextBlockBytesAndPlacementInfo file fileNum offset = .error errUnexpectedEndOfBlockfile := by
  have hEncoded : (Varint.encode blockBytes.length).length ≤ 8 :=
    Varint.length_encode_le (by decide) (by simpa using hLength)
  have hRemaining : (file.drop offset).length = file.length - offset := List.length_drop
  have hOffset : offset < file.length := by
    have := List.length_pos_iff.2 hNe
    omega
  rw [length_blockRecord] at hShort
  unfold nextBlockBytesAndPlacementInfo
  rw [if_neg (by omega), if_neg (by omega)]
  dsimp only
  by_cases hCut : (file.drop offset).length < (Varint.encode blockBytes.length).length
  · have hPeek : (file.drop offset).take (min 8 (file.length - offset)) = file.drop offset :=
      List.take_of_length_le (by omega)
    have hNone : Varint.decode (file.drop offset) = none := by
      apply Varint.decode_eq_none_of_prefix _ hCut
      exact List.prefix_of_prefix_length_le hTorn (List.prefix_append _ _) (by omega)
    rw [hPeek, hNone]
    dsimp only
    rw [if_pos (by omega)]
  · have hFront : file.drop offset = Varint.encode blockBytes.length ++
        blockBytes.take ((file.drop offset).length - (Varint.encode blockBytes.length).length) := by
      rw [List.prefix_iff_eq_take.1 hTorn, blockRecord, List.take_append,
        List.take_of_length_le (by omega)]
      simp
    have hPeek : (file.drop offset).take (min 8 (file.length - offset)) =
        Varint.encode blockBytes.length ++
          (blockBytes.take ((file.drop offset).length - (Varint.encode blockBytes.length).length)).take
            (min 8 (file.length - offset) - (Varint.encode blockBytes.length).length) := by
      conv_lhs => rw [hFront]
      rw [List.take_append, List.take_of_length_le (by omega)]
    rw [hPeek, Varint.decode_encode_append]
    dsimp only
    rw [if_pos (by omega)]

theorem readBlocks_of_torn {file blockBytes : Bytes} {fileNum offset : Nat}
    (hLength : blockBytes.length < 2 ^ 56)
    (hTorn : file.drop offset <+: blockRecord blockBytes) (hNe : file.drop offset ≠ [])
    (hShort : (file.drop offset).length < (blockRecord blockBytes).length) :
    readBlocks file fileNum offset = ([], some errUnexpectedEndOfBlockfile, offset) := by
  have hNext := nextBlockBytesAndPlacementInfo_of_torn fileNum hLength hTorn hNe hShort
  rw [readBlocks]
  split
  · rename_i fault h
    rw [hNext] at h
    cases h
    rfl
  · rename_i h
    rw [hNext] at h
    cases h
  · rename_i h
    rw [hNext] at h
    cases h

theorem readBlocks_of_records {file tail : Bytes} {fileNum : Nat} (blocks : List Bytes)
    {offset : Nat} (hLength : ∀ blockBytes ∈ blocks, blockBytes.length < 2 ^ 56)
    (hFile : file.drop offset = blocks.flatMap blockRecord ++ tail) :
    readBlocks file fileNum offset =
      (placeRecords fileNum offset blocks ++
        (readBlocks file fileNum (offset + (blocks.flatMap blockRecord).length)).1,
        (readBlocks file fileNum (offset + (blocks.flatMap blockRecord).length)).2) := by
  induction blocks generalizing offset with
  | nil => simp [placeRecords]
  | cons blockBytes blocks ih =>
    rw [List.flatMap_cons, List.append_assoc] at hFile
    have hRest := ih (fun b hb => hLength b (List.mem_cons_of_mem _ hb))
      (drop_add_length_of_drop hFile)
    rw [readBlocks_of_record (hLength _ List.mem_cons_self) hFile, hRest]
    simp [placeRecords, Nat.add_assoc]

/-- A file of the records of `blocks` and then a proper prefix `p` of one more record, read
from the start of any of its records: the blocks from there on, each where its record lies,
then the end of the file when `p` is empty and `ErrUnexpectedEndOfBlockfile` otherwise, the
stream standing at the end of the last complete record. -/
theorem readBlocks_of_torn_tail (fileNum : Nat) (blocks : List Bytes) (blockBytes p : Bytes)
    (hLength : ∀ b ∈ blocks, b.length < 2 ^ 56) (hBlock : blockBytes.length < 2 ^ 56)
    (hPrefix : p <+: blockRecord blockBytes) (hProper : p.length < (blockRecord blockBytes).length)
    (i : Nat) :
    readBlocks (blocks.flatMap blockRecord ++ p) fileNum ((blocks.take i).flatMap blockRecord).length =
      (placeRecords fileNum ((blocks.take i).flatMap blockRecord).length (blocks.drop i),
        if p = [] then none else some errUnexpectedEndOfBlockfile,
        (blocks.flatMap blockRecord).length) := by
  set file := blocks.flatMap blockRecord ++ p with hFileDef
  have hSplit : (blocks.take i).flatMap blockRecord ++ (blocks.drop i).flatMap blockRecord =
      blocks.flatMap blockRecord := by
    rw [← List.flatMap_append, List.take_append_drop]
  have hFile : file.drop ((blocks.take i).flatMap blockRecord).length =
      (blocks.drop i).flatMap blockRecord ++ p := by
    rw [hFileDef, ← hSplit, List.append_assoc, List.drop_left]
  have hEnd : ((blocks.take i).flatMap blockRecord).length +
      ((blocks.drop i).flatMap blockRecord).length = (blocks.flatMap blockRecord).length := by
    rw [← List.length_append, hSplit]
  have hTail : file.drop (blocks.flatMap blockRecord).length = p := by
    rw [hFileDef, List.drop_left]
  rw [readBlocks_of_records (blocks.drop i)
    (fun b hb => hLength b (List.mem_of_mem_drop hb)) hFile, hEnd]
  by_cases hp : p = []
  · subst hp
    have hLen : (blocks.flatMap blockRecord).length = file.length := by
      rw [hFileDef, List.append_nil]
    rw [if_pos rfl, hLen, readBlocks_of_end]
    simp
  · rw [if_neg hp, readBlocks_of_torn hBlock (by rwa [hTail]) (by rwa [hTail]) (by rwa [hTail])]
    simp

theorem readBlocks_of_torn_tail_second_record :
    readBlocks ([[1, 2], [3]].flatMap blockRecord ++ [3, 7]) 0
        (([[1, 2], [3]].take 1).flatMap blockRecord).length =
      (placeRecords 0 (([[1, 2], [3]].take 1).flatMap blockRecord).length ([[1, 2], [3]].drop 1),
        if ([3, 7] : Bytes) = [] then none else some errUnexpectedEndOfBlockfile,
        ([[1, 2], [3]].flatMap blockRecord).length) :=
  readBlocks_of_torn_tail 0 [[1, 2], [3]] [7, 8, 9] [3, 7] (by decide) (by decide) (by decide)
    (by decide) 1

theorem scanForLastCompleteBlock_of_torn_tail {files : List Bytes} (rootDir : String)
    {fileNum : Nat} {blocks : List Bytes} {blockBytes p : Bytes}
    (hLength : ∀ b ∈ blocks, b.length < 2 ^ 56) (hBlock : blockBytes.length < 2 ^ 56)
    (hPrefix : p <+: blockRecord blockBytes) (hProper : p.length < (blockRecord blockBytes).length)
    (hFile : files[fileNum]? = some (blocks.flatMap blockRecord ++ p)) :
    scanForLastCompleteBlock files rootDir fileNum 0 =
      .ok (blocks.getLast?, (blocks.flatMap blockRecord).length, blocks.length) := by
  have hRead := readBlocks_of_torn_tail fileNum blocks blockBytes p hLength hBlock hPrefix
    hProper 0
  simp only [List.take_zero, List.flatMap_nil, List.length_nil, List.drop_zero] at hRead
  have hLast : (placeRecords fileNum 0 blocks).getLast?.map (·.1) = blocks.getLast? := by
    rw [← List.getLast?_map, map_fst_placeRecords]
  by_cases hp : p = []
  · rw [if_pos hp] at hRead
    simp only [scanForLastCompleteBlock, openBlockfile, openFile, hFile, errorsWrap,
      GoRun.ofExcept, bind, Except.bind, pure, Except.pure, hRead, hLast, length_placeRecords]
  · rw [if_neg hp] at hRead
    simp only [scanForLastCompleteBlock, openBlockfile, openFile, hFile, errorsWrap,
      GoRun.ofExcept, bind, Except.bind, pure, Except.pure, hRead, hLast, length_placeRecords,
      if_true]

end FabricPeer.Blkstorage
