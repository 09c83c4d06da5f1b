import FabricPeer.Blkstorage.Serialization

/-! # Block files and the streams that read them

A ledger keeps its blocks in the files `blockfile_000000`, `blockfile_000001`, ... of its
directory, each block as the varint of its length followed by its bytes (`blockfile_mgr.go`).
The files are a list here, file `n` existing when `n` is below its length; the writer opens a
file with `O_CREATE` and appends to its end (`blockfile_rw.go`). `block_stream.go` reads the
blocks of one file from an offset, and across files up to an end file; a length that runs past
the end of the file is `ErrUnexpectedEndOfBlockfile`, the sign of a block cut short by a crash.
-/

namespace FabricPeer.Blkstorage

open FabricPeer.Ledger GoRun

set_option autoImplicit false

def blockfilePrefix : String := "blockfile_"

def zeroPad6 (n : Nat) : String :=
  let digits := toString n
  "".pushn '0' (6 - digits.length) ++ digits

def deriveBlockfilePath (rootDir : String) (suffixNum : Nat) : String :=
  rootDir ++ "/" ++ blockfilePrefix ++ zeroPad6 suffixNum

/-- `os.OpenFile` of block file `fileNum`: its contents, or the error of a missing file. -/
def openFile (files : List Bytes) (rootDir : String) (fileNum : Nat) : Except String Bytes :=
  match files[fileNum]? with
  | some file => .ok file
  | none => .error ("open " ++ deriveBlockfilePath rootDir fileNum ++ ": no such file or directory")

/-- `newBlockfileStream` opening its file. -/
def openBlockfile (files : List Bytes) (rootDir : String) (fileNum : Nat) : Run Bytes :=
  ofExcept (errorsWrap ("error opening block file " ++ deriveBlockfilePath rootDir fileNum)
    (openFile files rootDir fileNum))

/-- `newBlockfileWriter` opens its file with `O_CREATE`. Files are only ever created at the
next number, where this adds exactly that file. -/
def createBlockfile (files : List Bytes) (fileNum : Nat) : List Bytes :=
  if fileNum < files.length then files
  else files ++ List.replicate (fileNum + 1 - files.length) []

/-- `blockfileWriter.append`: the file is open with `O_APPEND`, so the bytes go to its end. -/
def appendBlockfile (files : List Bytes) (fileNum : Nat) (b : Bytes) : List Bytes :=
  files.modify fileNum (· ++ b)

/-- `blockfileWriter.truncateFile`: a file longer than `targetSize` is cut to it. -/
def truncateBlockfile (files : List Bytes) (fileNum targetSize : Nat) : List Bytes :=
  files.modify fileNum (·.take targetSize)

structure BlockPlacementInfo where
  fileNum : Nat
  blockStartOffset : Nat
  blockBytesOffset : Nat
  deriving DecidableEq, Repr

def errUnexpectedEndOfBlockfile : Fault := .error "unexpected end of blockfile"

def goSyntaxBytes (bs : Bytes) : String :=
  "[]byte\x7b" ++ ", ".intercalate (bs.map fun b => "0x" ++ String.ofList (Nat.toDigits 16 b.toNat)) ++
    "\x7d"

def goHex (bs : Bytes) : String :=
  String.join (bs.map fun b =>
    let digits := Nat.toDigits 16 b.toNat
    String.ofList (if digits.length < 2 then '0' :: digits else digits))

/-- `blockfileStream.nextBlockBytesAndPlacementInfo` on the contents `file` of file `fileNum`, at
`currentOffset`: the next block's bytes and where they lie, or `none` at the end of the file.
The stream then stands at the end of the block. -/
def nextBlockBytesAndPlacementInfo (file : Bytes) (fileNum currentOffset : Nat) :
    Run (Option (Bytes × BlockPlacementInfo)) :=
  if currentOffset = file.length then .ok none
  else if file.length < currentOffset then
    let peekBytes : Int := file.length - currentOffset
    .error (.error ("error peeking [" ++ toString peekBytes ++
      "] bytes from block file: bufio: negative count"))
  else
    let remainingBytes := file.length - currentOffset
    let lenBytes := (file.drop currentOffset).take (min 8 remainingBytes)
    match Varint.decode lenBytes with
    | none =>
      if remainingBytes < 8 then .error errUnexpectedEndOfBlockfile
      else .error (.panic ("Error in decoding varint bytes [" ++ goSyntaxBytes lenBytes ++ "]"))
    | some (length, n) =>
      if remainingBytes < n + length then .error errUnexpectedEndOfBlockfile
      else .ok (some ((file.drop (currentOffset + n)).take length,
        ⟨fileNum, currentOffset, currentOffset + n⟩))

theorem nextBlockBytesAndPlacementInfo_advances {file : Bytes} {fileNum currentOffset : Nat}
    {blockBytes : Bytes} {info : BlockPlacementInfo}
    (h : nextBlockBytesAndPlacementInfo file fileNum currentOffset = .ok (some (blockBytes, info))) :
    currentOffset < info.blockBytesOffset + blockBytes.length ∧
      info.blockBytesOffset + blockBytes.length ≤ file.length := by
  unfold nextBlockBytesAndPlacementInfo at h
  split at h
  · cases h
  · split at h
    · cases h
    · dsimp only at h
      split at h
      · split at h <;> cases h
      · rename_i length n hDecode
        split at h
        · cases h
        · rename_i hFits
          simp only [Except.ok.injEq, Option.some.injEq, Prod.mk.injEq] at h
          obtain ⟨rfl, rfl⟩ := h
          have hN := (Varint.decode_length hDecode).1
          simp only [List.length_take, List.length_drop]
          omega

/-- The loop of a reader of one file from `offset` on: the blocks it reads, in order, the fault
it stops at if it does not reach the end of the file, and the offset it stops at. -/
def readBlocks (file : Bytes) (fileNum offset : Nat) :
    List (Bytes × BlockPlacementInfo) × Option Fault × Nat :=
  match h : nextBlockBytesAndPlacementInfo file fileNum offset with
  | .error fault => ([], some fault, offset)
  | .ok none => ([], none, offset)
  | .ok (some (blockBytes, info)) =>
    have := nextBlockBytesAndPlacementInfo_advances h
    let (blocks, stop, endOffset) :=
      readBlocks file fileNum (info.blockBytesOffset + blockBytes.length)
    ((blockBytes, info) :: blocks, stop, endOffset)
termination_by file.length + 1 - offset
decreasing_by omega

/-- `scanForLastCompleteBlock`: the bytes of the last complete block from `startingOffset` on,
the offset where it ends, and the number of complete blocks. A block cut short ends the scan
without an error. -/
def scanForLastCompleteBlock (files : List Bytes) (rootDir : String) (fileNum startingOffset : Nat) :
    Run (Option Bytes × Nat × Nat) := do
  let file ← openBlockfile files rootDir fileNum
  let (blocks, stop, currentOffset) := readBlocks file fileNum startingOffset
  let lastBlockBytes := blocks.getLast?.map (·.1)
  match stop with
  | some errRead =>
    if errRead = errUnexpectedEndOfBlockfile then pure (lastBlockBytes, currentOffset, blocks.length)
    else .error errRead
  | none => pure (lastBlockBytes, currentOffset, blocks.length)

/-- What a `blockStream` opened at `offset` of file `fileNum` reads, `filesLeft` being the
number of files after `fileNum` up to its end file: the blocks in order, and the fault it stops
at, if any. At the end of a file before the end file it opens the next one. -/
def streamBlocks (files : List Bytes) (rootDir : String) :
    (filesLeft fileNum offset : Nat) → List (Bytes × BlockPlacementInfo) × Option Fault
  | 0, fileNum, offset =>
    let (blocks, stop, _) := readBlocks (files.getD fileNum []) fileNum offset
    (blocks, stop)
  | filesLeft + 1, fileNum, offset =>
    let (blocks, stop, _) := readBlocks (files.getD fileNum []) fileNum offset
    match stop with
    | some fault => (blocks, some fault)
    | none =>
      match openBlockfile files rootDir (fileNum + 1) with
      | .error fault => (blocks, some fault)
      | .ok _ =>
        let (more, stop) := streamBlocks files rootDir filesLeft (fileNum + 1) 0
        (blocks ++ more, stop)

end FabricPeer.Blkstorage
