import FabricPeer.Ledger.KvRwSet
import FabricPeer.Lib.Varint

/-! # Snapshot files

`snapshot.FileWriter` writes a file as a data-format byte followed by what its `Encode` methods
append: an unsigned varint, or a byte string as the varint of its length and the bytes.
`snapshot.FileReader` checks the format byte and reads the same items back in order. The hash
that `Done` returns beside the file is not modelled, nor are the errors of the file system: a
directory is what each of its file names holds.

What a writer wrote, a reader opened on it reads back item by item, the empty string included
(`decodeBytes_encodeBytes`).
-/

namespace FabricPeer.Snapshot

open FabricPeer.Ledger

set_option autoImplicit false

/-- A directory of snapshot files: the contents of each file name it holds. -/
abbrev Dir := String → Option Bytes

def Dir.ofFiles (files : List (String × Bytes)) : Dir := fun name => files.lookup name

/-- A `FileWriter`: the file's name and the bytes written to it so far. -/
structure FileWriter where
  name : String
  contents : Bytes
  deriving DecidableEq, Repr

/-- `CreateFile`: a new file that starts with its data format. -/
def createFile (filePath : String) (dataformat : UInt8) : FileWriter := ⟨filePath, [dataformat]⟩

/-- `binary.PutUvarint`, for a `uint64` value. -/
def encodeUVarint (u : Nat) : Bytes := Varint.encode u

/-- What `EncodeBytes` appends: the length of `b` as a varint, then `b`. -/
def encodeBytes (b : Bytes) : Bytes := encodeUVarint b.length ++ b

namespace FileWriter

def write (c : FileWriter) (b : Bytes) : FileWriter := { c with contents := c.contents ++ b }

def EncodeUVarint (c : FileWriter) (u : Nat) : FileWriter := c.write (encodeUVarint u)

/-- `EncodeBytes`, and `EncodeString` of the string's bytes. -/
def EncodeBytes (c : FileWriter) (b : Bytes) : FileWriter := (c.EncodeUVarint b.length).write b

@[simp] theorem contents_EncodeBytes (c : FileWriter) (b : Bytes) :
    (c.EncodeBytes b).contents = c.contents ++ encodeBytes b := by
  simp [EncodeBytes, EncodeUVarint, write, encodeBytes]

@[simp] theorem contents_EncodeUVarint (c : FileWriter) (u : Nat) :
    (c.EncodeUVarint u).contents = c.contents ++ encodeUVarint u := rfl

@[simp] theorem name_EncodeBytes (c : FileWriter) (b : Bytes) : (c.EncodeBytes b).name = c.name :=
  rfl

end FileWriter

/-- A `FileReader`: the file's name and the bytes not read yet. -/
structure FileReader where
  name : String
  rest : Bytes
  deriving DecidableEq, Repr

def readError (name : String) (rest : Bytes) : String :=
  "error while reading from snapshot file: " ++ name ++ ": " ++
    if rest.isEmpty then "EOF" else "unexpected EOF"

/-- `OpenFile`: the reader after the format byte, which must be the one expected. -/
def openFile (dir : Dir) (filePath : String) (expectDataformat : UInt8) :
    Except String FileReader :=
  match dir filePath with
  | none => .error ("error while opening the snapshot file: " ++ filePath)
  | some [] => .error ("error while reading from the snapshot file: " ++ filePath ++ ": EOF")
  | some (dataFormat :: rest) =>
    if dataFormat ≠ expectDataformat then
      .error ("unexpected data format: " ++ String.ofList (Nat.toDigits 16 dataFormat.toNat))
    else .ok ⟨filePath, rest⟩

namespace FileReader

/-- `DecodeUVarInt`. -/
def DecodeUVarInt (r : FileReader) : Except String (Nat × FileReader) :=
  match Varint.decode r.rest with
  | some (u, n) => .ok (u, { r with rest := r.rest.drop n })
  | none => .error (readError r.name r.rest)

/-- `decodeBytes`, and `DecodeBytes` and `DecodeString`, which copy what it returns out of the
reader's reused buffer. -/
def decodeBytes (r : FileReader) : Except String (Bytes × FileReader) := do
  let (size, r) ← r.DecodeUVarInt
  if size = 0 then pure ([], r)
  else if size ≤ r.rest.length then pure (r.rest.take size, { r with rest := r.rest.drop size })
  else .error (readError r.name r.rest)

end FileReader

theorem openFile_of_contents {dir : Dir} {filePath : String} {dataformat : UInt8} {rest : Bytes}
    (h : dir filePath = some (dataformat :: rest)) :
    openFile dir filePath dataformat = .ok ⟨filePath, rest⟩ := by
  simp [openFile, h]

theorem FileReader.DecodeUVarInt_encodeUVarint (name : String) (u : Nat) (rest : Bytes) :
    FileReader.DecodeUVarInt ⟨name, encodeUVarint u ++ rest⟩ = .ok (u, ⟨name, rest⟩) := by
  simp [FileReader.DecodeUVarInt, encodeUVarint, Varint.decode_encode_append]

theorem FileReader.decodeBytes_encodeBytes (name : String) (b rest : Bytes) :
    FileReader.decodeBytes ⟨name, encodeBytes b ++ rest⟩ = .ok (b, ⟨name, rest⟩) := by
  rw [FileReader.decodeBytes, encodeBytes, List.append_assoc, DecodeUVarInt_encodeUVarint]
  by_cases hb : b.length = 0
  · obtain rfl := List.eq_nil_of_length_eq_zero hb
    simp [pure, Except.pure]
  · simp [hb, pure, Except.pure]

end FabricPeer.Snapshot
