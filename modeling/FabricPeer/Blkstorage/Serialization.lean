import FabricPeer.Ledger.KvRwSet
import FabricPeer.Lib.Fault
import FabricPeer.Lib.Varint

/-! # The on-disk form of a block

`block_serialization.go` writes a block as the varint of its number, its data hash and previous
hash as length-prefixed bytes, the count of its transactions followed by each envelope as
length-prefixed bytes, and the count of its metadata entries followed by each entry. Writing
records where each envelope starts in the block's bytes; reading the bytes back records it
again, counted by the `buffer` wrapper of `protobuf_util.go`. The transaction id of an envelope
(`protoutil.GetOrComputeTxIDFromEnvelope`) is a parameter.

The main result is the round trip: what `serializeBlock` writes, `extractSerializedBlockInfo`
reads back with the same header, offsets and metadata, and `deserializeBlock` reads back as the
block itself.
-/

namespace FabricPeer.Blkstorage

open FabricPeer.Ledger GoRun

set_option autoImplicit false

structure BlockHeader where
  number : Nat
  dataHash : Bytes
  previousHash : Bytes
  deriving DecidableEq, Repr

structure Block where
  header : BlockHeader
  data : List Bytes
  /-- The entries of `Block.Metadata`; `none` for a nil pointer. -/
  metadata : Option (List Bytes)
  deriving DecidableEq, Repr

structure LocPointer where
  offset : Nat
  bytesLength : Nat
  deriving DecidableEq, Repr

/-- `txindexInfo`: where an envelope lies in the bytes of its block. -/
structure TxIndexInfo where
  txID : String
  loc : LocPointer
  deriving DecidableEq, Repr

structure SerializedBlockInfo where
  blockHeader : BlockHeader
  txOffsets : List TxIndexInfo
  metadata : Option (List Bytes)
  deriving DecidableEq, Repr

def errorsWrap {α : Type} (msg : String) : Except String α → Except String α
  | .ok a => .ok a
  | .error err => .error (msg ++ ": " ++ err)

def encodeRawBytes (b : Bytes) : Bytes := Varint.encode b.length ++ b

section

variable (getOrComputeTxIDFromEnvelope : Bytes → String)

def addHeaderBytes (blockHeader : BlockHeader) (buf : Bytes) : Bytes :=
  buf ++ Varint.encode blockHeader.number ++ encodeRawBytes blockHeader.dataHash ++
    encodeRawBytes blockHeader.previousHash

def addTxBytes (acc : Bytes × List TxIndexInfo) (txEnvelopeBytes : Bytes) :
    Bytes × List TxIndexInfo :=
  let offset := acc.1.length
  let txid := getOrComputeTxIDFromEnvelope txEnvelopeBytes
  let buf := acc.1 ++ encodeRawBytes txEnvelopeBytes
  (buf, acc.2 ++ [⟨txid, ⟨offset, buf.length - offset⟩⟩])

def addDataBytesAndConstructTxIndexInfo (blockData : List Bytes) (buf : Bytes) :
    Bytes × List TxIndexInfo :=
  blockData.foldl (addTxBytes getOrComputeTxIDFromEnvelope)
    (buf ++ Varint.encode blockData.length, [])

/-- `addMetadataBytes`: it counts no entries for a nil `BlockMetadata`, and then ranges over the
entries of the nil pointer, which panics. -/
def addMetadataBytes (blockMetadata : Option (List Bytes)) (buf : Bytes) : Run Bytes :=
  let numItems := match blockMetadata with
    | some metadata => metadata.length
    | none => 0
  let buf := buf ++ Varint.encode numItems
  match blockMetadata with
  | some metadata => .ok (metadata.foldl (fun buf b => buf ++ encodeRawBytes b) buf)
  | none => .error (.panic "runtime error: invalid memory address or nil pointer dereference")

def serializeBlock (block : Block) : Run (Bytes × SerializedBlockInfo) := do
  let buf := addHeaderBytes block.header []
  let (buf, txOffsets) := addDataBytesAndConstructTxIndexInfo getOrComputeTxIDFromEnvelope
    block.data buf
  let buf ← addMetadataBytes block.metadata buf
  pure (buf, ⟨block.header, txOffsets, block.metadata⟩)

end

/-- A `proto.Buffer` over `buf`, read up to `idx`, in the `buffer` wrapper, which counts the
bytes consumed in `position` from the sizes of the values it decoded. -/
structure Buffer where
  buf : Bytes
  idx : Nat
  position : Nat
  deriving DecidableEq, Repr

def newBuffer (b : Bytes) : Buffer := ⟨b, 0, 0⟩

def errUnexpectedEOF : String := "unexpected EOF"

namespace Buffer

def decodeVarint (b : Buffer) : Except String (Nat × Buffer) :=
  match Varint.decode (b.buf.drop b.idx) with
  | some (val, n) =>
    .ok (val, { b with
      idx := b.idx + n
      position := b.position + (Varint.encode val).length })
  | none => errorsWrap "error decoding varint with proto.Buffer" (.error errUnexpectedEOF)

def decodeRawBytes (b : Buffer) : Except String (Bytes × Buffer) :=
  match Varint.decode (b.buf.drop b.idx) with
  | some (m, n) =>
    let rest := b.buf.drop (b.idx + n)
    if m ≤ rest.length then
      let val := rest.take m
      .ok (val, { b with
        idx := b.idx + n + m
        position := b.position + (Varint.encode val.length).length + val.length })
    else errorsWrap "error decoding raw bytes with proto.Buffer" (.error errUnexpectedEOF)
  | none => errorsWrap "error decoding raw bytes with proto.Buffer" (.error errUnexpectedEOF)

end Buffer

/-- `extractHeader`; a previous hash of length 0 is set to nil, which is the same list here. -/
def extractHeader (b : Buffer) : Except String (BlockHeader × Buffer) := do
  let (number, b) ← errorsWrap "error decoding the block number" b.decodeVarint
  let (dataHash, b) ← errorsWrap "error decoding the data hash" b.decodeRawBytes
  let (previousHash, b) ← errorsWrap "error decoding the previous hash" b.decodeRawBytes
  pure (⟨number, dataHash, previousHash⟩, b)

section

variable (getOrComputeTxIDFromEnvelope : Bytes → String)

def extractTxs : Nat → Buffer → Except String (List Bytes × List TxIndexInfo × Buffer)
  | 0, b => .ok ([], [], b)
  | numItems + 1, b => do
    let txOffset := b.position
    let (txEnvBytes, b') ← errorsWrap "error decoding the transaction envelope" b.decodeRawBytes
    let txid := getOrComputeTxIDFromEnvelope txEnvBytes
    let (data, txOffsets, b'') ← extractTxs numItems b'
    pure (txEnvBytes :: data, ⟨txid, ⟨txOffset, b'.position - txOffset⟩⟩ :: txOffsets, b'')

def extractData (b : Buffer) : Except String (List Bytes × List TxIndexInfo × Buffer) := do
  let (numItems, b) ← errorsWrap "error decoding the length of block data" b.decodeVarint
  extractTxs getOrComputeTxIDFromEnvelope numItems b

end

def extractMetadataEntries : Nat → Buffer → Except String (List Bytes × Buffer)
  | 0, b => .ok ([], b)
  | numItems + 1, b => do
    let (metadataEntry, b) ← errorsWrap "error decoding the block metadata" b.decodeRawBytes
    let (metadata, b) ← extractMetadataEntries numItems b
    pure (metadataEntry :: metadata, b)

def extractMetadata (b : Buffer) : Except String (List Bytes × Buffer) := do
  let (numItems, b) ← errorsWrap "error decoding the length of block metadata" b.decodeVarint
  extractMetadataEntries numItems b

section

variable (getOrComputeTxIDFromEnvelope : Bytes → String)

def extractSerializedBlockInfo (serializedBlockBytes : Bytes) :
    Except String SerializedBlockInfo := do
  let b := newBuffer serializedBlockBytes
  let (blockHeader, b) ← extractHeader b
  let (_, txOffsets, b) ← extractData getOrComputeTxIDFromEnvelope b
  let (metadata, _) ← extractMetadata b
  pure ⟨blockHeader, txOffsets, some metadata⟩

def deserializeBlock (serializedBlockBytes : Bytes) : Except String Block := do
  let b := newBuffer serializedBlockBytes
  let (header, b) ← extractHeader b
  let (data, _, b) ← extractData getOrComputeTxIDFromEnvelope b
  let (metadata, _) ← extractMetadata b
  pure ⟨header, data, some metadata⟩

end

/-! ## Reading back what was written -/

theorem drop_add_length_of_drop {buf pre rest : Bytes} {i : Nat} (h : buf.drop i = pre ++ rest) :
    buf.drop (i + pre.length) = rest := by
  rw [← List.drop_drop, h, List.drop_left]

@[simp] theorem length_encodeRawBytes (b : Bytes) :
    (encodeRawBytes b).length = (Varint.encode b.length).length + b.length := by
  simp [encodeRawBytes]

namespace Buffer

theorem decodeVarint_of_drop {b : Buffer} {v : Nat} {rest : Bytes}
    (h : b.buf.drop b.idx = Varint.encode v ++ rest) :
    b.decodeVarint =
      .ok (v, ⟨b.buf, b.idx + (Varint.encode v).length, b.position + (Varint.encode v).length⟩) := by
  rw [decodeVarint, h, Varint.decode_encode_append]

theorem decodeRawBytes_of_drop {b : Buffer} {x rest : Bytes}
    (h : b.buf.drop b.idx = encodeRawBytes x ++ rest) :
    b.decodeRawBytes =
      .ok (x, ⟨b.buf, b.idx + (encodeRawBytes x).length, b.position + (encodeRawBytes x).length⟩) := by
  have hVal : b.buf.drop (b.idx + (Varint.encode x.length).length) = x ++ rest := by
    apply drop_add_length_of_drop
    rw [h, encodeRawBytes, List.append_assoc]
  rw [encodeRawBytes, List.append_assoc] at h
  rw [decodeRawBytes, h, Varint.decode_encode_append]
  simp only [hVal, List.length_append, Nat.le_add_right, if_true, List.take_left,
    length_encodeRawBytes]
  congr 3 <;> omega

end Buffer

def headerBytes (blockHeader : BlockHeader) : Bytes :=
  Varint.encode blockHeader.number ++ encodeRawBytes blockHeader.dataHash ++
    encodeRawBytes blockHeader.previousHash

theorem extractHeader_of_drop {b : Buffer} {blockHeader : BlockHeader} {rest : Bytes}
    (h : b.buf.drop b.idx = headerBytes blockHeader ++ rest) :
    extractHeader b = .ok (blockHeader, ⟨b.buf, b.idx + (headerBytes blockHeader).length,
      b.position + (headerBytes blockHeader).length⟩) := by
  have hNumber : b.buf.drop b.idx = Varint.encode blockHeader.number ++
      (encodeRawBytes blockHeader.dataHash ++ encodeRawBytes blockHeader.previousHash ++ rest) := by
    rw [h, headerBytes]
    simp only [List.append_assoc]
  have hDataHash := drop_add_length_of_drop hNumber
  rw [List.append_assoc] at hDataHash
  have hPreviousHash := drop_add_length_of_drop hDataHash
  rw [extractHeader, Buffer.decodeVarint_of_drop hNumber]
  simp only [errorsWrap, bind, Except.bind]
  rw [Buffer.decodeRawBytes_of_drop hDataHash]
  simp only
  rw [Buffer.decodeRawBytes_of_drop (by simpa [Nat.add_assoc] using hPreviousHash)]
  simp only [pure, Except.pure, headerBytes, List.length_append, Nat.add_assoc]

section

variable (getOrComputeTxIDFromEnvelope : Bytes → String)

def txIndexInfos (start : Nat) : List Bytes → List TxIndexInfo
  | [] => []
  | env :: envs => ⟨getOrComputeTxIDFromEnvelope env, ⟨start, (encodeRawBytes env).length⟩⟩ ::
      txIndexInfos (start + (encodeRawBytes env).length) envs

theorem foldl_addTxBytes (envs : List Bytes) (buf : Bytes) (txOffsets : List TxIndexInfo) :
    envs.foldl (addTxBytes getOrComputeTxIDFromEnvelope) (buf, txOffsets) =
      (buf ++ envs.flatMap encodeRawBytes,
        txOffsets ++ txIndexInfos getOrComputeTxIDFromEnvelope buf.length envs) := by
  induction envs generalizing buf txOffsets with
  | nil => simp [txIndexInfos]
  | cons env envs ih =>
    simp only [List.foldl_cons, addTxBytes, ih, List.flatMap_cons, List.append_assoc,
      txIndexInfos, List.length_append, Nat.add_sub_cancel_left, List.cons_append, List.nil_append]

theorem extractTxs_of_drop (envs : List Bytes) (b : Buffer) (rest : Bytes)
    (h : b.buf.drop b.idx = envs.flatMap encodeRawBytes ++ rest) :
    extractTxs getOrComputeTxIDFromEnvelope envs.length b =
      .ok (envs, txIndexInfos getOrComputeTxIDFromEnvelope b.position envs,
        ⟨b.buf, b.idx + (envs.flatMap encodeRawBytes).length,
          b.position + (envs.flatMap encodeRawBytes).length⟩) := by
  induction envs generalizing b with
  | nil => simp [extractTxs, txIndexInfos]
  | cons env envs ih =>
    rw [List.flatMap_cons, List.append_assoc] at h
    have hRest := drop_add_length_of_drop h
    rw [List.length_cons, extractTxs, Buffer.decodeRawBytes_of_drop h]
    simp only [errorsWrap, bind, Except.bind]
    rw [ih _ hRest]
    simp only [pure, Except.pure, txIndexInfos, Nat.add_sub_cancel_left, List.flatMap_cons,
      List.length_append, Nat.add_assoc]

end

theorem foldl_append_encodeRawBytes (entries : List Bytes) (buf : Bytes) :
    entries.foldl (fun buf b => buf ++ encodeRawBytes b) buf =
      buf ++ entries.flatMap encodeRawBytes := by
  induction entries generalizing buf with
  | nil => simp
  | cons entry entries ih => simp [ih]

theorem extractMetadataEntries_of_drop (entries : List Bytes) (b : Buffer) (rest : Bytes)
    (h : b.buf.drop b.idx = entries.flatMap encodeRawBytes ++ rest) :
    extractMetadataEntries entries.length b =
      .ok (entries, ⟨b.buf, b.idx + (entries.flatMap encodeRawBytes).length,
        b.position + (entries.flatMap encodeRawBytes).length⟩) := by
  induction entries generalizing b with
  | nil => simp [extractMetadataEntries]
  | cons entry entries ih =>
    rw [List.flatMap_cons, List.append_assoc] at h
    have hRest := drop_add_length_of_drop h
    rw [List.length_cons, extractMetadataEntries, Buffer.decodeRawBytes_of_drop h]
    simp only [errorsWrap, bind, Except.bind]
    rw [ih _ hRest]
    simp only [pure, Except.pure, List.flatMap_cons, List.length_append, Nat.add_assoc]

section

variable (getOrComputeTxIDFromEnvelope : Bytes → String)

theorem serializeBlock_eq_ok {block : Block} {blockBytes : Bytes} {info : SerializedBlockInfo}
    (h : serializeBlock getOrComputeTxIDFromEnvelope block = .ok (blockBytes, info)) :
    ∃ metadata, block.metadata = some metadata ∧
      blockBytes = headerBytes block.header ++ Varint.encode block.data.length ++
        block.data.flatMap encodeRawBytes ++ Varint.encode metadata.length ++
        metadata.flatMap encodeRawBytes ∧
      info = ⟨block.header, txIndexInfos getOrComputeTxIDFromEnvelope
        ((headerBytes block.header).length + (Varint.encode block.data.length).length) block.data,
        some metadata⟩ := by
  obtain ⟨header, data, metadata⟩ := block
  cases metadata with
  | none => simp [serializeBlock, addMetadataBytes, bind, Except.bind] at h
  | some metadata =>
    simp only [serializeBlock, addDataBytesAndConstructTxIndexInfo, foldl_addTxBytes,
      addMetadataBytes, foldl_append_encodeRawBytes, bind, Except.bind, pure, Except.pure,
      Except.ok.injEq, Prod.mk.injEq] at h
    obtain ⟨rfl, rfl⟩ := h
    refine ⟨metadata, rfl, ?_, ?_⟩
    · simp [addHeaderBytes, headerBytes]
    · simp [addHeaderBytes, headerBytes, Nat.add_assoc]

theorem extract_serializeBlock {block : Block} {blockBytes : Bytes} {info : SerializedBlockInfo}
    (h : serializeBlock getOrComputeTxIDFromEnvelope block = .ok (blockBytes, info)) :
    ∃ metadata b b' b'', block.metadata = some metadata ∧ info.metadata = some metadata ∧
      info.blockHeader = block.header ∧
      extractHeader (newBuffer blockBytes) = .ok (block.header, b) ∧
      extractData getOrComputeTxIDFromEnvelope b = .ok (block.data, info.txOffsets, b') ∧
      extractMetadata b' = .ok (metadata, b'') := by
  obtain ⟨metadata, hMetadata, rfl, rfl⟩ := serializeBlock_eq_ok getOrComputeTxIDFromEnvelope h
  set blockBytes := headerBytes block.header ++ Varint.encode block.data.length ++
    block.data.flatMap encodeRawBytes ++ Varint.encode metadata.length ++
    metadata.flatMap encodeRawBytes with hBytes
  have hHeader : (newBuffer blockBytes).buf.drop (newBuffer blockBytes).idx =
      headerBytes block.header ++ (Varint.encode block.data.length ++
        (block.data.flatMap encodeRawBytes ++ (Varint.encode metadata.length ++
          metadata.flatMap encodeRawBytes))) := by
    simp [newBuffer, hBytes, List.append_assoc]
  have hCount := drop_add_length_of_drop hHeader
  have hTxs := drop_add_length_of_drop hCount
  have hMetadataCount := drop_add_length_of_drop hTxs
  have hEntries : blockBytes.drop ((headerBytes block.header).length +
      (Varint.encode block.data.length).length + (block.data.flatMap encodeRawBytes).length +
      (Varint.encode metadata.length).length) = metadata.flatMap encodeRawBytes ++ [] := by
    rw [List.append_nil]
    simpa [newBuffer] using drop_add_length_of_drop hMetadataCount
  simp only [newBuffer, Nat.zero_add] at hCount hTxs hMetadataCount
  refine ⟨metadata, _, ?b', ?b'', hMetadata, rfl, rfl, extractHeader_of_drop hHeader, ?data,
    ?metadata⟩
  case data =>
    simp only [extractData, newBuffer, Nat.zero_add]
    rw [Buffer.decodeVarint_of_drop hCount]
    simp only [errorsWrap, bind, Except.bind]
    rw [extractTxs_of_drop getOrComputeTxIDFromEnvelope _ _ _ hTxs]
  case metadata =>
    simp only [extractMetadata]
    rw [Buffer.decodeVarint_of_drop hMetadataCount]
    simp only [errorsWrap, bind, Except.bind]
    rw [extractMetadataEntries_of_drop _ _ _ hEntries]

theorem extractSerializedBlockInfo_serializeBlock {block : Block} {blockBytes : Bytes}
    {info : SerializedBlockInfo}
    (h : serializeBlock getOrComputeTxIDFromEnvelope block = .ok (blockBytes, info)) :
    extractSerializedBlockInfo getOrComputeTxIDFromEnvelope blockBytes = .ok info := by
  obtain ⟨metadata, b, b', b'', -, hInfo, hHeaderInfo, hHeader, hData, hMetadata⟩ :=
    extract_serializeBlock getOrComputeTxIDFromEnvelope h
  simp only [extractSerializedBlockInfo, hHeader, hData, hMetadata, bind, Except.bind, pure,
    Except.pure, ← hInfo, ← hHeaderInfo]

theorem deserializeBlock_serializeBlock {block : Block} {blockBytes : Bytes}
    {info : SerializedBlockInfo}
    (h : serializeBlock getOrComputeTxIDFromEnvelope block = .ok (blockBytes, info)) :
    deserializeBlock getOrComputeTxIDFromEnvelope blockBytes = .ok block := by
  obtain ⟨metadata, b, b', b'', hBlock, -, -, hHeader, hData, hMetadata⟩ :=
    extract_serializeBlock getOrComputeTxIDFromEnvelope h
  simp only [deserializeBlock, hHeader, hData, hMetadata, bind, Except.bind, pure, Except.pure,
    ← hBlock]

end

/-! ## Reading stays within the bytes

Whatever the bytes are, each read of the `buffer` starts at its index and stops before their
end, and every byte slice that `deserializeBlock` returns is a slice of its input. -/

@[simp] theorem errorsWrap_eq_ok {α : Type} {msg : String} {x : Except String α} {a : α} :
    errorsWrap msg x = .ok a ↔ x = .ok a := by
  cases x <;> simp [errorsWrap]

namespace Buffer

/-- A read from `b` that stopped at `b'`: over the same bytes, forward, and not past their end. -/
def Advance (b b' : Buffer) : Prop :=
  b'.buf = b.buf ∧ b.idx ≤ b'.idx ∧ b'.idx ≤ b.buf.length

theorem Advance.refl {b : Buffer} (h : b.idx ≤ b.buf.length) : Advance b b :=
  ⟨rfl, Nat.le_refl _, h⟩

theorem Advance.trans {b b' b'' : Buffer} (h : Advance b b') (h' : Advance b' b'') :
    Advance b b'' := by
  obtain ⟨hBuf, hIdx, -⟩ := h
  obtain ⟨hBuf', hIdx', hLen'⟩ := h'
  refine ⟨hBuf'.trans hBuf, Nat.le_trans hIdx hIdx', ?_⟩
  rwa [← hBuf]

theorem Advance.idx_le_length {b b' : Buffer} (h : Advance b b') : b'.idx ≤ b'.buf.length := by
  rw [h.1]
  exact h.2.2

theorem decodeVarint_advance {b b' : Buffer} {v : Nat} (h : b.decodeVarint = .ok (v, b')) :
    Advance b b' ∧ b.idx < b'.idx := by
  unfold decodeVarint at h
  split at h
  next val n hDecode =>
    have hLen := Varint.decode_length hDecode
    rw [List.length_drop] at hLen
    simp only [Except.ok.injEq, Prod.mk.injEq] at h
    obtain ⟨-, rfl⟩ := h
    exact ⟨⟨rfl, by simp, by simp only; omega⟩, by simp only; omega⟩
  next => simp [errorsWrap] at h

theorem decodeRawBytes_advance {b b' : Buffer} {x : Bytes} (h : b.decodeRawBytes = .ok (x, b')) :
    (Advance b b' ∧ b.idx < b'.idx) ∧ x <:+: b.buf := by
  unfold decodeRawBytes at h
  split at h
  next m n hDecode =>
    have hLen := Varint.decode_length hDecode
    rw [List.length_drop] at hLen
    dsimp only at h
    split at h
    next hFits =>
      rw [List.length_drop] at hFits
      simp only [Except.ok.injEq, Prod.mk.injEq] at h
      obtain ⟨rfl, rfl⟩ := h
      refine ⟨⟨⟨rfl, by simp only; omega, by simp only; omega⟩, by simp only; omega⟩, ?_⟩
      exact (List.take_prefix _ _).isInfix.trans (List.drop_suffix _ _).isInfix
    next => simp [errorsWrap] at h
  next => simp [errorsWrap] at h

end Buffer

open Buffer

theorem extractHeader_advance {b b' : Buffer} {blockHeader : BlockHeader}
    (h : extractHeader b = .ok (blockHeader, b')) :
    Advance b b' ∧ blockHeader.dataHash <:+: b.buf ∧ blockHeader.previousHash <:+: b.buf := by
  simp only [extractHeader, bind_eq_ok, errorsWrap_eq_ok] at h
  obtain ⟨⟨number, b₁⟩, h₁, ⟨dataHash, b₂⟩, h₂, ⟨previousHash, b₃⟩, h₃, hEq⟩ := h
  obtain ⟨hAdv₁, -⟩ := decodeVarint_advance h₁
  obtain ⟨⟨hAdv₂, -⟩, hDataHash⟩ := decodeRawBytes_advance h₂
  obtain ⟨⟨hAdv₃, -⟩, hPreviousHash⟩ := decodeRawBytes_advance h₃
  simp only [pure, Except.pure, Except.ok.injEq, Prod.mk.injEq] at hEq
  obtain ⟨rfl, rfl⟩ := hEq
  refine ⟨hAdv₁.trans (hAdv₂.trans hAdv₃), ?_, ?_⟩
  · rwa [hAdv₁.1] at hDataHash
  · rwa [hAdv₂.1, hAdv₁.1] at hPreviousHash

section

variable (getOrComputeTxIDFromEnvelope : Bytes → String)

theorem extractTxs_advance {numItems : Nat} {b b' : Buffer} {data : List Bytes}
    {txOffsets : List TxIndexInfo} (hb : b.idx ≤ b.buf.length)
    (h : extractTxs getOrComputeTxIDFromEnvelope numItems b = .ok (data, txOffsets, b')) :
    Advance b b' ∧ ∀ d ∈ data, d <:+: b.buf := by
  induction numItems generalizing b b' data txOffsets with
  | zero =>
    simp only [extractTxs, Except.ok.injEq, Prod.mk.injEq] at h
    obtain ⟨rfl, -, rfl⟩ := h
    exact ⟨Advance.refl hb, by simp⟩
  | succ numItems ih =>
    simp only [extractTxs, bind_eq_ok, errorsWrap_eq_ok] at h
    obtain ⟨⟨txEnvBytes, b₁⟩, h₁, ⟨data', txOffsets', b₂⟩, h₂, hEq⟩ := h
    obtain ⟨⟨hAdv₁, -⟩, hEnv⟩ := decodeRawBytes_advance h₁
    obtain ⟨hAdv₂, hData⟩ := ih hAdv₁.idx_le_length h₂
    simp only [pure, Except.pure, Except.ok.injEq, Prod.mk.injEq] at hEq
    obtain ⟨rfl, -, rfl⟩ := hEq
    refine ⟨hAdv₁.trans hAdv₂, ?_⟩
    intro d hd
    rcases List.mem_cons.1 hd with rfl | hd
    · exact hEnv
    · rw [← hAdv₁.1]
      exact hData d hd

theorem extractData_advance {b b' : Buffer} {data : List Bytes} {txOffsets : List TxIndexInfo}
    (h : extractData getOrComputeTxIDFromEnvelope b = .ok (data, txOffsets, b')) :
    Advance b b' ∧ ∀ d ∈ data, d <:+: b.buf := by
  simp only [extractData, bind_eq_ok, errorsWrap_eq_ok] at h
  obtain ⟨⟨numItems, b₁⟩, h₁, h₂⟩ := h
  obtain ⟨hAdv₁, -⟩ := decodeVarint_advance h₁
  obtain ⟨hAdv₂, hData⟩ := extractTxs_advance getOrComputeTxIDFromEnvelope hAdv₁.idx_le_length h₂
  rw [hAdv₁.1] at hData
  exact ⟨hAdv₁.trans hAdv₂, hData⟩

end

theorem extractMetadataEntries_advance {numItems : Nat} {b b' : Buffer} {metadata : List Bytes}
    (hb : b.idx ≤ b.buf.length) (h : extractMetadataEntries numItems b = .ok (metadata, b')) :
    Advance b b' ∧ ∀ m ∈ metadata, m <:+: b.buf := by
  induction numItems generalizing b b' metadata with
  | zero =>
    simp only [extractMetadataEntries, Except.ok.injEq, Prod.mk.injEq] at h
    obtain ⟨rfl, rfl⟩ := h
    exact ⟨Advance.refl hb, by simp⟩
  | succ numItems ih =>
    simp only [extractMetadataEntries, bind_eq_ok, errorsWrap_eq_ok] at h
    obtain ⟨⟨metadataEntry, b₁⟩, h₁, ⟨metadata', b₂⟩, h₂, hEq⟩ := h
    obtain ⟨⟨hAdv₁, -⟩, hEntry⟩ := decodeRawBytes_advance h₁
    obtain ⟨hAdv₂, hMetadata⟩ := ih hAdv₁.idx_le_length h₂
    simp only [pure, Except.pure, Except.ok.injEq, Prod.mk.injEq] at hEq
    obtain ⟨rfl, rfl⟩ := hEq
    refine ⟨hAdv₁.trans hAdv₂, ?_⟩
    intro m hm
    rcases List.mem_cons.1 hm with rfl | hm
    · exact hEntry
    · rw [← hAdv₁.1]
      exact hMetadata m hm

theorem extractMetadata_advance {b b' : Buffer} {metadata : List Bytes}
    (h : extractMetadata b = .ok (metadata, b')) :
    Advance b b' ∧ ∀ m ∈ metadata, m <:+: b.buf := by
  simp only [extractMetadata, bind_eq_ok, errorsWrap_eq_ok] at h
  obtain ⟨⟨numItems, b₁⟩, h₁, h₂⟩ := h
  obtain ⟨hAdv₁, -⟩ := decodeVarint_advance h₁
  obtain ⟨hAdv₂, hMetadata⟩ := extractMetadataEntries_advance hAdv₁.idx_le_length h₂
  rw [hAdv₁.1] at hMetadata
  exact ⟨hAdv₁.trans hAdv₂, hMetadata⟩

section

variable (getOrComputeTxIDFromEnvelope : Bytes → String)

theorem deserializeBlock_infix {serializedBlockBytes : Bytes} {block : Block}
    (h : deserializeBlock getOrComputeTxIDFromEnvelope serializedBlockBytes = .ok block) :
    block.header.dataHash <:+: serializedBlockBytes ∧
      block.header.previousHash <:+: serializedBlockBytes ∧
      (∀ d ∈ block.data, d <:+: serializedBlockBytes) ∧
      ∀ metadata ∈ block.metadata, ∀ m ∈ metadata, m <:+: serializedBlockBytes := by
  simp only [deserializeBlock, bind_eq_ok] at h
  obtain ⟨⟨header, b₁⟩, h₁, ⟨data, txOffsets, b₂⟩, h₂, ⟨metadata, b₃⟩, h₃, hEq⟩ := h
  obtain ⟨hAdv₁, hDataHash, hPreviousHash⟩ := extractHeader_advance h₁
  obtain ⟨hAdv₂, hData⟩ := extractData_advance getOrComputeTxIDFromEnvelope h₂
  obtain ⟨-, hMetadata⟩ := extractMetadata_advance h₃
  simp only [pure, Except.pure, Except.ok.injEq] at hEq
  subst hEq
  rw [hAdv₁.1] at hData
  rw [hAdv₂.1, hAdv₁.1] at hMetadata
  refine ⟨hDataHash, hPreviousHash, hData, ?_⟩
  intro metadata' hSome
  cases hSome
  exact hMetadata

/-! ## Where the envelopes lie -/

theorem length_txIndexInfos (start : Nat) (envs : List Bytes) :
    (txIndexInfos getOrComputeTxIDFromEnvelope start envs).length = envs.length := by
  induction envs generalizing start with
  | nil => rfl
  | cons env envs ih => simp [txIndexInfos, ih]

theorem txIndexInfos_slice {blockBytes rest : Bytes} {start : Nat} {envs : List Bytes}
    (h : blockBytes.drop start = envs.flatMap encodeRawBytes ++ rest) {j : Nat}
    (hj : j < envs.length) :
    ∃ t, (txIndexInfos getOrComputeTxIDFromEnvelope start envs)[j]? = some t ∧
      t.txID = getOrComputeTxIDFromEnvelope envs[j] ∧
      (blockBytes.drop t.loc.offset).take t.loc.bytesLength = encodeRawBytes envs[j] := by
  induction envs generalizing start j with
  | nil => simp at hj
  | cons env envs ih =>
    rw [List.flatMap_cons, List.append_assoc] at h
    cases j with
    | zero =>
      refine ⟨_, rfl, rfl, ?_⟩
      simp only [h, List.take_left, List.getElem_cons_zero]
    | succ j =>
      obtain ⟨t, ht, hTxID, hSlice⟩ := ih (drop_add_length_of_drop h) (by simpa using hj)
      exact ⟨t, by simpa [txIndexInfos] using ht, hTxID, hSlice⟩

theorem serializeBlock_txOffsets {block : Block} {blockBytes : Bytes} {info : SerializedBlockInfo}
    (h : serializeBlock getOrComputeTxIDFromEnvelope block = .ok (blockBytes, info)) :
    info.txOffsets.length = block.data.length ∧
      ∀ j (hj : j < block.data.length), ∃ t, info.txOffsets[j]? = some t ∧
        t.txID = getOrComputeTxIDFromEnvelope block.data[j] ∧
        (blockBytes.drop t.loc.offset).take t.loc.bytesLength = encodeRawBytes block.data[j] := by
  obtain ⟨metadata, -, rfl, rfl⟩ := serializeBlock_eq_ok getOrComputeTxIDFromEnvelope h
  have hBlock : (headerBytes block.header ++ Varint.encode block.data.length ++
      block.data.flatMap encodeRawBytes ++ Varint.encode metadata.length ++
      metadata.flatMap encodeRawBytes).drop 0 = headerBytes block.header ++
        (Varint.encode block.data.length ++ (block.data.flatMap encodeRawBytes ++
          (Varint.encode metadata.length ++ metadata.flatMap encodeRawBytes))) := by
    simp only [List.drop_zero, List.append_assoc]
  have hTxs := drop_add_length_of_drop (drop_add_length_of_drop hBlock)
  rw [Nat.zero_add] at hTxs
  exact ⟨length_txIndexInfos _ _ _, fun j hj => txIndexInfos_slice _ hTxs hj⟩

theorem serializeBlock_of_metadata {block : Block} {metadata : List Bytes}
    (h : block.metadata = some metadata) :
    ∃ blockBytes info, serializeBlock getOrComputeTxIDFromEnvelope block = .ok (blockBytes, info) := by
  obtain ⟨header, data, metadata'⟩ := block
  subst h
  exact ⟨_, _, rfl⟩

/-- A block with metadata is written, and read back as itself and with the index information
that writing recorded, each envelope at its recorded offset; reading any bytes reads only within
them, and the slices of a block read from them are theirs. -/
theorem serializeBlock_round_trips_with_exact_offsets :
    (∀ (block : Block) (metadata : List Bytes), block.metadata = some metadata →
      ∃ blockBytes info,
        serializeBlock getOrComputeTxIDFromEnvelope block = .ok (blockBytes, info) ∧
        deserializeBlock getOrComputeTxIDFromEnvelope blockBytes = .ok block ∧
        extractSerializedBlockInfo getOrComputeTxIDFromEnvelope blockBytes = .ok info ∧
        info.txOffsets.length = block.data.length ∧
        ∀ j (hj : j < block.data.length), ∃ t, info.txOffsets[j]? = some t ∧
          (blockBytes.drop t.loc.offset).take t.loc.bytesLength =
            Varint.encode block.data[j].length ++ block.data[j]) ∧
    (∀ (b b' : Buffer) (v : Nat), b.decodeVarint = .ok (v, b') → Advance b b') ∧
    (∀ (b b' : Buffer) (x : Bytes), b.decodeRawBytes = .ok (x, b') →
      Advance b b' ∧ x <:+: b.buf) ∧
    ∀ (serializedBlockBytes : Bytes) (block : Block),
      deserializeBlock getOrComputeTxIDFromEnvelope serializedBlockBytes = .ok block →
        block.header.dataHash <:+: serializedBlockBytes ∧
        block.header.previousHash <:+: serializedBlockBytes ∧
        (∀ d ∈ block.data, d <:+: serializedBlockBytes) ∧
        ∀ metadata ∈ block.metadata, ∀ m ∈ metadata, m <:+: serializedBlockBytes := by
  refine ⟨?roundTrip, fun b b' v h => (decodeVarint_advance h).1,
    fun b b' x h => ⟨(decodeRawBytes_advance h).1.1, (decodeRawBytes_advance h).2⟩,
    fun _ _ h => deserializeBlock_infix getOrComputeTxIDFromEnvelope h⟩
  case roundTrip =>
    intro block metadata hMetadata
    obtain ⟨blockBytes, info, h⟩ := serializeBlock_of_metadata getOrComputeTxIDFromEnvelope hMetadata
    obtain ⟨hLength, hSlices⟩ := serializeBlock_txOffsets getOrComputeTxIDFromEnvelope h
    refine ⟨blockBytes, info, h, deserializeBlock_serializeBlock _ h,
      extractSerializedBlockInfo_serializeBlock _ h, hLength, ?_⟩
    intro j hj
    obtain ⟨t, ht, -, hSlice⟩ := hSlices j hj
    exact ⟨t, ht, hSlice⟩

end

end FabricPeer.Blkstorage
