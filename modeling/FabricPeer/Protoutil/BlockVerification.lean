import FabricPeer.Protoutil.BlockUtils

/-! # What a verified block binds

Two checks accept a block. `MSPMessageCryptoService.VerifyBlock` (`internal/peer/gossip/mcs.go`)
checks its number, the channel named by its first envelope, its data hash and the signatures on
its header; `cluster.VerifyBlockHash` (`orderer/common/cluster/util.go`) checks the data hash of a
block of a buffer and its link to the block before it. Both read the data of a block only
through its first envelope and the concatenation of its envelopes, since that is what the data
hash is over: a block with one more empty envelope, or with the boundary between two envelopes
moved, passes exactly when the block does.

What the checks bind, SHA-256 being collision free, is the concatenation: two verified blocks
with one header have the same concatenated data, and along two buffers whose blocks all pass
`VerifyBlockHash` and that end in one header, every header and every concatenation agree,
through the injectivity of the DER encoding of headers.
-/

namespace FabricPeer.Protoutil

open FabricPeer.Blkstorage
open FabricPeer.Ledger (Bytes)

set_option autoImplicit false

/-- What `VerifyBlock` reads of a channel: the block validation policy of its policy manager
(`none` for a nil manager), whether its capabilities enable BFT, and the consenters of its
orderer section (`none` without one). -/
structure ChannelConfig where
  blockValidationPolicy : Option Policy
  consensusTypeBFT : Bool
  ordererConsenters : Option (List Consenter)

section

variable (codec : Codec)

/-- `MSPMessageCryptoService.VerifyBlock`. -/
def verifyBlock (channelConfig : String → ChannelConfig) (chainID : String) (seqNum : ℕ)
    (block : Block) : Except String Unit := do
  let blockSeqNum := block.header.number
  if seqNum ≠ blockSeqNum then
    throw s!"Claimed seqNum is [{seqNum}] but actual seqNum inside block is [{blockSeqNum}]"
  let channelID ← match getChannelIDFromBlock codec block with
    | .ok channelID => pure channelID
    | .error err =>
      throw s!"Failed getting channel id from block with id [{blockSeqNum}] on channel [{chainID}]: [{err}]"
  if channelID ≠ chainID then
    throw s!"Invalid block\x27s channel id. Expected [{chainID}]. Given [{channelID}]"
  if (block.metadata.getD []).isEmpty then
    throw s!"Block with id [{blockSeqNum}] on channel [{chainID}] does not have metadata. Block not valid."
  if blockDataHash codec block.data ≠ block.header.dataHash then
    throw s!"Header.DataHash is different from Hash(block.Data) for block with id [{blockSeqNum}] on channel [{chainID}]"
  let config := channelConfig channelID
  let policy ← match config.blockValidationPolicy with
    | none => throw s!"Could not acquire policy manager for channel {channelID}"
    | some policy => pure policy
  let consenters ← if config.consensusTypeBFT then
      match config.ordererConsenters with
      | none => throw s!"no orderer section in channel config for channel [{channelID}]."
      | some consenters => pure consenters
    else pure []
  blockSignatureVerifier codec config.consensusTypeBFT consenters policy block.header block.metadata

/-- `cluster.VerifyBlockHash`. -/
def verifyBlockHash (indexInBuffer : ℕ) (blockBuff : List Block) : Except String Unit :=
  if h : indexInBuffer < blockBuff.length then
    let block := blockBuff[indexInBuffer]
    let seq := block.header.number
    let dataHash := blockDataHash codec block.data
    if dataHash ≠ block.header.dataHash then
      let computedHash := goHex dataHash
      let claimedHash := goHex block.header.dataHash
      .error s!"computed hash of block ({seq}) ({computedHash}) doesn\x27t match claimed hash ({claimedHash})"
    else if 0 < indexInBuffer then
      let prevBlock := blockBuff[indexInBuffer - 1]
      let currSeq := block.header.number
      let prevSeq := prevBlock.header.number
      if (prevSeq + 1) % 2 ^ 64 ≠ currSeq then
        .error s!"sequences {prevSeq} and {currSeq} were received consecutively"
      else if block.header.previousHash ≠ blockHeaderHash codec prevBlock.header then
        let claimedPrevHash := goHex block.header.previousHash
        let actualPrevHash := goHex (blockHeaderHash codec prevBlock.header)
        .error s!"block [{prevSeq}]\x27s hash ({actualPrevHash}) mismatches block [{currSeq}]\x27s prev block hash ({claimedPrevHash})"
      else .ok ()
    else .ok ()
  else
    let total := blockBuff.length
    .error s!"index {indexInBuffer} out of bounds (total {total} blocks)"

theorem verifyBlock_eq_ok {channelConfig : String → ChannelConfig} {chainID : String}
    {seqNum : ℕ} {block : Block} :
    verifyBlock codec channelConfig chainID seqNum block = .ok () ↔
      seqNum = block.header.number ∧ getChannelIDFromBlock codec block = .ok chainID ∧
      block.metadata.getD [] ≠ [] ∧ blockDataHash codec block.data = block.header.dataHash ∧
      ∃ policy consenters, (channelConfig chainID).blockValidationPolicy = some policy ∧
        (if (channelConfig chainID).consensusTypeBFT then (channelConfig chainID).ordererConsenters
          else some []) = some consenters ∧
        blockSignatureVerifier codec (channelConfig chainID).consensusTypeBFT consenters policy
          block.header block.metadata = .ok () := by
  unfold verifyBlock
  by_cases hSeq : seqNum = block.header.number
  case neg => simp [hSeq]
  case pos =>
    cases getChannelIDFromBlock codec block with
    | error err => simp [hSeq]
    | ok channelID =>
      by_cases hId : channelID = chainID
      case neg => simp [hSeq, hId]
      case pos =>
        subst hId
        by_cases hMetadata : block.metadata.getD [] = []
        case pos => simp [hSeq, hMetadata]
        case neg =>
          by_cases hData : blockDataHash codec block.data = block.header.dataHash
          case neg => simp [hSeq, hMetadata, hData]
          case pos =>
            cases hPolicy : (channelConfig channelID).blockValidationPolicy with
            | none => simp [hSeq, hMetadata, hData, hPolicy]
            | some policy =>
              cases hBft : (channelConfig channelID).consensusTypeBFT
              case false => simp [hSeq, hMetadata, hData, hPolicy, hBft]
              case true =>
                cases hConsenters : (channelConfig channelID).ordererConsenters with
                | none => simp [hSeq, hMetadata, hData, hPolicy, hBft, hConsenters]
                | some consenters => simp [hSeq, hMetadata, hData, hPolicy, hBft, hConsenters]

theorem verifyBlockHash_eq_ok {indexInBuffer : ℕ} {blockBuff : List Block} :
    verifyBlockHash codec indexInBuffer blockBuff = .ok () ↔
      ∃ h : indexInBuffer < blockBuff.length,
        blockDataHash codec blockBuff[indexInBuffer].data = blockBuff[indexInBuffer].header.dataHash ∧
        (0 < indexInBuffer →
          (blockBuff[indexInBuffer - 1].header.number + 1) % 2 ^ 64 =
            blockBuff[indexInBuffer].header.number ∧
          blockBuff[indexInBuffer].header.previousHash =
            blockHeaderHash codec blockBuff[indexInBuffer - 1].header) := by
  unfold verifyBlockHash
  by_cases h : indexInBuffer < blockBuff.length
  case neg => simp [h]
  case pos =>
    simp only [h, exists_true_left]
    split_ifs <;> simp_all

section

variable (hCollisionFree : Function.Injective codec.sha256)
include hCollisionFree

theorem flatten_eq_of_verifyBlock {channelConfig : String → ChannelConfig} {chainID : String}
    {seqNum : ℕ} {block block' : Block}
    (hOk : verifyBlock codec channelConfig chainID seqNum block = .ok ())
    (hOk' : verifyBlock codec channelConfig chainID seqNum block' = .ok ())
    (hHeader : block.header = block'.header) : block.data.flatten = block'.data.flatten := by
  obtain ⟨-, -, -, hData, -⟩ := (verifyBlock_eq_ok codec).1 hOk
  obtain ⟨-, -, -, hData', -⟩ := (verifyBlock_eq_ok codec).1 hOk'
  apply hCollisionFree
  calc codec.sha256 block.data.flatten = block.header.dataHash := hData
    _ = block'.header.dataHash := by rw [hHeader]
    _ = codec.sha256 block'.data.flatten := hData'.symm

theorem header_eq_of_previousHash_eq {header header' : BlockHeader}
    (hRep : HeaderRepresentable header) (hRep' : HeaderRepresentable header')
    (hLink : blockHeaderHash codec header = blockHeaderHash codec header') : header = header' :=
  blockHeaderBytes_injective hRep hRep' (hCollisionFree hLink)

theorem verifyBlockHash_binds_buffer {blockBuff blockBuff' : List Block}
    (hLength : blockBuff.length = blockBuff'.length)
    (hOk : ∀ i < blockBuff.length, verifyBlockHash codec i blockBuff = .ok ())
    (hOk' : ∀ i < blockBuff'.length, verifyBlockHash codec i blockBuff' = .ok ())
    (hRep : ∀ block ∈ blockBuff ++ blockBuff', HeaderRepresentable block.header)
    (hLast : blockBuff.getLast?.map (·.header) = blockBuff'.getLast?.map (·.header))
    (i : ℕ) (h : i < blockBuff.length) (h' : i < blockBuff'.length) :
    blockBuff[i].header = blockBuff'[i].header ∧
      blockBuff[i].data.flatten = blockBuff'[i].data.flatten := by
  have hHeaders : ∀ d i (h : i < blockBuff.length) (h' : i < blockBuff'.length),
      i + d + 1 = blockBuff.length → blockBuff[i].header = blockBuff'[i].header := by
    intro d
    induction d with
    | zero =>
      intro i h h' hi
      have hLastAt := hLast
      rw [List.getLast?_eq_getElem?, List.getLast?_eq_getElem?, ← hLength,
        List.getElem?_eq_getElem (by omega), List.getElem?_eq_getElem (by omega)] at hLastAt
      have hIndex : blockBuff.length - 1 = i := by omega
      simpa [hIndex] using hLastAt
    | succ d ih =>
      intro i h h' hi
      have hNext := ih (i + 1) (by omega) (by omega) (by omega)
      obtain ⟨_, -, hLink⟩ := (verifyBlockHash_eq_ok codec).1 (hOk (i + 1) (by omega))
      obtain ⟨_, -, hLink'⟩ := (verifyBlockHash_eq_ok codec).1 (hOk' (i + 1) (by omega))
      obtain ⟨-, hPrevious⟩ := hLink (by omega)
      obtain ⟨-, hPrevious'⟩ := hLink' (by omega)
      simp only [Nat.add_sub_cancel] at hPrevious hPrevious'
      apply header_eq_of_previousHash_eq codec hCollisionFree
        (hRep _ (List.mem_append_left _ (List.getElem_mem h)))
        (hRep _ (List.mem_append_right _ (List.getElem_mem h')))
      rw [← hPrevious, ← hPrevious', hNext]
  have hHeader := hHeaders (blockBuff.length - i - 1) i h h' (by omega)
  refine ⟨hHeader, ?_⟩
  obtain ⟨_, hData, -⟩ := (verifyBlockHash_eq_ok codec).1 (hOk i h)
  obtain ⟨_, hData', -⟩ := (verifyBlockHash_eq_ok codec).1 (hOk' i h')
  apply hCollisionFree
  calc codec.sha256 blockBuff[i].data.flatten = blockBuff[i].header.dataHash := hData
    _ = blockBuff'[i].header.dataHash := by rw [hHeader]
    _ = codec.sha256 blockBuff'[i].data.flatten := hData'.symm

end

/-- What verified blocks bind, SHA-256 being collision free: two blocks that pass `VerifyBlock`
with one header have the same concatenated data; two buffers of one length whose blocks all pass
`VerifyBlockHash` and that end in one header agree, block by block, on the header and the
concatenated data. -/
theorem verifiedBlocks_bind_joined_data (hCollisionFree : Function.Injective codec.sha256) :
    (∀ (channelConfig : String → ChannelConfig) (chainID : String) (seqNum : ℕ)
      (block block' : Block),
      verifyBlock codec channelConfig chainID seqNum block = .ok () →
      verifyBlock codec channelConfig chainID seqNum block' = .ok () →
      block.header = block'.header → block.data.flatten = block'.data.flatten) ∧
    ∀ blockBuff blockBuff' : List Block, blockBuff.length = blockBuff'.length →
      (∀ i < blockBuff.length, verifyBlockHash codec i blockBuff = .ok ()) →
      (∀ i < blockBuff'.length, verifyBlockHash codec i blockBuff' = .ok ()) →
      (∀ block ∈ blockBuff ++ blockBuff', HeaderRepresentable block.header) →
      blockBuff.getLast?.map (·.header) = blockBuff'.getLast?.map (·.header) →
      ∀ i (h : i < blockBuff.length) (h' : i < blockBuff'.length),
        blockBuff[i].header = blockBuff'[i].header ∧
          blockBuff[i].data.flatten = blockBuff'[i].data.flatten := by
  constructor
  · intro channelConfig chainID seqNum block block' hOk hOk' hHeader
    exact flatten_eq_of_verifyBlock codec hCollisionFree hOk hOk' hHeader
  · intro blockBuff blockBuff' hLength hOk hOk' hRep hLast
    exact verifyBlockHash_binds_buffer codec hCollisionFree hLength hOk hOk' hRep hLast

end

def exampleCodec : Codec where
  sha256 := id
  getEnvelopeFromBlock := .ok
  unmarshalPayload := fun envelope => .ok (some envelope)
  unmarshalChannelHeader := fun _ => .ok "mychannel"
  unmarshalMetadata := fun entry => .ok ⟨[], [⟨[7], entry, []⟩]⟩
  unmarshalIdentifierHeader := fun _ => .error "no identifier header"
  unmarshalSignatureHeader := fun signatureHeader => .ok signatureHeader
  marshalSerializedIdentity := fun _ identity => identity

def examplePolicy : Policy := fun signatureSet =>
  if signatureSet.any (fun sd => sd.identity == [7] && sd.signature == sd.identity ++ sd.data) then
    .ok ()
  else .error "signature set did not satisfy policy"

def exampleChannel : String → ChannelConfig := fun _ => ⟨some examplePolicy, false, none⟩

theorem verifiedBlocks_bind_joined_data_split_envelope :
    let header : BlockHeader := ⟨0, [1, 2, 3], []⟩
    let signatures : Option (List Bytes) := some [[7, 7] ++ blockHeaderBytes header]
    let next : Block := ⟨⟨1, [4], blockHeaderHash exampleCodec header⟩, [[4]], none⟩
    let blockBuff : List Block := [⟨header, [[1], [2, 3]], signatures⟩, next]
    let blockBuff' : List Block := [⟨header, [[1], [2], [3]], signatures⟩, next]
    ([[1], [2, 3]] : List Bytes).flatten = [[1], [2], [3]].flatten ∧
      ∀ i (_ : i < blockBuff.length) (h' : i < blockBuff'.length),
        blockBuff[i].header = blockBuff'[i].header ∧
          blockBuff[i].data.flatten = blockBuff'[i].data.flatten := by
  intro header signatures next blockBuff blockBuff'
  have hBind := verifiedBlocks_bind_joined_data exampleCodec Function.injective_id
  have hRep : ∀ block ∈ blockBuff ++ blockBuff', HeaderRepresentable block.header := by
    intro block hBlock
    simp only [blockBuff, blockBuff', List.cons_append, List.nil_append, List.mem_cons,
      List.not_mem_nil, or_false] at hBlock
    rcases hBlock with rfl | rfl | rfl | rfl <;> (unfold HeaderRepresentable; decide)
  exact ⟨hBind.1 exampleChannel "mychannel" 0 ⟨header, [[1], [2, 3]], signatures⟩
      ⟨header, [[1], [2], [3]], signatures⟩ (by decide) (by decide) rfl,
    hBind.2 blockBuff blockBuff' rfl (by decide) (by decide) hRep rfl⟩

theorem verifyBlock_accepts_split_envelope :
    let header : BlockHeader := ⟨0, [1, 2, 3], []⟩
    let signatures : Option (List Bytes) := some [[7, 7] ++ blockHeaderBytes header]
    let block : Block := ⟨header, [[1], [2, 3]], signatures⟩
    let block' : Block := ⟨header, [[1], [2], [3]], signatures⟩
    let next : Block := ⟨⟨1, [4], blockHeaderHash exampleCodec header⟩, [[4]], none⟩
    verifyBlock exampleCodec exampleChannel "mychannel" 0 block = .ok () ∧
    verifyBlock exampleCodec exampleChannel "mychannel" 0 block' = .ok () ∧
    block.data ≠ block'.data ∧
    (∀ i < 2, verifyBlockHash exampleCodec i [block, next] = .ok ()) ∧
    (∀ i < 2, verifyBlockHash exampleCodec i [block', next] = .ok ()) := by
  decide

end FabricPeer.Protoutil
