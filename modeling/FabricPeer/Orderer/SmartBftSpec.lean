import FabricPeer.Orderer.SmartBft
import FabricPeer.Protoutil.BlockVerification

/-! # What `VerifyProposal` fixes of the block

`VerifyProposal` checks the previous hash and the data hash of the proposed block, its view
metadata, its last-config entries and its requests, but it never compares the block's number
with the last block's: the number is read only to decide the last config of a config block. A
follower therefore accepts, for every proposal of a block that is not a config block, the same
proposal with its header re-encoded under any other number.
-/

namespace FabricPeer.SmartBft

open FabricPeer.Blkstorage FabricPeer.Protoutil GoRun
open FabricPeer.Ledger (Bytes)

set_option autoImplicit false

/-- `asn1.Unmarshal` reads back every header `asn1.Marshal` writes. -/
def HeaderCodecLawful (bft : BftCodec) : Prop :=
  ∀ header, HeaderRepresentable header → bft.unmarshalAsn1Header (blockHeaderBytes header) = .ok header

theorem blockHeaderBytes_ne_nil (header : BlockHeader) : blockHeaderBytes header ≠ [] := by
  simp [blockHeaderBytes, Asn1.tlv]

section

variable (codec : Codec) (bft : BftCodec)

theorem proposalToBlock_eq_ok {proposal : Proposal} {block : Block} :
    proposalToBlock bft proposal = .ok block ↔
      proposal.header ≠ [] ∧ bft.unmarshalAsn1Header proposal.header = .ok block.header ∧
      proposal.payload ≠ [] ∧
      ∃ data metadata entries, bft.unmarshalTuple proposal.payload = .ok (data, metadata) ∧
        bft.unmarshalBlockData data = .ok block.data ∧
        bft.unmarshalBlockMetadata metadata = .ok entries ∧ block.metadata = some entries := by
  obtain ⟨header, data, metadata⟩ := block
  unfold proposalToBlock
  by_cases hHeader : proposal.header = []
  case pos => simp [hHeader]
  case neg =>
    cases bft.unmarshalAsn1Header proposal.header with
    | error err => simp [hHeader, wrapError, errorsWrap]
    | ok hdr =>
      by_cases hPayload : proposal.payload = []
      case pos => simp [hHeader, hPayload, wrapError, errorsWrap]
      case neg =>
        cases hTuple : bft.unmarshalTuple proposal.payload with
        | error err => simp [hHeader, hPayload, wrapError, errorsWrap]
        | ok tuple =>
          obtain ⟨a, b⟩ := tuple
          cases hData : bft.unmarshalBlockData a with
          | error err => simp [hHeader, hPayload, hData, wrapError, errorsWrap]
          | ok data =>
            cases hMetadata : bft.unmarshalBlockMetadata b with
            | error err => simp [hHeader, hPayload, hData, hMetadata, wrapError, errorsWrap]
            | ok entries =>
              simp [hHeader, hPayload, hData, hMetadata, wrapError, errorsWrap]
              rintro rfl rfl
              exact eq_comm

theorem proposalToBlock_renumber (hLawful : HeaderCodecLawful bft) {proposal : Proposal}
    {block : Block} (hBlock : proposalToBlock bft proposal = .ok block) (number : ℕ)
    (hRep : HeaderRepresentable { block.header with number := number }) :
    proposalToBlock bft
        { proposal with header := blockHeaderBytes { block.header with number := number } } =
      .ok { block with header := { block.header with number := number } } := by
  obtain ⟨-, -, hPayload, hBody⟩ := (proposalToBlock_eq_ok bft).1 hBlock
  exact (proposalToBlock_eq_ok bft).2 ⟨blockHeaderBytes_ne_nil _, hLawful _ hRep, hPayload, hBody⟩

theorem verifyHashChain_renumber (block : Block) (prevHeaderHash : String) (number : ℕ) :
    verifyHashChain codec { block with header := { block.header with number := number } }
      prevHeaderHash = verifyHashChain codec block prevHeaderHash := rfl

theorem verifyBlockDataAndMetadata_renumber {rtc : RuntimeConfig} {block : Block}
    {metadata : Bytes} (hNotConfig : isConfigBlock bft block.data = false) (number : ℕ) :
    verifyBlockDataAndMetadata bft rtc { block with header := { block.header with number := number } }
      metadata = verifyBlockDataAndMetadata bft rtc block metadata := by
  simp only [verifyBlockDataAndMetadata, getMetadataFromBlock, hNotConfig, Bool.false_eq_true,
    ↓reduceIte]

/-- A follower that accepts a proposal of a block that is not a config block accepts it under
every other block number as well, with the same requests: nothing ties the number of the
proposed block to the last block's. -/
theorem verifyProposal_accepts_any_block_number (hLawful : HeaderCodecLawful bft)
    {rtc : RuntimeConfig} {verificationSeq : ℕ} {proposal : Proposal} {block : Block}
    {requests : List RequestInfo} (hBlock : proposalToBlock bft proposal = .ok block)
    (hNotConfig : isConfigBlock bft block.data = false)
    (hOk : verifyProposal codec bft rtc verificationSeq proposal = .ok requests)
    (number : ℕ) (hRep : HeaderRepresentable { block.header with number := number }) :
    proposalToBlock bft
        { proposal with header := blockHeaderBytes { block.header with number := number } } =
      .ok { block with header := { block.header with number := number } } ∧
    verifyProposal codec bft rtc verificationSeq
        { proposal with header := blockHeaderBytes { block.header with number := number } } =
      .ok requests := by
  have hBlock' := proposalToBlock_renumber bft hLawful hBlock number hRep
  refine ⟨hBlock', ?_⟩
  rw [← hOk]
  simp only [verifyProposal, hBlock, hBlock', ok_bind, verifyHashChain_renumber,
    verifyBlockDataAndMetadata_renumber bft hNotConfig]

end

def exampleBftCodec : BftCodec where
  unmarshalAsn1Header := fun bytes =>
    match parseBlockHeader bytes with
    | some header => .ok header
    | none => .error "asn1: syntax error"
  unmarshalTuple := fun bytes =>
    match (do
        let (contents, _) ← Asn1.readTlv 0x30 bytes
        let (a, rest) ← Asn1.readTlv 0x04 contents
        let (b, _) ← Asn1.readTlv 0x04 rest
        pure (a, b) : Option (Bytes × Bytes)) with
    | some tuple => .ok tuple
    | none => .error "asn1: syntax error"
  unmarshalBlockData := fun bytes =>
    match Asn1.readTlvs 0x04 bytes.length bytes with
    | some data => .ok data
    | none => .error "proto: bad block data"
  unmarshalBlockMetadata := fun bytes =>
    match Asn1.readTlvs 0x04 bytes.length bytes with
    | some entries => .ok entries
    | none => .error "proto: bad block metadata"
  unmarshalMetadata := .ok
  unmarshalOrdererBlockMetadata := fun bytes =>
    match (do
        let (consenterMetadata, rest) ← Asn1.readTlv 0x04 bytes
        let (index, _) ← Asn1.readTlv 0x02 rest
        pure ⟨consenterMetadata, some (Asn1.ofBigEndian index)⟩ : Option OrdererBlockMetadata) with
    | some ordererBlockMetadata => .ok ordererBlockMetadata
    | none => .error "proto: bad orderer block metadata"
  unmarshalViewMetadata := fun bytes => .ok ⟨0, bytes.length, 0, [], bytes⟩
  unmarshalLastConfig := fun bytes => .ok (Asn1.ofBigEndian bytes)
  unmarshalEnvelope := fun bytes => .ok ⟨bytes, []⟩
  payloadHeaderType := fun payload => payload.head?.map fun type => (type.toNat : Int)
  unwrapReq := fun bytes => .ok ⟨((bytes.head?.map UInt8.toNat).getD 0 : ℕ), [7], ⟨bytes, []⟩⟩
  accessController := fun signatureSet =>
    if signatureSet.all (fun signedData => signedData.identity == [7]) then .ok ()
    else .error "signature set did not satisfy policy"
  validateConfig := fun _ => .ok ()
  requestIDFromSigHeader := fun req => .ok ⟨goHex req.envelope.payload, goHex req.creator⟩
  marshalBlockData := fun data => (data.map (Asn1.tlv 0x04)).flatten
  marshalBlockMetadata := fun entries => (entries.map (Asn1.tlv 0x04)).flatten
  marshalMetadata := id
  marshalOrdererBlockMetadata := fun ordererBlockMetadata =>
    Asn1.tlv 0x04 ordererBlockMetadata.consenterMetadata ++
      Asn1.tlv 0x02 (Asn1.integerContent (ordererBlockMetadata.lastConfig.getD 0))
  marshalLastConfig := Asn1.integerContent

theorem headerCodecLawful_exampleBftCodec : HeaderCodecLawful exampleBftCodec := by
  intro header hRep
  simp [exampleBftCodec, parseBlockHeader_blockHeaderBytes hRep]

def exampleRuntimeConfig : RuntimeConfig where
  lastCommittedBlockHash := goHex (blockHeaderHash exampleCodec ⟨0, [], []⟩)
  lastBlock := ⟨⟨0, [], []⟩, [], none⟩
  lastConfigBlock := ⟨⟨0, [], []⟩, [], none⟩

theorem verifyProposal_accepts_block_five_after_genesis :
    ∃ proposal block, assembleProposal exampleCodec exampleBftCodec exampleRuntimeConfig 0 [9]
        [[3, 1]] = .ok proposal ∧
      proposalToBlock exampleBftCodec proposal = .ok block ∧ block.header.number = 1 ∧
      proposalToBlock exampleBftCodec
          { proposal with header := blockHeaderBytes { block.header with number := 5 } } =
        .ok { block with header := { block.header with number := 5 } } ∧
      verifyProposal exampleCodec exampleBftCodec exampleRuntimeConfig 0
          { proposal with header := blockHeaderBytes { block.header with number := 5 } } =
        .ok [⟨goHex [3, 1], goHex [7]⟩] := by
  refine ⟨_, _, rfl, rfl, rfl, ?_⟩
  exact verifyProposal_accepts_any_block_number exampleCodec exampleBftCodec
    headerCodecLawful_exampleBftCodec rfl (by decide) (by decide) 5
    (by unfold HeaderRepresentable; decide)

end FabricPeer.SmartBft
