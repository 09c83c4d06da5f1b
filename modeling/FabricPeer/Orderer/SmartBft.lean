import FabricPeer.Protoutil.BlockUtils
import FabricPeer.Lib.Fault

/-! # SmartBFT proposals

The leader of a SmartBFT channel turns a batch of requests into a proposal
(`assembler.go`): the DER header of the next block, the block's data and metadata as a DER pair
of their protobuf encodings, the consenters' view metadata, and the verification sequence. The
followers turn a proposal back into a block (`ProposalToBlock`, `signature.go`) and check it
(`Verifier.VerifyProposal`, `verifier.go`): the hash chain against the last committed block's
hash, the view metadata and last-config entries against the proposal and the runtime
configuration, and every request.

The protobuf and ASN.1 decoders the verifier calls, and the request checks of its access
controller and config validator, are the parameters `BftCodec`.
-/

namespace FabricPeer.SmartBft

open FabricPeer.Blkstorage FabricPeer.Protoutil GoRun
open FabricPeer.Ledger (Bytes)

set_option autoImplicit false

/-- `types.Proposal`. -/
structure Proposal where
  header : Bytes
  payload : Bytes
  metadata : Bytes
  verificationSequence : Int
  deriving DecidableEq, Repr

/-- `types.RequestInfo`. -/
structure RequestInfo where
  id : String
  clientID : String
  deriving DecidableEq, Repr

/-- What the verifier reads of its `RuntimeConfig`. -/
structure RuntimeConfig where
  lastCommittedBlockHash : String
  lastBlock : Block
  lastConfigBlock : Block

structure OrdererBlockMetadata where
  consenterMetadata : Bytes
  lastConfig : Option ℕ
  deriving DecidableEq, Repr

structure ViewMetadata where
  viewId : ℕ
  latestSequence : ℕ
  decisionsInView : ℕ
  blackList : List ℕ
  prevCommitSignatureDigest : Bytes
  deriving DecidableEq, Repr

/-- `cb.Envelope`. -/
structure Envelope where
  payload : Bytes
  signature : Bytes
  deriving DecidableEq, Repr

structure Request where
  chHdrType : Int
  creator : Bytes
  envelope : Envelope
  deriving DecidableEq, Repr

def headerTypeConfig : Int := 1

def headerTypeEndorserTransaction : Int := 3

def headerTypeOrdererTransaction : Int := 4

def headerTypeName (type : Int) : String :=
  match type with
  | 0 => "MESSAGE"
  | 1 => "CONFIG"
  | 2 => "CONFIG_UPDATE"
  | 3 => "ENDORSER_TRANSACTION"
  | 4 => "ORDERER_TRANSACTION"
  | 5 => "DELIVER_SEEK_INFO"
  | 6 => "CHAINCODE_PACKAGE"
  | _ => ""

def blockMetadataIndexLastConfig : ℕ := 1

def blockMetadataIndexCount : ℕ := 5

/-- The decoders the verifier calls and the encoders the assembler calls. `unmarshalAsn1Header`
is `asn1.Unmarshal` into `asn1Header` followed by `Number.Uint64()`; `payloadHeaderType` is the
type in the channel header of a payload, `none` when the payload, its header or its channel
header does not decode; `unmarshalMetadata` gives the `Value` of a `cb.Metadata`. -/
structure BftCodec where
  unmarshalAsn1Header : Bytes → Except String BlockHeader
  unmarshalTuple : Bytes → Except String (Bytes × Bytes)
  unmarshalBlockData : Bytes → Except String (List Bytes)
  unmarshalBlockMetadata : Bytes → Except String (List Bytes)
  unmarshalMetadata : Bytes → Except String Bytes
  unmarshalOrdererBlockMetadata : Bytes → Except String OrdererBlockMetadata
  unmarshalViewMetadata : Bytes → Except String ViewMetadata
  unmarshalLastConfig : Bytes → Except String ℕ
  unmarshalEnvelope : Bytes → Except String Envelope
  payloadHeaderType : Bytes → Option Int
  unwrapReq : Bytes → Except String Request
  accessController : Policy
  validateConfig : Envelope → Except String Unit
  requestIDFromSigHeader : Request → Except String RequestInfo
  marshalBlockData : List Bytes → Bytes
  marshalBlockMetadata : List Bytes → Bytes
  marshalMetadata : Bytes → Bytes
  marshalOrdererBlockMetadata : OrdererBlockMetadata → Bytes
  marshalLastConfig : ℕ → Bytes

def wrapError {α : Type} (msg : String) : Except String α → Except String α :=
  errorsWrap msg

/-- `ByteBufferTuple.ToBytes`: `asn1.Marshal` of the pair. -/
def byteBufferTupleToBytes (a b : Bytes) : Bytes :=
  Asn1.tlv 0x30 (Asn1.tlv 0x04 a ++ Asn1.tlv 0x04 b)

section

variable (codec : Codec) (bft : BftCodec)

def isConfigTransaction (envelope : Envelope) : Bool :=
  match bft.payloadHeaderType envelope.payload with
  | some type => type == headerTypeConfig || type == headerTypeOrdererTransaction
  | none => false

/-- `protoutil.IsConfigBlock`, on the data of a block. -/
def isConfigBlock (data : List Bytes) : Bool :=
  match data with
  | [] => false
  | envelopeBytes :: _ =>
    match bft.unmarshalEnvelope envelopeBytes with
    | .ok envelope => isConfigTransaction bft envelope
    | .error _ => false

def proposalToBlock (proposal : Proposal) : Except String Block := do
  if proposal.header.isEmpty then
    throw "proposal header cannot be nil"
  let hdr ← wrapError "bad header" (bft.unmarshalAsn1Header proposal.header)
  if proposal.payload.isEmpty then
    throw "proposal payload cannot be nil"
  let tuple ← wrapError "bad payload and metadata tuple" (bft.unmarshalTuple proposal.payload)
  let data ← wrapError "bad payload" (bft.unmarshalBlockData tuple.1)
  let metadata ← wrapError "bad metadata" (bft.unmarshalBlockMetadata tuple.2)
  pure ⟨hdr, data, some metadata⟩

def verifyHashChain (block : Block) (prevHeaderHash : String) : Except String Unit := do
  let thisHdrHashOfPrevHdr := goHex block.header.previousHash
  if prevHeaderHash ≠ thisHdrHashOfPrevHdr then
    throw s!"previous header hash is {thisHdrHashOfPrevHdr} but expected {prevHeaderHash}"
  let dataHash := goHex block.header.dataHash
  let actualHashOfData := goHex (blockDataHash codec block.data)
  if dataHash ≠ actualHashOfData then
    throw s!"data hash is {dataHash} but expected {actualHashOfData}"

/-- `protoutil.GetMetadataFromBlock`: the `Value` of the metadata entry at `index`. -/
def getMetadataFromBlock (block : Block) (index : ℕ) (indexName : String) : Except String Bytes :=
  match block.metadata with
  | none => .error "no metadata in block"
  | some entries =>
    match entries[index]? with
    | none => .error s!"no metadata at index [{indexName}]"
    | some entry =>
      wrapError s!"error unmarshalling metadata at index [{indexName}]" (bft.unmarshalMetadata entry)

def verifyRequest (rawRequest : Bytes) (noConfigAllowed : Bool) : Except String RequestInfo := do
  let req ← bft.unwrapReq rawRequest
  wrapError "access denied"
    (bft.accessController [⟨req.creator, req.envelope.payload, req.envelope.signature⟩])
  if noConfigAllowed && req.chHdrType ≠ headerTypeEndorserTransaction then
    throw "only endorser transactions can be sent with other transactions"
  if req.chHdrType = headerTypeOrdererTransaction then
    throw "orderer transactions are not supported in v3"
  if req.chHdrType ≠ headerTypeConfig && req.chHdrType ≠ headerTypeEndorserTransaction then
    let name := headerTypeName req.chHdrType
    throw s!"transaction of type {name} is not allowed to be included in blocks"
  if req.chHdrType = headerTypeConfig then
    bft.validateConfig req.envelope
  bft.requestIDFromSigHeader req

/-- `validateTransactions`, its goroutines run one after the other: the requests of every
envelope, or an error of one of them. -/
def validateTransactions (blockData : List Bytes) : Except String (List RequestInfo) :=
  let noConfigAllowed := blockData.length > 1
  blockData.mapM fun payload => verifyRequest bft payload noConfigAllowed

def verifyBlockDataAndMetadata (rtc : RuntimeConfig) (block : Block) (metadata : Bytes) :
    Except String (List RequestInfo) := do
  if block.data.isEmpty then
    throw "empty block data"
  if (block.metadata.getD []).length < blockMetadataIndexCount then
    throw "block metadata is either missing or contains too few entries"
  let signatureMetadata ← getMetadataFromBlock bft block blockMetadataIndexSignatures "SIGNATURES"
  let ordererMetadataFromSignature ← wrapError "failed unmarshaling OrdererBlockMetadata"
    (bft.unmarshalOrdererBlockMetadata signatureMetadata)
  let metadataInBlock ← wrapError "failed unmarshaling smartbft metadata from block"
    (bft.unmarshalViewMetadata ordererMetadataFromSignature.consenterMetadata)
  let metadataFromProposal ← wrapError "failed unmarshaling smartbft metadata from proposal"
    (bft.unmarshalViewMetadata metadata)
  if metadataInBlock ≠ metadataFromProposal then
    let expectedView := metadataFromProposal.viewId
    let expectedSequence := metadataFromProposal.latestSequence
    let view := metadataInBlock.viewId
    let sequence := metadataInBlock.latestSequence
    throw s!"expected metadata in block to be [view_id:{expectedView} latest_sequence:{expectedSequence}] but got [view_id:{view} latest_sequence:{sequence}]"
  let lastConfig :=
    if isConfigBlock bft block.data then block.header.number else rtc.lastConfigBlock.header.number
  let index ← match ordererMetadataFromSignature.lastConfig with
    | none => throw "last config is nil"
    | some index => pure index
  if index ≠ lastConfig then
    throw s!"last config in block orderer metadata points to {index} but our persisted last config is {lastConfig}"
  let rawLastConfig ← getMetadataFromBlock bft block blockMetadataIndexLastConfig "LAST_CONFIG"
  let lastConf ← bft.unmarshalLastConfig rawLastConfig
  if lastConf ≠ lastConfig then
    throw s!"last config in block metadata points to {index} but our persisted last config is {lastConfig}"
  validateTransactions bft block.data

/-- `Verifier.VerifyProposal`, with the verifier's runtime configuration and the sequence of
its `VerificationSequencer`. -/
def verifyProposal (rtc : RuntimeConfig) (verificationSeq : ℕ) (proposal : Proposal) :
    Except String (List RequestInfo) := do
  let block ← proposalToBlock bft proposal
  verifyHashChain codec block rtc.lastCommittedBlockHash
  let requests ← verifyBlockDataAndMetadata bft rtc block proposal.metadata
  if verificationSeq ≠ (proposal.verificationSequence % 2 ^ 64).toNat then
    let proposalSequence := proposal.verificationSequence
    throw s!"expected verification sequence {verificationSeq}, but proposal has {proposalSequence}"
  pure requests

def batchNonConfig : List Bytes → Run (List Bytes)
  | [] => pure []
  | currentRequest :: requests =>
    match bft.unmarshalEnvelope currentRequest with
    | .error err =>
      .error (.panic s!"Programming error, received bad envelope but should have validated it: {err}")
    | .ok envelope =>
      if isConfigTransaction bft envelope then pure []
      else do
        let batchedRequests ← batchNonConfig requests
        pure (currentRequest :: batchedRequests)

def singleConfigTxOrSeveralNonConfigTx (requests : List Bytes) : Run (List Bytes) := do
  let batchedRequests ← batchNonConfig bft requests
  match batchedRequests, requests with
  | [], request :: _ => pure [request]
  | _, _ => pure batchedRequests

/-- `Assembler.AssembleProposal`, with the assembler's runtime configuration and the sequence of
its `VerificationSeq`. -/
def assembleProposal (rtc : RuntimeConfig) (verificationSeq : ℕ) (metadata : Bytes)
    (requests : List Bytes) : Run Proposal := do
  let lastBlock := rtc.lastBlock
  if requests.isEmpty then
    throw (.panic "Programming error, no requests in proposal")
  let batchedRequests ← singleConfigTxOrSeveralNonConfigTx bft requests
  let number := (lastBlock.header.number + 1) % 2 ^ 64
  let header : BlockHeader :=
    ⟨number, blockDataHash codec batchedRequests, blockHeaderHash codec lastBlock.header⟩
  let lastConfigBlockNum :=
    if isConfigBlock bft batchedRequests then number else rtc.lastConfigBlock.header.number
  let metadataEntries : List Bytes :=
    [bft.marshalMetadata (bft.marshalOrdererBlockMetadata ⟨metadata, some lastConfigBlockNum⟩),
      bft.marshalMetadata (bft.marshalLastConfig lastConfigBlockNum), [], [], []]
  let sequence : Int :=
    if verificationSeq < 2 ^ 63 then verificationSeq else verificationSeq - 2 ^ 64
  pure ⟨blockHeaderBytes header,
    byteBufferTupleToBytes (bft.marshalBlockData batchedRequests)
      (bft.marshalBlockMetadata metadataEntries),
    metadata, sequence⟩

end

end FabricPeer.SmartBft
