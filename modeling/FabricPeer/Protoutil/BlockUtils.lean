import FabricPeer.Blkstorage.Stream
import FabricPeer.Lib.Asn1

/-! # Block hashes and block signatures

`protoutil/blockutils.go`: a block header is hashed through its ASN.1 DER encoding (a `SEQUENCE`
of the number as an `INTEGER` and the two hashes as `OCTET STRING`s), and the data of a block
through the concatenation of its envelopes, `bytes.Join(b.Data, nil)`. The orderers sign the
header: each signature of the `SIGNATURES` metadata is over the metadata value, the signer's
header and the header's bytes, and the block validation policy evaluates the set of them.

SHA-256 and the protobuf decoders the verification calls are the parameters `Codec`; the policy
is a function from a signature set to its verdict.
-/

namespace FabricPeer.Protoutil

open FabricPeer.Blkstorage
open FabricPeer.Ledger (Bytes)

set_option autoImplicit false

structure MetadataSignature where
  signatureHeader : Bytes
  signature : Bytes
  identifierHeader : Bytes
  deriving DecidableEq, Repr

structure Metadata where
  value : Bytes
  signatures : List MetadataSignature
  deriving DecidableEq, Repr

structure SignedData where
  identity : Bytes
  data : Bytes
  signature : Bytes
  deriving DecidableEq, Repr

structure Consenter where
  id : UInt32
  mspId : String
  identity : Bytes
  deriving DecidableEq, Repr

structure Codec where
  sha256 : Bytes → Bytes
  getEnvelopeFromBlock : Bytes → Except String Bytes
  unmarshalPayload : Bytes → Except String (Option Bytes)
  unmarshalChannelHeader : Bytes → Except String String
  unmarshalMetadata : Bytes → Except String Metadata
  unmarshalIdentifierHeader : Bytes → Except String UInt32
  unmarshalSignatureHeader : Bytes → Except String Bytes
  /-- `MarshalOrPanic(&msp.SerializedIdentity{Mspid, IdBytes})`. -/
  marshalSerializedIdentity : String → Bytes → Bytes

/-- `policies.Policy.EvaluateSignedData`. -/
abbrev Policy := List SignedData → Except String Unit

def blockMetadataIndexSignatures : ℕ := 0

/-- `asn1.Marshal(asn1Header{Number, PreviousHash, DataHash})`. -/
def blockHeaderBytes (b : BlockHeader) : Bytes :=
  Asn1.tlv 0x30 (Asn1.tlv 0x02 (Asn1.integerContent b.number) ++ Asn1.tlv 0x04 b.previousHash ++
    Asn1.tlv 0x04 b.dataHash)

/-- A header a Go program can hold: a `uint64` number and slices shorter than `2 ^ 63`. -/
def HeaderRepresentable (header : BlockHeader) : Prop :=
  header.number < 2 ^ 64 ∧ header.previousHash.length < 2 ^ 63 ∧ header.dataHash.length < 2 ^ 63

theorem length_integerContent_number {header : BlockHeader} (hRep : HeaderRepresentable header) :
    (Asn1.integerContent header.number).length ≤ 9 := by
  have hBytes := (Asn1.length_bigEndian_le_iff header.number 8).2 (by simpa using hRep.1)
  have := Asn1.length_integerContent_le header.number
  omega

theorem length_headerContents_lt {header : BlockHeader} (hRep : HeaderRepresentable header) :
    (Asn1.tlv 0x02 (Asn1.integerContent header.number) ++ Asn1.tlv 0x04 header.previousHash ++
      Asn1.tlv 0x04 header.dataHash).length < 256 ^ 127 := by
  have hNumber := Asn1.length_tlv_le 0x02 (Asn1.integerContent header.number)
  have hPrevious := Asn1.length_tlv_le 0x04 header.previousHash
  have hData := Asn1.length_tlv_le 0x04 header.dataHash
  have := length_integerContent_number hRep
  have := hRep.2
  simp only [List.length_append]
  omega

def parseBlockHeader (bytes : Bytes) : Option BlockHeader := do
  let (contents, _) ← Asn1.readTlv 0x30 bytes
  let (number, rest) ← Asn1.readTlv 0x02 contents
  let (previousHash, rest) ← Asn1.readTlv 0x04 rest
  let (dataHash, _) ← Asn1.readTlv 0x04 rest
  pure ⟨Asn1.ofBigEndian number, dataHash, previousHash⟩

theorem parseBlockHeader_blockHeaderBytes {header : BlockHeader}
    (hRep : HeaderRepresentable header) : parseBlockHeader (blockHeaderBytes header) = some header := by
  have hNumber := length_integerContent_number hRep
  have hSequence := Asn1.readTlv_tlv 0x30 _ [] (length_headerContents_lt hRep)
  obtain ⟨-, hPrevious, hData⟩ := hRep
  have hField := Asn1.readTlv_tlv 0x02 (Asn1.integerContent header.number)
    (Asn1.tlv 0x04 header.previousHash ++ Asn1.tlv 0x04 header.dataHash) (by omega)
  have hField' := Asn1.readTlv_tlv 0x04 header.previousHash (Asn1.tlv 0x04 header.dataHash)
    (by omega)
  have hField'' := Asn1.readTlv_tlv 0x04 header.dataHash [] (by omega)
  rw [List.append_nil] at hSequence hField''
  rw [parseBlockHeader, blockHeaderBytes, hSequence]
  simp [hField, hField', hField'']

theorem blockHeaderBytes_injective {header header' : BlockHeader}
    (hRep : HeaderRepresentable header) (hRep' : HeaderRepresentable header')
    (hEq : blockHeaderBytes header = blockHeaderBytes header') : header = header' := by
  have hParse := parseBlockHeader_blockHeaderBytes hRep
  rw [hEq, parseBlockHeader_blockHeaderBytes hRep'] at hParse
  exact (Option.some.inj hParse).symm

section

variable (codec : Codec)

def blockHeaderHash (b : BlockHeader) : Bytes := codec.sha256 (blockHeaderBytes b)

/-- `BlockDataHash`: the hash of `bytes.Join(b.Data, nil)`. -/
def blockDataHash (data : List Bytes) : Bytes := codec.sha256 data.flatten

/-- `GetChannelIDFromBlock`: the channel id in the channel header of the first envelope. -/
def getChannelIDFromBlock (block : Block) : Except String String :=
  match block.data with
  | [] => .error "failed to retrieve channel id - block is empty"
  | envelopeBytes :: _ => do
    let envelope ← codec.getEnvelopeFromBlock envelopeBytes
    let header ← codec.unmarshalPayload envelope
    match header with
    | none => .error "failed to retrieve channel id - payload header is empty"
    | some channelHeader => codec.unmarshalChannelHeader channelHeader

def searchConsenterIdentityByID (consenters : List Consenter) (identifier : UInt32) : Bytes :=
  match consenters.find? (fun consenter => consenter.id == identifier) with
  | some consenter => codec.marshalSerializedIdentity consenter.mspId consenter.identity
  | none => []

def metadataSignatureData (bftEnabled : Bool) (consenters : List Consenter) (header : BlockHeader)
    (md : Metadata) (metadataSignature : MetadataSignature) : Except String (Option SignedData) :=
  let number := header.number
  if bftEnabled && metadataSignature.signatureHeader.isEmpty &&
      !metadataSignature.identifierHeader.isEmpty then
    match codec.unmarshalIdentifierHeader metadataSignature.identifierHeader with
    | .error err => .error s!"failed unmarshalling identifier header for block {number}: {err}"
    | .ok identifier =>
      let signerIdentity := searchConsenterIdentityByID codec consenters identifier
      if signerIdentity.isEmpty then .ok none
      else
        .ok (some ⟨signerIdentity,
          md.value ++ metadataSignature.identifierHeader ++ blockHeaderBytes header,
          metadataSignature.signature⟩)
  else
    match codec.unmarshalSignatureHeader metadataSignature.signatureHeader with
    | .error err => .error s!"failed unmarshalling signature header for block {number}: {err}"
    | .ok creator =>
      .ok (some ⟨creator, md.value ++ metadataSignature.signatureHeader ++ blockHeaderBytes header,
        metadataSignature.signature⟩)

/-- `BlockSignatureVerifier(bftEnabled, consenters, policy)` applied to a header and the entries
of a block's metadata (`none` for a nil `Metadata`). -/
def blockSignatureVerifier (bftEnabled : Bool) (consenters : List Consenter) (policy : Policy)
    (header : BlockHeader) (metadata : Option (List Bytes)) : Except String Unit := do
  let entries := metadata.getD []
  match entries[blockMetadataIndexSignatures]? with
  | none => .error "no signatures in block metadata"
  | some signatures =>
    let md ← match codec.unmarshalMetadata signatures with
      | .ok md => .ok md
      | .error err =>
        .error ("error unmarshalling signatures from metadata: " ++ err ++ ": " ++ err)
    let signatureSet ← md.signatures.foldlM (fun (signatureSet : List SignedData) metadataSignature => do
        let signedData ← metadataSignatureData codec bftEnabled consenters header md metadataSignature
        pure (signatureSet ++ signedData.toList)) []
    policy signatureSet

end

end FabricPeer.Protoutil
