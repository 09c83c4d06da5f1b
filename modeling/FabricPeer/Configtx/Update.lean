import FabricPeer.Configtx.ConfigMap
import FabricPeer.Protoutil.BlockUtils

/-! # Authorizing a config update

`update.go` and `validator.go` of `configtx`. A config update names a read set, the elements at
the versions it was computed against, and a write set. `authorizeUpdate` maps both to flat maps,
checks that every element of the read set is in the current config at its version
(`verifyReadSet`), keeps of the write set the elements whose version differs from the read set's
(`computeDeltaSet`) and checks each of them (`verifyDeltaSet`): its `mod_policy` is a well formed
path, a new element starts at version 0, and a changed one moves up one version, with the
modification policy of the element it replaces, found by `policyForItem`, satisfied by the
update's signatures. The delta laid over the current config is the proposed config.
`proposeConfigUpdate` turns it back into a tree at the next sequence number, and `Validate`
checks a config envelope by redoing that computation from the envelope's last update.

Go ranges over a map in an unspecified order; the loops here run in the order of
`GoMap.entries`, which decides which error a failing update reports but not whether it fails.
A policy manager is a value of any type with the two methods `policyForItem` calls; the protobuf
decoders are the parameters `UpdateCodec`, and an envelope is its marshalled bytes.
-/

namespace FabricPeer.Configtx

open FabricPeer.Ledger (Bytes)
open FabricPeer.Protoutil (SignedData)
open FabricPeer.Blkstorage (errorsWrap)
open GoRun

set_option autoImplicit false

/-- `cb.ConfigUpdate`, without the isolated data `authorizeUpdate` does not read. -/
structure ConfigUpdate where
  channelId : String
  readSet : Option ConfigGroup
  writeSet : Option ConfigGroup
  deriving Repr

structure ConfigSignature where
  signatureHeader : Bytes
  signature : Bytes
  deriving DecidableEq, Repr

/-- `cb.ConfigUpdateEnvelope`: the marshalled update and its signatures. -/
structure ConfigUpdateEnvelope where
  configUpdate : Bytes
  signatures : List ConfigSignature
  deriving DecidableEq, Repr

/-- `cb.Config`. -/
structure Config where
  sequence : UInt64
  channelGroup : Option ConfigGroup
  deriving Repr

structure ConfigEnvelope where
  config : Option Config
  lastUpdate : Bytes
  deriving Repr

structure UpdateCodec where
  /-- `protoutil.EnvelopeToConfigUpdate`: the `ConfigUpdateEnvelope` in the payload of a
  `CONFIG_UPDATE` envelope. -/
  envelopeToConfigUpdate : Bytes → Except String ConfigUpdateEnvelope
  /-- `UnmarshalConfigUpdate`. -/
  unmarshalConfigUpdate : Bytes → Except String ConfigUpdate
  /-- The `Creator` of a marshalled `SignatureHeader`. -/
  unmarshalSignatureHeader : Bytes → Except String Bytes

structure Manager (M : Type) where
  getPolicy : M → String → Option Protoutil.Policy
  manager : M → List String → Option M

/-- `ValidatorImpl`. -/
structure ValidatorImpl (M : Type) where
  channelID : String
  sequence : UInt64
  configMap : ConfigMap
  configProto : Config
  «namespace» : String
  pm : M

def Comparable.version (cg : Comparable) : UInt64 :=
  match cg.element with
  | .group g => g.version
  | .value v => v.version
  | .policy p => p.version

def channelAllowedChar (c : Char) : Bool := c.isLower || c.isDigit || c == '.' || c == '-'

def findChannelAllowed (s : String) : String :=
  match s.toList.dropWhile fun c => !c.isLower with
  | [] => ""
  | c :: cs => String.ofList (c :: cs.takeWhile channelAllowedChar)

/-- `ValidateChannelID`, the lengths in bytes. -/
def validateChannelID (channelID : String) : Except String Unit :=
  if channelID.utf8ByteSize ≤ 0 then .error "channel ID illegal, cannot be empty"
  else if channelID.utf8ByteSize > MaxLength then
    .error ("channel ID illegal, cannot be longer than " ++ toString MaxLength)
  else if (findChannelAllowed channelID).utf8ByteSize ≠ channelID.utf8ByteSize then
    .error ("\x27" ++ channelID ++ "\x27 contains illegal characters")
  else .ok ()

/-- `NewValidatorImpl`, `none` standing for a nil config. -/
def newValidatorImpl {M : Type} (channelID : String) (config : Option Config)
    («namespace» : String) (pm : M) : Run (ValidatorImpl M) :=
  match config with
  | none => throw (.error "nil config parameter")
  | some config =>
    match config.channelGroup with
    | none => throw (.error "nil channel group")
    | some channelGroup =>
      match validateChannelID channelID with
      | .error err => throw (.error ("bad channel ID: " ++ err))
      | .ok () => do
        let configMap ← wrapf "error converting config to map"
          (mapConfig (some channelGroup) «namespace»)
        pure
          { «namespace», pm, sequence := config.sequence, configMap, channelID,
            configProto := config }

/-- `computeDeltaSet`: the elements of the write set, except those the read set names at the
same version. -/
def computeDeltaSet (readSet writeSet : ConfigMap) : ConfigMap :=
  writeSet.entries.foldl (fun result (key, value) =>
    match readSet.get? key with
    | some readVal =>
      if readVal.version = value.version then result else result.insert key value
    | none => result.insert key value) GoMap.empty

/-- `validateModPolicy`: a non-empty path, perhaps absolute, of valid config IDs. -/
def validateModPolicy (modPolicy : String) : Except String Unit :=
  if modPolicy = "" then .error "mod_policy not set"
  else
    let trimmed := match modPolicy.toList with
      | '/' :: rest => String.ofList rest
      | _ => modPolicy
    (((trimmed.toList.splitOn '/').map String.ofList).zipIdx.forM fun (pathElement, i) =>
      errorsWrap ("path element at " ++ toString i ++ " is invalid") (validateConfigID pathElement))

/-- `verifyFullProposedConfig`. -/
def verifyFullProposedConfig (writeSet fullProposedConfig : ConfigMap) : Except String Unit :=
  writeSet.keys.forM fun key =>
    if fullProposedConfig.contains key then .ok ()
    else .error ("writeset contained key " ++ key ++ " which did not appear in proposed config")

def configUpdateEnvelopeAsSignedData (codec : UpdateCodec) (ce : ConfigUpdateEnvelope) :
    Except String (List SignedData) :=
  ce.signatures.mapM fun configSig => do
    let creator ← codec.unmarshalSignatureHeader configSig.signatureHeader
    pure
      { data := configSig.signatureHeader ++ ce.configUpdate, identity := creator,
        signature := configSig.signature }

def mapEqual {α : Type} [DecidableEq α] (x y : List (String × α)) : Bool :=
  x.length == y.length && x.all fun (k, v) => y.any fun (k', v') => k == k' && v == v'

mutual

def ConfigGroup.protoEqual : ConfigGroup → ConfigGroup → Bool
  | ⟨version, groups, values, policies, modPolicy⟩,
    ⟨version', groups', values', policies', modPolicy'⟩ =>
    version == version' && (groups.length == groups'.length && groupsIn groups groups') &&
      mapEqual values values' && mapEqual policies policies' && modPolicy == modPolicy'

def groupsIn : List (String × ConfigGroup) → List (String × ConfigGroup) → Bool
  | [], _ => true
  | (k, g) :: rest, y => y.any (fun (k', g') => k == k' && g.protoEqual g') && groupsIn rest y

end

section

variable {M : Type} (mgr : Manager M) (codec : UpdateCodec)

/-- `verifyReadSet`: every element of the read set is in the config at the version the read set
names. -/
def ValidatorImpl.verifyReadSet (vi : ValidatorImpl M) (readSet : ConfigMap) :
    Except String Unit :=
  readSet.entries.forM fun (key, value) =>
    match vi.configMap.get? key with
    | none => .error ("existing config does not contain element for " ++ key ++
        " but was in the read set")
    | some existing =>
      if existing.version ≠ value.version then
        .error ("proposed update requires that key " ++ key ++ " be at version " ++
          toString value.version ++ ", but it is currently at version " ++
          toString existing.version)
      else .ok ()

/-- `policyForItem`: a relative `mod_policy` of an element below the root group names a policy
of the manager at the element's path without the root, one level further down at the key of a
group; an absolute one, or one of the root group, names a policy of the root manager. -/
def ValidatorImpl.policyForItem (vi : ValidatorImpl M) (item : Comparable) :
    Option Protoutil.Policy := do
  let modPolicy := item.modPolicy
  let manager ← if 0 < modPolicy.length ∧ modPolicy.toList.head? ≠ some '/' ∧
      item.path.length ≠ 0 then do
      let manager ← mgr.manager vi.pm item.path.tail
      match item.element with
      | .group _ => mgr.manager manager [item.key]
      | _ => pure manager
    else pure vi.pm
  mgr.getPolicy manager modPolicy

def ValidatorImpl.verifyDeltaElement (vi : ValidatorImpl M) (signedData : List SignedData)
    (key : String) (value : Comparable) : Except String Unit := do
  errorsWrap ("invalid mod_policy for element " ++ key) (validateModPolicy value.modPolicy)
  match vi.configMap.get? key with
  | none =>
    if value.version ≠ 0 then
      .error ("attempted to set key " ++ key ++ " to version " ++ toString value.version ++
        ", but key does not exist")
    else .ok ()
  | some existing =>
    if value.version ≠ existing.version + 1 then
      .error ("attempt to set key " ++ key ++ " to version " ++ toString value.version ++
        ", but key is at version " ++ toString existing.version)
    else
      match vi.policyForItem mgr existing with
      | none =>
        .error ("unexpected missing policy " ++ existing.modPolicy ++ " for item " ++ key)
      | some policy => errorsWrap ("policy for " ++ key ++ " not satisfied") (policy signedData)

/-- `verifyDeltaSet`. -/
def ValidatorImpl.verifyDeltaSet (vi : ValidatorImpl M) (deltaSet : ConfigMap)
    (signedData : List SignedData) : Except String Unit :=
  if deltaSet.keys.length = 0 then .error "delta set was empty -- update would have no effect"
  else deltaSet.entries.forM fun (key, value) => vi.verifyDeltaElement mgr signedData key value

/-- `computeUpdateResult`: the update laid over a copy of the config. -/
def ValidatorImpl.computeUpdateResult (vi : ValidatorImpl M) (updatedConfig : ConfigMap) :
    ConfigMap :=
  let newConfigMap := vi.configMap.entries.foldl (fun m (key, value) => m.insert key value)
    GoMap.empty
  updatedConfig.entries.foldl (fun m (key, value) => m.insert key value) newConfigMap

/-- `authorizeUpdate`, on an envelope its callers have decoded, never nil. -/
def ValidatorImpl.authorizeUpdate (vi : ValidatorImpl M) (configUpdateEnv : ConfigUpdateEnvelope) :
    Run ConfigMap := do
  let configUpdate ← ofExcept (codec.unmarshalConfigUpdate configUpdateEnv.configUpdate)
  if configUpdate.channelId ≠ vi.channelID then
    throw (.error ("ConfigUpdate for channel \x27" ++ configUpdate.channelId ++
      "\x27 but envelope for channel \x27" ++ vi.channelID ++ "\x27"))
  let readSet ← wrapf "error mapping ReadSet" (mapConfig configUpdate.readSet vi.«namespace»)
  wrapf "error validating ReadSet" (ofExcept (vi.verifyReadSet readSet))
  let writeSet ← wrapf "error mapping WriteSet" (mapConfig configUpdate.writeSet vi.«namespace»)
  let deltaSet := computeDeltaSet readSet writeSet
  let signedData ← ofExcept (configUpdateEnvelopeAsSignedData codec configUpdateEnv)
  wrapf "error validating DeltaSet" (ofExcept (vi.verifyDeltaSet mgr deltaSet signedData))
  let fullProposedConfig := vi.computeUpdateResult deltaSet
  wrapf "full config did not verify"
    (ofExcept (verifyFullProposedConfig writeSet fullProposedConfig))
  pure fullProposedConfig

/-- `proposeConfigUpdate`: the config an update envelope leads to, at the next sequence
number. -/
def ValidatorImpl.proposeConfigUpdate (vi : ValidatorImpl M) (configtx : Bytes) :
    Run ConfigEnvelope := do
  let configUpdateEnv ← wrapf "error converting envelope to config update"
    (ofExcept (codec.envelopeToConfigUpdate configtx))
  let configMap ← wrapf "error authorizing update" (vi.authorizeUpdate mgr codec configUpdateEnv)
  let channelGroup ← wrapf "could not turn configMap back to channelGroup"
    (configMapToConfig configMap vi.«namespace»)
  pure
    { config := some { sequence := vi.sequence + 1, channelGroup := some channelGroup },
      lastUpdate := configtx }

/-- `Validate`, `none` standing for a nil envelope. -/
def ValidatorImpl.validate (vi : ValidatorImpl M) (configEnv : Option ConfigEnvelope) :
    Run Unit := do
  let some configEnv := configEnv | throw (.error "config envelope is nil")
  let some config := configEnv.config | throw (.error "config envelope has nil config")
  if config.sequence ≠ vi.sequence + 1 then
    throw (.error ("config currently at sequence " ++ toString vi.sequence ++
      ", cannot validate config at sequence " ++ toString config.sequence))
  let configUpdateEnv ← ofExcept (codec.envelopeToConfigUpdate configEnv.lastUpdate)
  let configMap ← vi.authorizeUpdate mgr codec configUpdateEnv
  let channelGroup ← wrapf "could not turn configMap back to channelGroup"
    (configMapToConfig configMap vi.«namespace»)
  let equal := match config.channelGroup with
    | none => false
    | some supplied => channelGroup.protoEqual supplied
  if !equal then
    throw (.error "ConfigEnvelope LastUpdate did not produce the supplied config result")

end

end FabricPeer.Configtx
