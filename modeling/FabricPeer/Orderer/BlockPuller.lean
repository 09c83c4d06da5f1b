import FabricPeer.Blkstorage.Serialization
import FabricPeer.Lib.Fault

/-! # Pulling blocks from other orderers

`cluster.BlockPuller` (`orderer/common/cluster/deliver.go`) fetches the blocks of a channel from
the ordering nodes at its endpoints. It keeps a buffer of blocks. `PullBlock(seq)` hands out the
first block of the buffer when it is block `seq`. Otherwise it connects to some endpoint that has
block `seq`, retrying up to `MaxPullBlockRetries` times, and pulls the blocks from `seq` on into
the buffer, until the buffer holds `MaxTotalBufferBytes` or reaches the endpoint's last block. It
checks the buffer with `VerifyBlockSequence` before it hands out the first block.
`VerifyBlocksBFT` (`util.go`), the check the orderers configure, verifies the signature of each
block but the genesis block with the verifier of the last config block before it.

The network answers the puller. Each connection attempt probes the endpoints and picks one of
those that qualify at random, each deliver stream gives a sequence of responses, and each wait
on the stop channel may be cut short. These answers are an input, `World`, consumed in order. A
call that has not returned when the answers it needs run out gives `none`.
-/

namespace FabricPeer.Cluster

open FabricPeer.Blkstorage GoRun
open FabricPeer.Ledger (Bytes)

set_option autoImplicit false

section Verify

def headerTypeConfig : Int32 := 1

structure Payload where
  channelHeader : Option Bytes
  data : Bytes
  deriving DecidableEq, Repr

structure ClusterCodec (ConfigEnvelope : Type) where
  getEnvelopeFromBlock : Bytes → Except String Bytes
  unmarshalPayload : Bytes → Except String Payload
  unmarshalChannelHeaderType : Bytes → Except String Int32
  unmarshalConfigEnvelope : Bytes → Except String ConfigEnvelope

inductive ConfigError where
  | notAConfig
  | error (err : String)
  deriving DecidableEq, Repr

variable {ConfigEnvelope : Type} (codec : ClusterCodec ConfigEnvelope)

/-- `ConfigFromBlock`: the config envelope of a config block. Block 0 is read as a config block
whatever the type of its header. -/
def configFromBlock (block : Block) : Except ConfigError ConfigEnvelope :=
  match block.data with
  | [] => .error (.error "empty block")
  | txn :: _ => do
    let env ← (codec.getEnvelopeFromBlock txn).mapError .error
    let payload ← (codec.unmarshalPayload env).mapError .error
    if block.header.number = 0 then
      (codec.unmarshalConfigEnvelope payload.data).mapError
        fun err => .error ("invalid config envelope: " ++ err)
    else
      match payload.channelHeader with
      | none => .error (.error "nil header in payload")
      | some channelHeader => do
        let chdrType ← (codec.unmarshalChannelHeaderType channelHeader).mapError .error
        if chdrType ≠ headerTypeConfig then .error .notAConfig
        else
          (codec.unmarshalConfigEnvelope payload.data).mapError
            fun err => .error ("invalid config envelope: " ++ err)

/-- `protoutil.BlockVerifierFunc`: a check of a block's header and metadata. -/
abbrev BlockVerifierFunc := BlockHeader → Option (List Bytes) → Except String Unit

/-- `VerifyBlockSignature`. -/
def verifyBlockSignature (block : Block) (verifier : BlockVerifierFunc) : Except String Unit :=
  verifier block.header block.metadata

def verifyBlocks (vb : Block → BlockVerifierFunc) :
    BlockVerifierFunc → List Block → Except String Unit
  | _, [] => .ok ()
  | signatureVerifier, block :: blocks => do
    let isConfig ← match configFromBlock codec block with
      | .ok _ => pure true
      | .error .notAConfig => pure false
      | .error (.error err) => .error err
    match verifyBlockSignature block signatureVerifier with
    | .error err =>
      if block.header.number > 0 then .error err else pure ()
    | .ok () => pure ()
    verifyBlocks vb (if isConfig then vb block else signatureVerifier) blocks

/-- `verifyBlockSequence`. -/
def verifyBlockSequence (blockBuff : List Block) (signatureVerifier : BlockVerifierFunc)
    (vb : Block → BlockVerifierFunc) : Except String Unit :=
  if blockBuff.length = 0 then .error "buffer is empty"
  else verifyBlocks codec vb signatureVerifier blockBuff

/-- `VerifyBlocksBFT`. -/
def verifyBlocksBFT (blocks : List Block) (signatureVerifier : BlockVerifierFunc)
    (vb : Block → BlockVerifierFunc) : Except String Unit :=
  verifyBlockSequence codec blocks signatureVerifier vb

end Verify

section Puller

structure ReceivedBlock where
  header : Option BlockHeader
  data : Option (List Bytes)
  metadata : Option (List Bytes)
  deriving DecidableEq, Repr

inductive DeliverResponse where
  | block (block : Option ReceivedBlock)
  | status (status : Int32)
  | unset
  deriving DecidableEq, Repr

def statusForbidden : Int32 := 403

def statusServiceUnavailable : Int32 := 503

def errForbidden : String := "forbidden pulling the channel"

def errServiceUnavailable : String := "service unavailable"

/-- `extractBlockFromResponse`. The `%v` of a faulty status is its number. -/
def extractBlockFromResponse : DeliverResponse → Except String Block
  | .block none => .error "block is nil"
  | .block (some block) =>
    match block.data, block.header, block.metadata with
    | none, _, _ => .error "block data is nil"
    | some _, none, _ => .error "block header is nil"
    | some _, some _, none => .error "block metadata is empty"
    | some data, some header, some metadata =>
      if metadata.length = 0 then .error "block metadata is empty"
      else .ok ⟨header, data, some metadata⟩
  | .status status =>
    if status = statusForbidden then .error errForbidden
    else if status = statusServiceUnavailable then .error errServiceUnavailable
    else .error ("faulty node, received: status:" ++ toString status.toInt)
  | .unset => .error "response is of type <nil>, but expected a block"

abbrev DeliverStream := List (Except String DeliverResponse)

def recvTimeout : String := "didn't receive a response within the fetch timeout"

structure Conn where
  deliver : Option DeliverStream
  deriving DecidableEq, Repr

/-- What probing an endpoint finds: the connection dialled, `none` when dialling fails, and the
result of `Recv` on the stream that asks for its newest block (an error too when that stream
cannot be set up). -/
structure Probe where
  endpoint : String
  conn : Option Conn
  newestBlock : Except String DeliverResponse
  deriving DecidableEq, Repr

/-- `endpointInfo`. -/
structure EndpointInfo where
  endpoint : String
  conn : Conn
  lastBlockSeq : ℕ
  deriving DecidableEq, Repr

/-- The configuration of a puller, and the outcome of signing its seek requests: for the newest
block, and for the blocks from a sequence on. -/
structure PullerConfig where
  maxPullBlockRetries : ℕ
  maxTotalBufferBytes : Int
  /-- `blockSize`: the length of the block's protobuf encoding. -/
  blockSize : Block → ℕ
  verifyBlockSequence : List Block → Except String Unit
  seekLastEnvelope : Except String Unit
  seekNextEnvelope : ℕ → Except String Unit

/-- The internal state of a `BlockPuller`. `stream` is the current deliver stream, `none` while
the puller has had none. -/
structure BlockPuller where
  blockBuff : List Block
  latestSeq : ℕ
  endpoint : String
  conn : Option Conn
  stream : Option DeliverStream
  deriving DecidableEq, Repr

/-- The answers of the network: for each connection attempt the probes of the endpoints and the
random pick among those that qualify, and for each wait on the stop channel whether the stop
came. -/
structure World where
  probeRounds : List (List Probe × ℕ)
  stops : List Bool
  deriving DecidableEq, Repr

variable (cfg : PullerConfig)

/-- `BlockPuller.disconnect`. The cancelled stream stays the puller's stream; its `Recv` times
out. -/
def BlockPuller.disconnect (p : BlockPuller) : BlockPuller :=
  { p with stream := p.stream.map fun _ => [], conn := none, endpoint := "", latestSeq := 0 }

/-- `BlockPuller.Close`. -/
def BlockPuller.close (p : BlockPuller) : BlockPuller :=
  { p.disconnect with blockBuff := [] }

/-- `popBlock`: the first block of the buffer when it is block `seq`; a buffer that starts with
another block is discarded. -/
def BlockPuller.popBlock (p : BlockPuller) (seq : ℕ) : Option Block × BlockPuller :=
  match p.blockBuff with
  | [] => (none, p)
  | block :: rest =>
    if seq ≠ block.header.number then (none, { p with blockBuff := [] })
    else (some block, { p with blockBuff := rest })

/-- `fetchLastBlockSeq`, on the result of `Recv` for the newest block. -/
def fetchLastBlockSeq (minRequestedSequence : ℕ) (endpoint : String)
    (newestBlock : Except String DeliverResponse) : Except String ℕ := do
  cfg.seekLastEnvelope
  let resp ← newestBlock
  let block ← extractBlockFromResponse resp
  let seq := block.header.number
  if seq < minRequestedSequence then
    .error ("minimum requested sequence is " ++ toString minRequestedSequence ++ " but " ++
      endpoint ++ " is at sequence " ++ toString seq)
  else pure block.header.number

/-- `probeEndpoint`. -/
def probeEndpoint (probe : Probe) (minRequestedSequence : ℕ) : Except String EndpointInfo := do
  let conn ← match probe.conn with
    | none => .error ("failed connecting to " ++ probe.endpoint)
    | some conn => pure conn
  let lastBlockSeq ← fetchLastBlockSeq cfg minRequestedSequence probe.endpoint probe.newestBlock
  pure ⟨probe.endpoint, conn, lastBlockSeq⟩

/-- `probeEndpoints` then `byEndpoints`: the endpoints that qualify, a duplicate endpoint
skipped. -/
def probeEndpoints (probes : List Probe) (minRequestedSequence : ℕ) : List EndpointInfo :=
  (probes.filterMap fun probe => (probeEndpoint cfg probe minRequestedSequence).toOption).foldl
    (fun infoByEndpoints info =>
      if infoByEndpoints.any (·.endpoint == info.endpoint) then infoByEndpoints
      else infoByEndpoints ++ [info]) []

/-- `connectToSomeEndpoint`, with the probes of the endpoints and the random pick. -/
def BlockPuller.connectToSomeEndpoint (p : BlockPuller) (minRequestedSequence : ℕ)
    (round : List Probe × ℕ) : BlockPuller :=
  let endpointsInfo := probeEndpoints cfg round.1 minRequestedSequence
  match endpointsInfo[round.2 % endpointsInfo.length]? with
  | none => p
  | some chosen =>
    { p with conn := some chosen.conn, endpoint := chosen.endpoint,
             latestSeq := chosen.lastBlockSeq }

/-- `obtainStream`: a new stream on a new connection, else the puller's stream, which is a nil
pointer before the puller has had one. -/
def BlockPuller.obtainStream (p : BlockPuller) (reConnected : Bool) : Run DeliverStream :=
  if reConnected then
    match p.conn with
    | none => .error (.panic "invalid memory address or nil pointer dereference")
    | some conn =>
      match conn.deliver with
      | none => .error (.error ("failed establishing deliver stream with " ++ p.endpoint))
      | some stream => .ok stream
  else
    match p.stream with
    | none => .error (.panic "invalid memory address or nil pointer dereference")
    | some stream => .ok stream

def keepReceiving (latestSeq totalSize nextExpectedSequence : ℕ) : Prop :=
  (totalSize : Int) < cfg.maxTotalBufferBytes ∧ nextExpectedSequence ≤ latestSeq

instance (latestSeq totalSize nextExpectedSequence : ℕ) :
    Decidable (keepReceiving cfg latestSeq totalSize nextExpectedSequence) :=
  inferInstanceAs (Decidable (_ ∧ _))

def receiveBlocks (endpoint : String) (latestSeq : ℕ) (totalSize nextExpectedSequence : ℕ)
    (blockBuff : List Block) : DeliverStream → List Block × DeliverStream × Except String Unit
  | [] =>
    if keepReceiving cfg latestSeq totalSize nextExpectedSequence then
      (blockBuff, [], .error recvTimeout)
    else (blockBuff, [], .ok ())
  | resp :: stream =>
    if keepReceiving cfg latestSeq totalSize nextExpectedSequence then
      match resp >>= extractBlockFromResponse with
      | .error err => (blockBuff, stream, .error err)
      | .ok block =>
        let seq := block.header.number
        if seq ≠ nextExpectedSequence then
          (blockBuff, stream, .error ("got unexpected sequence from " ++ endpoint ++ " - (" ++
            toString seq ++ ") instead of (" ++ toString nextExpectedSequence ++ ")"))
        else
          receiveBlocks endpoint latestSeq (totalSize + cfg.blockSize block)
            ((nextExpectedSequence + 1) % 2 ^ 64) (blockBuff ++ [block]) stream
    else (blockBuff, resp :: stream, .ok ())

/-- `pullBlocks`: the puller with the blocks pulled from `seq` on, and the error, if any. -/
def BlockPuller.pullBlocks (p : BlockPuller) (seq : ℕ) (reConnected : Bool) :
    Run (BlockPuller × Except String Unit) :=
  match cfg.seekNextEnvelope seq with
  | .error err => .ok (p, .error err)
  | .ok () =>
    match p.obtainStream reConnected with
    | .error (.error err) => .ok (p, .error err)
    | .error fault => .error fault
    | .ok stream =>
      let (blockBuff, stream, result) :=
        receiveBlocks cfg p.endpoint p.latestSeq 0 seq [] stream
      .ok ({ p with blockBuff, stream := some stream }, result)

inductive ConnectEnd where
  | gaveUp
  | proceed (reConnected : Bool)
  deriving DecidableEq, Repr

def connectLoop (seq : ℕ) (retriesLeft : ℕ) (reConnected : Bool) (p : BlockPuller)
    (stops : List Bool) : List (List Probe × ℕ) → Option (ConnectEnd × BlockPuller × World)
  | [] => if p.conn.isSome then some (.proceed reConnected, p, ⟨[], stops⟩) else none
  | round :: probeRounds =>
    if p.conn.isSome then some (.proceed reConnected, p, ⟨round :: probeRounds, stops⟩)
    else
      let p := p.connectToSomeEndpoint cfg seq round
      let waited : Option (Bool × List Bool) :=
        if p.conn.isNone then
          match stops with
          | [] => none
          | stop :: stops => some (stop, stops)
        else some (false, stops)
      match waited with
      | none => none
      | some (true, stops) => some (.gaveUp, p, ⟨probeRounds, stops⟩)
      | some (false, stops) =>
        if retriesLeft = 0 ∧ cfg.maxPullBlockRetries > 0 then
          some (.gaveUp, p, ⟨probeRounds, stops⟩)
        else connectLoop seq (uint64Pred retriesLeft) true p stops probeRounds

/-- `tryFetchBlock`. -/
def BlockPuller.tryFetchBlock (p : BlockPuller) (world : World) (seq : ℕ) :
    Option (Run (Option Block × BlockPuller × World)) :=
  match p.popBlock seq with
  | (some block, p) => some (.ok (some block, p, world))
  | (none, p) =>
    match connectLoop cfg seq cfg.maxPullBlockRetries false p world.stops world.probeRounds with
    | none => none
    | some (.gaveUp, p, world) => some (.ok (none, p, world))
    | some (.proceed reConnected, p, world) =>
      some <|
        match p.pullBlocks cfg seq reConnected with
        | .error fault => .error fault
        | .ok (p, .error _) =>
          let p := p.close
          match p.blockBuff with
          | block :: _ => .ok (some block, p, world)
          | [] => .ok (none, p, world)
        | .ok (p, .ok ()) =>
          match cfg.verifyBlockSequence p.blockBuff with
          | .error _ => .ok (none, p.close, world)
          | .ok () =>
            let (block, p) := p.popBlock seq
            .ok (block, p, world)

def BlockPuller.pullBlockLoop (seq : ℕ) :
    ℕ → ℕ → BlockPuller → World → Option (Run (Option Block × BlockPuller × World))
  | 0, _, _, _ => none
  | fuel + 1, retriesLeft, p, world =>
    match p.tryFetchBlock cfg world seq with
    | none => none
    | some (.error fault) => some (.error fault)
    | some (.ok (some block, p, world)) => some (.ok (some block, p, world))
    | some (.ok (none, p, world)) =>
      let retriesLeft := uint64Pred retriesLeft
      if retriesLeft = 0 ∧ cfg.maxPullBlockRetries > 0 then some (.ok (none, p, world))
      else
        match world.stops with
        | [] => none
        | true :: stops => some (.ok (none, p, { world with stops }))
        | false :: stops => pullBlockLoop seq fuel retriesLeft p { world with stops }

/-- `PullBlock`, for at most `fuel` calls of `tryFetchBlock`. -/
def BlockPuller.pullBlock (p : BlockPuller) (world : World) (seq fuel : ℕ) :
    Option (Run (Option Block × BlockPuller × World)) :=
  p.pullBlockLoop cfg seq fuel cfg.maxPullBlockRetries world

end Puller

end FabricPeer.Cluster
