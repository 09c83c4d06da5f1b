import FabricPeer.Orderer.BlockPuller
import FabricPeer.Lib.Transition

/-! # What the block puller hands out

`VerifyBlocksBFT` accepts a sequence of blocks exactly when no block fails to parse as a config
block and each block but a genesis block passes the verifier of the last config block before it
(`verifyBlocksBFT_eq_ok_iff`). The puller's buffer is always a suffix of a sequence its
`VerifyBlockSequence` accepted, so every block `PullBlock` hands out, over any run and whatever
the network answers, is the block asked for and comes from such a sequence
(`pullBlock_returns_verified`). The connection loop of `tryFetchBlock` makes at most
`MaxPullBlockRetries + 1` attempts (`tryFetchBlock_isSome`).

A puller that has never had a stream may connect on the last attempt of that loop. It then
returns nil still connected, and the next `tryFetchBlock` reuses the nil stream, which panics
(`pullBlock_panics_of_late_connect`).
-/

namespace FabricPeer.Cluster

open FabricPeer.Blkstorage GoRun

set_option autoImplicit false

section Verify

variable {ConfigEnvelope : Type} (codec : ClusterCodec ConfigEnvelope)
  (vb : Block → BlockVerifierFunc)

/-- Whether `ConfigFromBlock` finds a config envelope in the block. -/
def isConfigBlock (block : Block) : Bool :=
  match configFromBlock codec block with
  | .ok _ => true
  | .error _ => false

/-- The verifier in force after `blocks`: that of the last config block among them, else
`signatureVerifier`. -/
def verifierAfter (signatureVerifier : BlockVerifierFunc) (blocks : List Block) :
    BlockVerifierFunc :=
  blocks.foldl (fun verifier block => if isConfigBlock codec block then vb block else verifier)
    signatureVerifier

/-- What `verifyBlockSequence` asks of one block under the verifier in force: it parses as a
config block or is not one, and its signature passes unless it is a genesis block. -/
def BlockAccepted (verifier : BlockVerifierFunc) (block : Block) : Prop :=
  (∀ err, configFromBlock codec block ≠ .error (.error err)) ∧
    (0 < block.header.number → verifyBlockSignature block verifier = .ok ())

theorem verifyBlocks_cons_eq_ok_iff (signatureVerifier : BlockVerifierFunc) (block : Block)
    (blocks : List Block) :
    verifyBlocks codec vb signatureVerifier (block :: blocks) = .ok () ↔
      BlockAccepted codec signatureVerifier block ∧
        verifyBlocks codec vb
          (if isConfigBlock codec block then vb block else signatureVerifier) blocks = .ok () := by
  rw [verifyBlocks, BlockAccepted, isConfigBlock]
  cases hConfig : configFromBlock codec block with
  | error e =>
    cases e with
    | notAConfig =>
      cases hSig : verifyBlockSignature block signatureVerifier with
      | error err => by_cases hNum : 0 < block.header.number <;> simp [hNum]
      | ok u => simp
    | error err => simp
  | ok env =>
    cases hSig : verifyBlockSignature block signatureVerifier with
    | error err => by_cases hNum : 0 < block.header.number <;> simp [hNum]
    | ok u => simp

theorem verifyBlocks_eq_ok_iff :
    ∀ (signatureVerifier : BlockVerifierFunc) (blocks : List Block),
      verifyBlocks codec vb signatureVerifier blocks = .ok () ↔
        ∀ pre block post, blocks = pre ++ block :: post →
          BlockAccepted codec (verifierAfter codec vb signatureVerifier pre) block
  | _, [] => by simp [verifyBlocks]
  | signatureVerifier, block :: blocks => by
    rw [verifyBlocks_cons_eq_ok_iff, verifyBlocks_eq_ok_iff]
    constructor
    · rintro ⟨hHead, hTail⟩ pre block' post hEq
      cases pre with
      | nil =>
        obtain ⟨rfl, -⟩ := List.cons.inj hEq
        exact hHead
      | cons first pre =>
        obtain ⟨rfl, hRest⟩ := List.cons.inj hEq
        exact hTail pre block' post hRest
    · intro h
      refine ⟨h [] block blocks rfl, fun pre block' post hEq => ?_⟩
      have := h (block :: pre) block' post (by rw [hEq]; rfl)
      simpa [verifierAfter] using this

/-- `VerifyBlocksBFT` accepts a sequence exactly when it is not empty and each block passes under
the verifier of the last config block before it: it parses as a config block or is not one, and
its signature passes unless it is block 0. -/
theorem verifyBlocksBFT_eq_ok_iff (blocks : List Block) (signatureVerifier : BlockVerifierFunc) :
    verifyBlocksBFT codec blocks signatureVerifier vb = .ok () ↔
      blocks ≠ [] ∧ ∀ pre block post, blocks = pre ++ block :: post →
        BlockAccepted codec (verifierAfter codec vb signatureVerifier pre) block := by
  rw [verifyBlocksBFT, verifyBlockSequence]
  cases blocks with
  | nil => simp
  | cons block blocks =>
    rw [if_neg (by simp), verifyBlocks_eq_ok_iff]
    simp

end Verify

section Puller

variable (cfg : PullerConfig)

@[simp] theorem BlockPuller.close_blockBuff (p : BlockPuller) : p.close.blockBuff = [] := rfl

@[simp] theorem BlockPuller.connectToSomeEndpoint_blockBuff (p : BlockPuller) (seq : ℕ)
    (round : List Probe × ℕ) : (p.connectToSomeEndpoint cfg seq round).blockBuff = p.blockBuff := by
  rw [BlockPuller.connectToSomeEndpoint]
  split <;> rfl

@[simp] theorem BlockPuller.connectToSomeEndpoint_stream (p : BlockPuller) (seq : ℕ)
    (round : List Probe × ℕ) : (p.connectToSomeEndpoint cfg seq round).stream = p.stream := by
  rw [BlockPuller.connectToSomeEndpoint]
  split <;> rfl

theorem BlockPuller.connectToSomeEndpoint_of_eq_nil {p : BlockPuller} {seq : ℕ}
    {round : List Probe × ℕ} (h : probeEndpoints cfg round.1 seq = []) :
    p.connectToSomeEndpoint cfg seq round = p := by
  simp [BlockPuller.connectToSomeEndpoint, h]

theorem BlockPuller.conn_connectToSomeEndpoint_of_ne_nil {p : BlockPuller} {seq : ℕ}
    {round : List Probe × ℕ} (h : probeEndpoints cfg round.1 seq ≠ []) :
    (p.connectToSomeEndpoint cfg seq round).conn.isSome := by
  have hLength : 0 < (probeEndpoints cfg round.1 seq).length := List.length_pos_iff.2 h
  have hIndex : round.2 % (probeEndpoints cfg round.1 seq).length <
      (probeEndpoints cfg round.1 seq).length := Nat.mod_lt _ hLength
  simp only [BlockPuller.connectToSomeEndpoint, List.getElem?_eq_getElem hIndex]
  rfl

theorem BlockPuller.popBlock_eq_some {p p' : BlockPuller} {seq : ℕ} {block : Block}
    (h : p.popBlock seq = (some block, p')) :
    block.header.number = seq ∧ p.blockBuff = block :: p'.blockBuff := by
  rw [BlockPuller.popBlock] at h
  split at h
  · cases h
  · rename_i first rest hBuff
    split at h
    · cases h
    · rename_i hSeq
      cases h
      exact ⟨(not_not.1 hSeq).symm, hBuff⟩

theorem BlockPuller.popBlock_eq_none {p p' : BlockPuller} {seq : ℕ}
    (h : p.popBlock seq = (none, p')) : p'.blockBuff = [] := by
  rw [BlockPuller.popBlock] at h
  split at h
  · cases h
    assumption
  · split at h <;> cases h
    rfl

def BlockPuller.BufferVerified (p : BlockPuller) : Prop :=
  p.blockBuff = [] ∨ ∃ batch, cfg.verifyBlockSequence batch = .ok () ∧ p.blockBuff <:+ batch

theorem BlockPuller.BufferVerified.popBlock_eq_some {p p' : BlockPuller} {seq : ℕ} {block : Block}
    (hVerified : p.BufferVerified cfg) (h : p.popBlock seq = (some block, p')) :
    (∃ batch, cfg.verifyBlockSequence batch = .ok () ∧ block ∈ batch) ∧
      p'.BufferVerified cfg := by
  obtain ⟨-, hBuff⟩ := BlockPuller.popBlock_eq_some h
  rcases hVerified with hNil | ⟨batch, hBatch, hSuffix⟩
  · rw [hBuff] at hNil
    cases hNil
  · rw [hBuff] at hSuffix
    refine ⟨⟨batch, hBatch, hSuffix.subset List.mem_cons_self⟩,
      Or.inr ⟨batch, hBatch, (List.suffix_cons _ _).trans hSuffix⟩⟩

theorem connectLoop_of_conn_isSome {p : BlockPuller} (hConnected : p.conn.isSome) (seq : ℕ)
    (retriesLeft : ℕ) (reConnected : Bool) (stops : List Bool)
    (probeRounds : List (List Probe × ℕ)) :
    connectLoop cfg seq retriesLeft reConnected p stops probeRounds =
      some (.proceed reConnected, p, ⟨probeRounds, stops⟩) := by
  cases probeRounds <;> simp [connectLoop, hConnected]

theorem connectLoop_blockBuff (seq : ℕ) :
    ∀ (probeRounds : List (List Probe × ℕ)) (retriesLeft : ℕ) (reConnected : Bool)
      (p : BlockPuller) (stops : List Bool) {e : ConnectEnd} {p' : BlockPuller} {world : World},
      connectLoop cfg seq retriesLeft reConnected p stops probeRounds = some (e, p', world) →
        p'.blockBuff = p.blockBuff
  | [], _, _, p, stops, e, p', world, h => by
    unfold connectLoop at h
    split at h
    · cases h
      rfl
    · cases h
  | round :: probeRounds, retriesLeft, reConnected, p, stops, e, p', world, h => by
    unfold connectLoop at h
    split at h
    · cases h
      rfl
    · simp only at h
      split at h
      · cases h
      · cases h
        simp
      · split at h
        · cases h
          simp
        · rw [connectLoop_blockBuff seq probeRounds _ true _ _ h]
          simp

theorem BlockPuller.BufferVerified.popBlock {p p' : BlockPuller} {seq : ℕ} {block? : Option Block}
    (hVerified : p.BufferVerified cfg) (h : p.popBlock seq = (block?, p')) :
    p'.BufferVerified cfg ∧ ∀ block, block? = some block →
      block.header.number = seq ∧ ∃ batch, cfg.verifyBlockSequence batch = .ok () ∧ block ∈ batch := by
  cases block? with
  | none => exact ⟨Or.inl (BlockPuller.popBlock_eq_none h), by simp⟩
  | some block =>
    obtain ⟨hBlock, hRest⟩ := hVerified.popBlock_eq_some cfg h
    refine ⟨hRest, ?_⟩
    rintro _ ⟨⟩
    exact ⟨(BlockPuller.popBlock_eq_some h).1, hBlock⟩

theorem BlockPuller.BufferVerified.tryFetchBlock {p p' : BlockPuller} {world world' : World}
    {seq : ℕ} {block? : Option Block} (hVerified : p.BufferVerified cfg)
    (h : p.tryFetchBlock cfg world seq = some (.ok (block?, p', world'))) :
    p'.BufferVerified cfg ∧ ∀ block, block? = some block →
      block.header.number = seq ∧ ∃ batch, cfg.verifyBlockSequence batch = .ok () ∧ block ∈ batch := by
  rw [BlockPuller.tryFetchBlock] at h
  rcases hPop : p.popBlock seq with ⟨_ | block₀, p₀⟩
  · have hEmpty := BlockPuller.popBlock_eq_none hPop
    rw [hPop] at h
    dsimp only at h
    cases hLoop : connectLoop cfg seq cfg.maxPullBlockRetries false p₀ world.stops
        world.probeRounds with
    | none =>
      rw [hLoop] at h
      cases h
    | some r =>
      obtain ⟨e, p₁, world₁⟩ := r
      have hBuff₁ : p₁.blockBuff = [] := (connectLoop_blockBuff cfg seq _ _ _ _ _ hLoop).trans hEmpty
      rw [hLoop] at h
      cases e with
      | gaveUp =>
        simp only [Option.some.injEq, Except.ok.injEq, Prod.mk.injEq] at h
        obtain ⟨rfl, rfl, rfl⟩ := h
        exact ⟨Or.inl hBuff₁, by simp⟩
      | proceed reConnected =>
        simp only [Option.some.injEq] at h
        cases hPull : p₁.pullBlocks cfg seq reConnected with
        | error fault =>
          rw [hPull] at h
          cases h
        | ok r =>
          obtain ⟨p₂, result⟩ := r
          rw [hPull] at h
          cases result with
          | error err =>
            simp only [BlockPuller.close_blockBuff, Except.ok.injEq, Prod.mk.injEq] at h
            obtain ⟨rfl, rfl, rfl⟩ := h
            exact ⟨Or.inl rfl, by simp⟩
          | ok u =>
            simp only at h
            cases hVerify : cfg.verifyBlockSequence p₂.blockBuff with
            | error err =>
              simp only [hVerify, Except.ok.injEq, Prod.mk.injEq] at h
              obtain ⟨rfl, rfl, rfl⟩ := h
              exact ⟨Or.inl rfl, by simp⟩
            | ok u' =>
              simp only [hVerify, Except.ok.injEq, Prod.mk.injEq] at h
              obtain ⟨hBlock, hP, -⟩ := h
              have hVerified₂ : p₂.BufferVerified cfg :=
                Or.inr ⟨p₂.blockBuff, hVerify, List.suffix_refl _⟩
              exact hVerified₂.popBlock cfg (Prod.ext hBlock hP)
  · rw [hPop] at h
    simp only [Option.some.injEq, Except.ok.injEq, Prod.mk.injEq] at h
    obtain ⟨rfl, rfl, rfl⟩ := h
    exact hVerified.popBlock cfg hPop

theorem BlockPuller.BufferVerified.pullBlockLoop (seq : ℕ) :
    ∀ (fuel retriesLeft : ℕ) {p p' : BlockPuller} {world world' : World}
      {block? : Option Block}, p.BufferVerified cfg →
      p.pullBlockLoop cfg seq fuel retriesLeft world = some (.ok (block?, p', world')) →
      p'.BufferVerified cfg ∧ ∀ block, block? = some block →
        block.header.number = seq ∧
          ∃ batch, cfg.verifyBlockSequence batch = .ok () ∧ block ∈ batch
  | 0, _, _, _, _, _, _, _, h => by
    rw [BlockPuller.pullBlockLoop] at h
    cases h
  | fuel + 1, retriesLeft, p, p', world, world', block?, hVerified, h => by
    rw [BlockPuller.pullBlockLoop] at h
    cases hFetch : p.tryFetchBlock cfg world seq with
    | none =>
      rw [hFetch] at h
      cases h
    | some r =>
      rw [hFetch] at h
      cases r with
      | error fault => cases h
      | ok r =>
        obtain ⟨block₁?, p₁, world₁⟩ := r
        have hStep := hVerified.tryFetchBlock cfg hFetch
        cases block₁? with
        | some block₁ =>
          simp only [Option.some.injEq, Except.ok.injEq, Prod.mk.injEq] at h
          obtain ⟨rfl, rfl, rfl⟩ := h
          exact hStep
        | none =>
          simp only at h
          split at h
          · simp only [Option.some.injEq, Except.ok.injEq, Prod.mk.injEq] at h
            obtain ⟨rfl, rfl, rfl⟩ := h
            exact ⟨hStep.1, by simp⟩
          · split at h
            · cases h
            · simp only [Option.some.injEq, Except.ok.injEq, Prod.mk.injEq] at h
              obtain ⟨rfl, rfl, rfl⟩ := h
              exact ⟨hStep.1, by simp⟩
            · exact BlockPuller.BufferVerified.pullBlockLoop seq fuel _ hStep.1 h

/-- A call of `PullBlock` that returns, whatever the network answered. -/
def PullStep (p p' : BlockPuller) : Prop :=
  ∃ world seq fuel block? world', p.pullBlock cfg world seq fuel = some (.ok (block?, p', world'))

/-- Over any run of `PullBlock` calls from a puller with an empty buffer, whatever the network
answers, every block `PullBlock` hands out is the block asked for and stands in a sequence of
blocks that the puller's `VerifyBlockSequence` accepted. -/
theorem pullBlock_returns_verified {p₀ p : BlockPuller} (hStart : p₀.blockBuff = [])
    (hRun : Transition.Reachable (PullStep cfg) p₀ p) {world world' : World} {seq fuel : ℕ}
    {block : Block} {p' : BlockPuller}
    (hPull : p.pullBlock cfg world seq fuel = some (.ok (some block, p', world'))) :
    block.header.number = seq ∧ ∃ batch, cfg.verifyBlockSequence batch = .ok () ∧ block ∈ batch := by
  have hVerified : p.BufferVerified cfg := by
    refine Transition.Reachable.invariant (fun q => q.BufferVerified cfg) (Or.inl hStart) ?_ hRun
    rintro q q' hq ⟨world₁, seq₁, fuel₁, block₁?, world₁', hStep⟩
    exact (hq.pullBlockLoop cfg seq₁ fuel₁ _ hStep).1
  exact (hVerified.pullBlockLoop cfg seq fuel _ hPull).2 block rfl

def receivedBlock (n : ℕ) : ReceivedBlock := ⟨some ⟨n, [], []⟩, some [], some [[0]]⟩

def acceptingConfig (maxPullBlockRetries : ℕ) : PullerConfig :=
  ⟨maxPullBlockRetries, 100, fun _ => 10, fun _ => .ok (), .ok (), fun _ => .ok ()⟩

def freshPuller : BlockPuller := ⟨[], 0, "", none, none⟩

def probeAt (n : ℕ) : Probe :=
  ⟨"orderer0", some ⟨some [.ok (.block (some (receivedBlock n)))]⟩,
    .ok (.block (some (receivedBlock n)))⟩

theorem pullBlock_returns_verified_freshPuller :
    ∃ block p' world', freshPuller.pullBlock (acceptingConfig 2) ⟨[([probeAt 5], 0)], []⟩ 5 1 =
        some (.ok (some block, p', world')) ∧
      block.header.number = 5 ∧
        ∃ batch, (acceptingConfig 2).verifyBlockSequence batch = .ok () ∧ block ∈ batch := by
  obtain ⟨block, p', world', hPull⟩ : ∃ block p' world',
      freshPuller.pullBlock (acceptingConfig 2) ⟨[([probeAt 5], 0)], []⟩ 5 1 =
        some (.ok (some block, p', world')) := ⟨_, _, _, rfl⟩
  exact ⟨block, p', world', hPull,
    pullBlock_returns_verified (acceptingConfig 2) rfl (Transition.Reachable.refl _ _) hPull⟩

section Retries

variable {cfg}

theorem connectLoop_isSome (hRetries : 0 < cfg.maxPullBlockRetries) (seq : ℕ) :
    ∀ (probeRounds : List (List Probe × ℕ)) (retriesLeft : ℕ) (reConnected : Bool)
      (p : BlockPuller) (stops : List Bool), retriesLeft < 2 ^ 64 →
      retriesLeft < probeRounds.length → retriesLeft < stops.length →
      (connectLoop cfg seq retriesLeft reConnected p stops probeRounds).isSome
  | [], _, _, _, _, _, hRounds, _ => by simp at hRounds
  | round :: probeRounds, retriesLeft, reConnected, p, stops, hBound, hRounds, hStops => by
    obtain ⟨stop, stops', rfl⟩ : ∃ stop stops', stops = stop :: stops' :=
      List.exists_cons_of_length_pos (by omega)
    simp only [List.length_cons] at hRounds hStops
    have hNext : ∀ stops'' : List Bool, stops'.length ≤ stops''.length →
        ¬(retriesLeft = 0 ∧ cfg.maxPullBlockRetries > 0) →
        (connectLoop cfg seq (uint64Pred retriesLeft) true
          (p.connectToSomeEndpoint cfg seq round) stops'' probeRounds).isSome := by
      intro stops'' hLength hLast
      obtain ⟨n, rfl⟩ := Nat.exists_eq_succ_of_ne_zero fun h0 => hLast ⟨h0, hRetries⟩
      rw [Nat.succ_eq_add_one, uint64Pred_succ (by omega)]
      exact connectLoop_isSome hRetries seq probeRounds n true _ _ (by omega) (by omega)
        (by omega)
    unfold connectLoop
    split
    · rfl
    · by_cases hConn : (p.connectToSomeEndpoint cfg seq round).conn.isNone = true
      · simp only [hConn, if_true]
        cases stop with
        | true => rfl
        | false =>
          dsimp only
          split
          · rfl
          · exact hNext stops' (Nat.le_refl _) ‹_›
      · simp only [hConn, if_false, Bool.false_eq_true]
        split
        · rfl
        · exact hNext (stop :: stops') (by simp) ‹_›

/-- With at least one retry configured, `tryFetchBlock` returns once the network has answered
`MaxPullBlockRetries + 1` connection attempts and as many waits on the stop channel: it never
retries past its bound. -/
theorem tryFetchBlock_isSome (hRetries : 0 < cfg.maxPullBlockRetries)
    (hBound : cfg.maxPullBlockRetries < 2 ^ 64) (p : BlockPuller) {world : World} (seq : ℕ)
    (hRounds : cfg.maxPullBlockRetries < world.probeRounds.length)
    (hStops : cfg.maxPullBlockRetries < world.stops.length) :
    (p.tryFetchBlock cfg world seq).isSome := by
  rw [BlockPuller.tryFetchBlock]
  rcases hPop : p.popBlock seq with ⟨_ | block, p₀⟩
  · dsimp only
    have hLoop := connectLoop_isSome hRetries seq world.probeRounds cfg.maxPullBlockRetries false
      p₀ world.stops hBound hRounds hStops
    obtain ⟨r, hr⟩ := Option.isSome_iff_exists.1 hLoop
    rw [hr]
    obtain ⟨_ | _, p₁, world₁⟩ := r <;> rfl
  · rfl

theorem tryFetchBlock_isSome_freshPuller :
    0 < (acceptingConfig 2).maxPullBlockRetries ∧ (acceptingConfig 2).maxPullBlockRetries < 2 ^ 64 ∧
      (freshPuller.tryFetchBlock (acceptingConfig 2)
        ⟨[([], 0), ([], 0), ([], 0)], [false, false, false]⟩ 5).isSome :=
  ⟨by decide, by decide,
    tryFetchBlock_isSome (by decide) (by decide) freshPuller 5 (by decide) (by decide)⟩

theorem connectLoop_late_connect (hRetries : 0 < cfg.maxPullBlockRetries) {seq : ℕ}
    {round : List Probe × ℕ} (rounds : List (List Probe × ℕ)) (stops : List Bool)
    (hRound : probeEndpoints cfg round.1 seq ≠ []) :
    ∀ (failed : List (List Probe × ℕ)) (reConnected : Bool) (p : BlockPuller),
      failed.length < 2 ^ 64 → p.conn = none →
      (∀ r ∈ failed, probeEndpoints cfg r.1 seq = []) →
      connectLoop cfg seq failed.length reConnected p (List.replicate failed.length false ++ stops)
          (failed ++ round :: rounds) =
        some (.gaveUp, p.connectToSomeEndpoint cfg seq round, ⟨rounds, stops⟩)
  | [], _, p, _, hConn, _ => by
    have hConnected := BlockPuller.conn_connectToSomeEndpoint_of_ne_nil cfg (p := p) hRound
    unfold connectLoop
    simp [hConn, Option.isNone_iff_eq_none, Option.isSome_iff_ne_none.1 hConnected, hRetries]
  | r :: failed, _, p, hBound, hConn, hFailed => by
    have hStay : p.connectToSomeEndpoint cfg seq r = p :=
      BlockPuller.connectToSomeEndpoint_of_eq_nil cfg (hFailed r List.mem_cons_self)
    have hLength : failed.length < 2 ^ 64 := by
      simp only [List.length_cons] at hBound
      omega
    have hNext := connectLoop_late_connect hRetries rounds stops hRound failed true p hLength hConn
      fun r' h => hFailed r' (List.mem_cons_of_mem _ h)
    unfold connectLoop
    simp only [List.length_cons, List.replicate_succ, List.cons_append, hConn, hStay]
    simp [uint64Pred_succ hLength, hNext]

/-- A puller that has never had a stream and connects only on the last attempt of the connection
loop panics: the loop gives up on that attempt although it connected, and the next call of
`tryFetchBlock` skips the loop and reuses the nil stream. -/
theorem pullBlock_panics_of_late_connect (hRetries : 2 ≤ cfg.maxPullBlockRetries)
    (hBound : cfg.maxPullBlockRetries < 2 ^ 64) (p : BlockPuller) (hBuff : p.blockBuff = [])
    (hConn : p.conn = none) (hStream : p.stream = none) (seq : ℕ)
    (hSeek : cfg.seekNextEnvelope seq = .ok ()) (fuel : ℕ) (hFuel : 2 ≤ fuel)
    (failed : List (List Probe × ℕ)) (round : List Probe × ℕ) (rounds : List (List Probe × ℕ))
    (stops : List Bool) (hLength : failed.length = cfg.maxPullBlockRetries)
    (hFailed : ∀ r ∈ failed, probeEndpoints cfg r.1 seq = [])
    (hRound : probeEndpoints cfg round.1 seq ≠ []) :
    p.pullBlock cfg
        ⟨failed ++ round :: rounds, List.replicate (cfg.maxPullBlockRetries + 1) false ++ stops⟩
        seq fuel =
      some (.error (.panic "invalid memory address or nil pointer dereference")) := by
  obtain ⟨fuel, rfl⟩ : ∃ n, fuel = n + 2 := ⟨fuel - 2, by omega⟩
  set p₁ := p.connectToSomeEndpoint cfg seq round
  have hPop : p.popBlock seq = (none, p) := by simp [BlockPuller.popBlock, hBuff]
  have hFirst : p.tryFetchBlock cfg
      ⟨failed ++ round :: rounds, List.replicate (cfg.maxPullBlockRetries + 1) false ++ stops⟩ seq =
        some (.ok (none, p₁, ⟨rounds, false :: stops⟩)) := by
    have hLoop := connectLoop_late_connect (by omega) rounds (false :: stops) hRound failed false p
      (by omega) hConn hFailed
    rw [hLength] at hLoop
    rw [BlockPuller.tryFetchBlock, hPop]
    simp only [List.replicate_succ', List.append_assoc, List.singleton_append, hLoop]
    rfl
  have hSecond : p₁.tryFetchBlock cfg ⟨rounds, stops⟩ seq =
      some (.error (.panic "invalid memory address or nil pointer dereference")) := by
    have hConnected : p₁.conn.isSome :=
      BlockPuller.conn_connectToSomeEndpoint_of_ne_nil cfg hRound
    have hPop₁ : p₁.popBlock seq = (none, p₁) := by
      simp [p₁, BlockPuller.popBlock, hBuff]
    rw [BlockPuller.tryFetchBlock, hPop₁]
    simp [connectLoop_of_conn_isSome cfg hConnected, BlockPuller.pullBlocks, hSeek, BlockPuller.obtainStream, p₁, hStream]
  have hPred : uint64Pred cfg.maxPullBlockRetries = cfg.maxPullBlockRetries - 1 := by
    rw [uint64Pred]
    omega
  rw [BlockPuller.pullBlock, BlockPuller.pullBlockLoop, hFirst]
  simp only [hPred]
  rw [if_neg (by omega), BlockPuller.pullBlockLoop, hSecond]

theorem pullBlock_panics_freshPuller :
    freshPuller.pullBlock (acceptingConfig 2)
        ⟨[([], 0), ([], 0), ([probeAt 5], 0)], [false, false, false]⟩ 5 2 =
      some (.error (.panic "invalid memory address or nil pointer dereference")) :=
  pullBlock_panics_of_late_connect (by decide) (by decide) freshPuller rfl rfl rfl 5 rfl 2
    (Nat.le_refl 2) [([], 0), ([], 0)] ([probeAt 5], 0) [] [] rfl (by simp [probeEndpoints])
    (by decide)

end Retries

end Puller

end FabricPeer.Cluster
