import FabricPeer.Committer.TxValidator
import FabricPeer.Lib.Transition
import Mathlib.Data.List.Perm.Subperm

/-! # A wait that no result ever ends

Every worker registers the metadata writes of all earlier transactions of the block, valid or
not, and waits for each earlier metadata writer of a key it writes to publish a result. Results
are only published from inside the plugin. A transaction that writes a key's metadata and is
rejected before the plugins (a duplicate transaction id, a bad signature) therefore never
publishes one, and a later transaction of the same chaincode that writes the key waits for it
forever: `Validate`, which reads one result per transaction, never returns.
-/

namespace FabricPeer.Committer

open FabricPeer.Ledger Transition

set_option autoImplicit false

theorem filter_range_eq_singleton (a b : Nat) (hab : a < b) (p : Nat → Bool) (hAt : p a = true)
    (hElse : ∀ j < b, j ≠ a → p j = false) : (List.range b).filter p = [a] := by
  obtain ⟨c, rfl⟩ : ∃ c, b = a + 1 + c := ⟨b - (a + 1), by omega⟩
  have hBelow : (List.range a).filter p = [] := by
    rw [List.filter_eq_nil_iff]
    intro j hj
    simp only [List.mem_range] at hj
    simp [hElse j (by omega) (by omega)]
  have hAbove : ((List.range c).map (a + 1 + ·)).filter p = [] := by
    rw [List.filter_eq_nil_iff]
    intro j hj
    obtain ⟨d, hd, rfl⟩ := List.mem_map.1 hj
    simp only [List.mem_range] at hd
    simp [hElse (a + 1 + d) (by omega) (by omega)]
  rw [List.range_add, List.range_succ, List.filter_append, List.filter_append,
    List.filter_singleton, hAt, hBelow, hAbove]
  rfl

section Bookkeeping

variable (blk : List BlockTx) (capacity : Nat)

structure Bookkeeping (s : ValidatorState) : Prop where
  startedInBlock : ∀ i, s.phase i ≠ .idle → i < blk.length
  unspawnedIdle : ∀ i, s.spawned ≤ i → s.phase i = .idle
  receivedFinished : ∀ p ∈ s.received, s.phase p.1 = .finished
  receivedNodup : (s.received.map Prod.fst).Nodup

theorem bookkeeping_init : Bookkeeping blk ValidatorState.init where
  startedInBlock _ hIdle := absurd rfl hIdle
  unspawnedIdle _ _ := rfl
  receivedFinished _ hMem := absurd hMem List.not_mem_nil
  receivedNodup := List.nodup_nil

variable {blk}

theorem Bookkeeping.update {s s' : ValidatorState} (hKeep : Bookkeeping blk s) (i : Nat)
    (p' : Phase) (hPhase' : s'.phase = Function.update s.phase i p')
    (hSpawned : s'.spawned = s.spawned) (hReceived : s'.received = s.received)
    (hIdle : s.phase i ≠ .idle) (hFinished : s.phase i ≠ .finished) :
    Bookkeeping blk s' where
  startedInBlock j hj := by
    rw [hPhase'] at hj
    by_cases hji : j = i
    · subst hji
      exact hKeep.startedInBlock j hIdle
    · rw [Function.update_of_ne hji] at hj
      exact hKeep.startedInBlock j hj
  unspawnedIdle j hj := by
    rw [hSpawned] at hj
    have hji : j ≠ i := fun hEq => hIdle (hEq ▸ hKeep.unspawnedIdle j hj)
    rw [hPhase', Function.update_of_ne hji]
    exact hKeep.unspawnedIdle j hj
  receivedFinished p hp := by
    rw [hReceived] at hp
    have hpi : p.1 ≠ i := fun hEq => hFinished (hEq ▸ hKeep.receivedFinished p hp)
    rw [hPhase', Function.update_of_ne hpi]
    exact hKeep.receivedFinished p hp
  receivedNodup := hReceived ▸ hKeep.receivedNodup

theorem Bookkeeping.spawn {s : ValidatorState} (hKeep : Bookkeeping blk s)
    (hNext : s.spawned < blk.length) :
    Bookkeeping blk { s with
      phase := Function.update s.phase s.spawned .started
      spawned := s.spawned + 1
      inFlight := s.inFlight + 1 } where
  startedInBlock j hj := by
    dsimp only at hj
    by_cases hji : j = s.spawned
    · exact hji ▸ hNext
    · rw [Function.update_of_ne hji] at hj
      exact hKeep.startedInBlock j hj
  unspawnedIdle j hj := by
    dsimp only at hj ⊢
    have hji : j ≠ s.spawned := by omega
    rw [Function.update_of_ne hji]
    exact hKeep.unspawnedIdle j (by omega)
  receivedFinished p hp := by
    dsimp only at hp ⊢
    have hFinished := hKeep.receivedFinished p hp
    have hpi : p.1 ≠ s.spawned := fun hEq => by
      rw [hEq, hKeep.unspawnedIdle s.spawned (Nat.le_refl _)] at hFinished
      cases hFinished
    rw [Function.update_of_ne hpi]
    exact hFinished
  receivedNodup := hKeep.receivedNodup

theorem Bookkeeping.reply {s : ValidatorState} (hKeep : Bookkeeping blk s) (i : Nat)
    (code : ValidationCode) (hPhase : s.phase i = .reply code) :
    Bookkeeping blk { s with
      phase := Function.update s.phase i .finished
      inFlight := s.inFlight - 1
      received := s.received ++ [(i, code)] } where
  startedInBlock j hj := by
    dsimp only at hj
    by_cases hji : j = i
    · exact hji ▸ hKeep.startedInBlock i (by simp [hPhase])
    · rw [Function.update_of_ne hji] at hj
      exact hKeep.startedInBlock j hj
  unspawnedIdle j hj := by
    dsimp only at hj ⊢
    have hji : j ≠ i := fun hEq => by
      have hIdle := hKeep.unspawnedIdle j hj
      rw [hEq, hPhase] at hIdle
      cases hIdle
    rw [Function.update_of_ne hji]
    exact hKeep.unspawnedIdle j hj
  receivedFinished p hp := by
    dsimp only at hp ⊢
    by_cases hpi : p.1 = i
    · rw [hpi, Function.update_self]
    · rw [Function.update_of_ne hpi]
      rcases List.mem_append.mp hp with hOld | hNew
      · exact hKeep.receivedFinished p hOld
      · simp only [List.mem_singleton] at hNew
        exact absurd (congrArg Prod.fst hNew) hpi
  receivedNodup := by
    have hFresh : i ∉ s.received.map Prod.fst := by
      intro hMem
      obtain ⟨p, hp, hpi⟩ := List.mem_map.mp hMem
      have hFinished := hKeep.receivedFinished p hp
      rw [hpi, hPhase] at hFinished
      cases hFinished
    dsimp only
    rw [List.map_append, List.nodup_append]
    refine ⟨hKeep.receivedNodup, List.nodup_singleton i, ?_⟩
    intro x hx y hy
    rw [List.map_singleton, List.mem_singleton] at hy
    subst hy
    exact fun hEq => hFresh (hEq ▸ hx)

theorem Bookkeeping.step {s s' : ValidatorState} (hKeep : Bookkeeping blk s)
    (hStep : Step blk capacity s s') : Bookkeeping blk s' := by
  cases hStep with
  | spawn hNext _ => exact hKeep.spawn hNext
  | reject i _ _ _ hPhase _ =>
    exact hKeep.update i _ rfl rfl rfl (by simp [hPhase]) (by simp [hPhase])
  | dispatch i _ _ _ _ hPhase _ _ =>
    exact hKeep.update i _ rfl rfl rfl (by simp [hPhase]) (by simp [hPhase])
  | preValidate i _ _ _ _ hPhase =>
    exact hKeep.update i _ rfl rfl rfl (by simp [hPhase]) (by simp [hPhase])
  | checkKey i _ _ _ _ hPhase _ =>
    exact hKeep.update i _ rfl rfl rfl (by simp [hPhase]) (by simp [hPhase])
  | conflict i _ _ _ _ _ _ hPhase _ =>
    exact hKeep.update i _ rfl rfl rfl (by simp [hPhase]) (by simp [hPhase])
  | noConflict i _ _ _ _ _ _ hPhase _ =>
    exact hKeep.update i _ rfl rfl rfl (by simp [hPhase]) (by simp [hPhase])
  | keyChecked i _ _ _ _ _ _ hPhase =>
    exact hKeep.update i _ rfl rfl rfl (by simp [hPhase]) (by simp [hPhase])
  | evaluated i _ _ _ _ hPhase =>
    exact hKeep.update i _ rfl rfl rfl (by simp [hPhase]) (by simp [hPhase])
  | postValidate i _ _ _ hPhase =>
    exact hKeep.update i _ rfl rfl rfl (by simp [hPhase]) (by simp [hPhase])
  | reply i code hPhase => exact hKeep.reply i code hPhase

theorem Bookkeeping.received_lt {s : ValidatorState} (hKeep : Bookkeeping blk s) (b : Nat)
    (hb : b < blk.length) (hUnfinished : s.phase b ≠ .finished) :
    s.received.length < blk.length := by
  have hSub : s.received.map Prod.fst ⊆ (List.range blk.length).erase b := by
    intro j hj
    obtain ⟨p, hp, rfl⟩ := List.mem_map.mp hj
    have hFinished := hKeep.receivedFinished p hp
    have hpb : p.1 ≠ b := fun hEq => hUnfinished (hEq ▸ hFinished)
    rw [List.mem_erase_of_ne hpb, List.mem_range]
    exact hKeep.startedInBlock p.1 (by simp [hFinished])
  have hLe := (hKeep.receivedNodup.subperm hSub).length_le
  rw [List.length_map, List.length_erase_of_mem (List.mem_range.mpr hb), List.length_range] at hLe
  omega

end Bookkeeping


section Stall

variable {blk : List BlockTx} {capacity : Nat}

def BeforePlugin : Phase → Prop
  | .idle => True
  | .started => True
  | .reply _ => True
  | .finished => True
  | _ => False

def TowardsWait (a : Nat) (kid : LedgerKeyID) (keys : List LedgerKeyID) (p : Phase) : Prop :=
  p = .idle ∨ p = .started ∨ p = .preValidate kid.cc [] ∨ p = .evaluate kid.cc [] (kid :: keys) ∨
    p = .await kid.cc [] kid keys [a]

/-- A block in which transaction `a` writes the metadata of `kid` and is rejected before the
plugins, while the later transaction `b` passes those checks, writes only in the chaincode of
`kid` and checks `kid` first; no other transaction before `b` writes the metadata of `kid`. -/
structure WaitsForRejected (blk : List BlockTx) (a b : Nat) (txA txB : BlockTx) (kid : LedgerKeyID)
    (keys : List LedgerKeyID) : Prop where
  before : a < b
  getA : blk[a]? = some txA
  getB : blk[b]? = some txB
  rejectedA : txA.preCheck ≠ none
  writesMetadataA : kid ∈ metadataWriteKeys txA.rwset
  onlyWriterA : ∀ j < b, j ≠ a → ∀ tx, blk[j]? = some tx → kid ∉ metadataWriteKeys tx.rwset
  passesB : txB.preCheck = none
  namespacesB : wrNamespace txB.ccID txB.rwset = [kid.cc]
  keysB : evaluatedKeys txB.rwset kid.cc = kid :: keys

variable {a b : Nat} {txA txB : BlockTx} {kid : LedgerKeyID} {keys : List LedgerKeyID}

theorem WaitsForRejected.dependencies (hWait : WaitsForRejected blk a b txA txB kid keys)
    (extracted : Nat → Bool) (hInserted : ∀ j < b, extracted j = true) :
    dependenciesForTxnum blk extracted kid b = [a] := by
  apply filter_range_eq_singleton a b hWait.before
  · simp [hInserted a hWait.before, hWait.getA, hWait.writesMetadataA]
  · intro j hj hja
    cases hTx : blk[j]? with
    | none => simp
    | some tx => simp [hWait.onlyWriterA j hj hja tx hTx]

structure Stalled (blk : List BlockTx) (a b : Nat) (kid : LedgerKeyID) (keys : List LedgerKeyID)
    (s : ValidatorState) : Prop where
  bookkeeping : Bookkeeping blk s
  noResult : ∀ ns, s.results a ns = none
  beforePlugin : BeforePlugin (s.phase a)
  towardsWait : TowardsWait a kid keys (s.phase b)

theorem stalled_init : Stalled blk a b kid keys ValidatorState.init where
  bookkeeping := bookkeeping_init blk
  noResult _ := rfl
  beforePlugin := trivial
  towardsWait := .inl rfl

theorem Stalled.update {s s' : ValidatorState} (hStall : Stalled blk a b kid keys s)
    (hKeep : Bookkeeping blk s') (i : Nat) (p' : Phase)
    (hPhase' : s'.phase = Function.update s.phase i p') (hResults : s'.results a = s.results a)
    (hAllowedA : i = a → BeforePlugin p') (hAllowedB : i = b → TowardsWait a kid keys p') :
    Stalled blk a b kid keys s' where
  bookkeeping := hKeep
  noResult ns := by
    rw [hResults]
    exact hStall.noResult ns
  beforePlugin := by
    rw [hPhase']
    by_cases hai : a = i
    · subst hai
      rw [Function.update_self]
      exact hAllowedA rfl
    · rw [Function.update_of_ne hai]
      exact hStall.beforePlugin
  towardsWait := by
    rw [hPhase']
    by_cases hbi : b = i
    · subst hbi
      rw [Function.update_self]
      exact hAllowedB rfl
    · rw [Function.update_of_ne hbi]
      exact hStall.towardsWait

theorem Stalled.ne_of_plugin {s : ValidatorState} (hStall : Stalled blk a b kid keys s) {i : Nat}
    {p : Phase} (hPhase : s.phase i = p) (hPlugin : ¬ BeforePlugin p) : i ≠ a := by
  rintro rfl
  exact hPlugin (hPhase ▸ hStall.beforePlugin)

theorem Stalled.step (hWait : WaitsForRejected blk a b txA txB kid keys) {s s' : ValidatorState}
    (hStall : Stalled blk a b kid keys s) (hStep : Step blk capacity s s') :
    Stalled blk a b kid keys s' := by
  have hKeep := hStall.bookkeeping.step capacity hStep
  have hTow := hStall.towardsWait
  cases hStep with
  | spawn _ _ =>
    exact hStall.update hKeep s.spawned .started rfl rfl (fun _ => trivial)
      (fun _ => .inr (.inl rfl))
  | reject i tx code hTx _ hCheck =>
    refine hStall.update hKeep i (.reply code) rfl rfl (fun _ => trivial) ?_
    rintro rfl
    rw [hWait.getB, Option.some.injEq] at hTx
    subst hTx
    rw [hWait.passesB] at hCheck
    cases hCheck
  | dispatch i tx ns rest hTx _ hCheck hNamespaces =>
    refine hStall.update hKeep i (.preValidate ns rest) rfl rfl ?_ ?_
    · rintro rfl
      rw [hWait.getA, Option.some.injEq] at hTx
      subst hTx
      exact absurd hCheck hWait.rejectedA
    · rintro rfl
      rw [hWait.getB, Option.some.injEq] at hTx
      subst hTx
      rw [hWait.namespacesB, List.cons.injEq] at hNamespaces
      obtain ⟨rfl, rfl⟩ := hNamespaces
      exact .inr (.inr (.inl rfl))
  | preValidate i tx ns rest hTx hPhase =>
    refine hStall.update hKeep i _ rfl rfl (fun hia => absurd hia
      (hStall.ne_of_plugin hPhase (by simp [BeforePlugin]))) ?_
    rintro rfl
    rw [hWait.getB, Option.some.injEq] at hTx
    subst hTx
    rw [hPhase] at hTow
    rcases hTow with h | h | h | h | h <;> cases h
    rw [hWait.keysB]
    exact .inr (.inr (.inr (.inl rfl)))
  | checkKey i ns rest kid' keys' hPhase hInserted =>
    refine hStall.update hKeep i _ rfl rfl (fun hia => absurd hia
      (hStall.ne_of_plugin hPhase (by simp [BeforePlugin]))) ?_
    rintro rfl
    rw [hPhase] at hTow
    rcases hTow with h | h | h | h | h <;> cases h
    rw [hWait.dependencies s.extracted hInserted]
    exact .inr (.inr (.inr (.inr rfl)))
  | conflict i j ns rest kid' keys' deps hPhase hResult =>
    refine hStall.update hKeep i _ rfl rfl (fun hia => absurd hia
      (hStall.ne_of_plugin hPhase (by simp [BeforePlugin]))) ?_
    rintro rfl
    rw [hPhase] at hTow
    rcases hTow with h | h | h | h | h <;> cases h
    rw [hStall.noResult] at hResult
    cases hResult
  | noConflict i j ns rest kid' keys' deps hPhase hResult =>
    refine hStall.update hKeep i _ rfl rfl (fun hia => absurd hia
      (hStall.ne_of_plugin hPhase (by simp [BeforePlugin]))) ?_
    rintro rfl
    rw [hPhase] at hTow
    rcases hTow with h | h | h | h | h <;> cases h
    rw [hStall.noResult] at hResult
    cases hResult
  | keyChecked i tx ns rest kid' keys' _ hPhase =>
    refine hStall.update hKeep i _ rfl rfl (fun hia => absurd hia
      (hStall.ne_of_plugin hPhase (by simp [BeforePlugin]))) ?_
    rintro rfl
    rw [hPhase] at hTow
    rcases hTow with h | h | h | h | h <;> cases h
  | evaluated i tx ns rest _ hPhase =>
    refine hStall.update hKeep i _ rfl rfl (fun hia => absurd hia
      (hStall.ne_of_plugin hPhase (by simp [BeforePlugin]))) ?_
    rintro rfl
    rw [hPhase] at hTow
    rcases hTow with h | h | h | h | h <;> cases h
  | postValidate i ns rest failed hPhase =>
    have hia := hStall.ne_of_plugin hPhase (by simp [BeforePlugin])
    refine hStall.update hKeep i _ rfl (Function.update_of_ne (Ne.symm hia) _ _)
      (fun h => absurd h hia) ?_
    rintro rfl
    rw [hPhase] at hTow
    rcases hTow with h | h | h | h | h <;> cases h
  | reply i code hPhase =>
    refine hStall.update hKeep i .finished rfl rfl (fun _ => trivial) ?_
    rintro rfl
    rw [hPhase] at hTow
    rcases hTow with h | h | h | h | h <;> cases h

/-- `Validate` never returns on such a block: in no reachable state has it read a result for
every transaction. -/
theorem validate_never_returns_when_metadata_writer_rejected
    (hWait : WaitsForRejected blk a b txA txB kid keys) (s : ValidatorState)
    (hReach : Reachable (Step blk capacity) ValidatorState.init s) : ¬ s.allReceived blk := by
  have hStall : Stalled blk a b kid keys s :=
    Reachable.invariant (Stalled blk a b kid keys) stalled_init
      (fun _ _ hInv hStep => hInv.step hWait hStep) hReach
  have hb : b < blk.length := (List.getElem?_eq_some_iff.mp hWait.getB).1
  have hUnfinished : s.phase b ≠ .finished := by
    rcases hStall.towardsWait with h | h | h | h | h <;> simp [h]
  exact Nat.ne_of_lt (hStall.bookkeeping.received_lt b hb hUnfinished)

end Stall

def replayedMetadataTx : BlockTx where
  preCheck := some (.rejectedBeforePlugin 30)
  ccID := "cc"
  rwset := ⟨[⟨"cc", ⟨[], [], [], [⟨"k", [⟨"VALIDATION_PARAMETER", [1]⟩]⟩]⟩, []⟩]⟩
  keyPolicyOk _ := true
  ccepOk _ := true

def writerTx : BlockTx where
  preCheck := none
  ccID := "cc"
  rwset := ⟨[⟨"cc", ⟨[], [], [⟨"k", false, [2]⟩], []⟩, []⟩]⟩
  keyPolicyOk _ := true
  ccepOk _ := true

theorem validate_never_returns_after_replayed_metadata_write :
    ∃ s, Reachable (Step [replayedMetadataTx, writerTx] 2) ValidatorState.init s ∧
      s.phase 1 = .await "cc" [] ⟨"cc", "", "k"⟩ [] [0] ∧
      ¬ s.allReceived [replayedMetadataTx, writerTx] := by
  have hWait : WaitsForRejected [replayedMetadataTx, writerTx] 0 1 replayedMetadataTx writerTx
      ⟨"cc", "", "k"⟩ [] :=
    ⟨by decide, rfl, rfl, by simp [replayedMetadataTx], by decide,
      fun j hj hj0 => absurd (by omega) hj0, rfl, by decide, by decide⟩
  have hReach := (((((((Reachable.refl (Step [replayedMetadataTx, writerTx] 2)
    ValidatorState.init).tail (.spawn _ (by decide) (by decide))).tail
    (.spawn _ (by decide) (by decide))).tail
    (.reject _ 0 replayedMetadataTx (.rejectedBeforePlugin 30) rfl rfl rfl)).tail
    (.reply _ 0 (.rejectedBeforePlugin 30) rfl)).tail
    (.dispatch _ 1 writerTx "cc" [] rfl rfl rfl (by decide))).tail
    (.preValidate _ 1 writerTx "cc" [] rfl rfl)).tail
    (.checkKey _ 1 "cc" [] ⟨"cc", "", "k"⟩ [] (by decide) (by decide))
  exact ⟨_, hReach, by decide,
    validate_never_returns_when_metadata_writer_rejected hWait _ hReach⟩

end FabricPeer.Committer
