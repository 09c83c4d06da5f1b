import FabricPeer.Ledger.KvRwSet
import Mathlib.Data.List.Dedup

/-! # Parallel endorsement validation of a block

`txvalidator/v20/validator.go` validates the transactions of a block in parallel: a dispatcher
goroutine starts one worker per transaction, at most as many at once as the semaphore allows,
and `Validate` reads one result per transaction from an unbuffered channel. A worker that passes
the checks made before the plugins (`ValidateTransaction`, the channel, `checkTxIdDupsLedger`,
the sanity checks of `Dispatch`) runs the builtin plugin for every namespace it writes. With
key-level endorsement (`statebased/validator_keylevel.go`, `statebased/vpmanagerimpl.go`) the
plugin first records the metadata writes of every transaction up to its own (`PreValidate`,
once per transaction), then, for each key it writes, waits for the validation result of every
earlier transaction that writes the key's metadata, and publishes its own result at the end
(`PostValidate`). Each atomic action of a worker is one step of the relation `Step`; the
outcomes of signature and policy checks are given with the block.
-/

namespace FabricPeer.Committer

open FabricPeer.Ledger

set_option autoImplicit false

/-- `ledgerKeyID`. -/
structure LedgerKeyID where
  cc : String
  coll : String
  key : String
  deriving DecidableEq, Repr

inductive ValidationCode where
  | valid
  | endorsementPolicyFailure
  | rejectedBeforePlugin (code : Nat)
  deriving DecidableEq, Repr

/-- The keys whose metadata the write set writes: the dependencies that
`ExtractValidationParameterDependency` records for its transaction. -/
def metadataWriteKeys (rwset : TxRwSet) : List LedgerKeyID :=
  rwset.nsRwSets.flatMap fun rws =>
    rws.kvRwSet.metadataWrites.map (fun mw => ⟨rws.nameSpace, "", mw.key⟩) ++
      rws.collHashedRwSets.flatMap fun cw =>
        cw.hashedRwSet.metadataWrites.map fun mw => ⟨rws.nameSpace, cw.collectionName, mw.keyHash⟩

/-- The keys that `baseEvaluator.Evaluate` checks for namespace `ns`, in its order: public
writes, public metadata writes, then the writes and the metadata writes of the collections. -/
def evaluatedKeys (rwset : TxRwSet) (ns : String) : List LedgerKeyID :=
  (rwset.nsRwSets.filter (·.nameSpace = ns)).flatMap fun nsRWSet =>
    nsRWSet.kvRwSet.writes.map (fun w => ⟨ns, "", w.key⟩) ++
      nsRWSet.kvRwSet.metadataWrites.map (fun w => ⟨ns, "", w.key⟩) ++
      nsRWSet.collHashedRwSets.flatMap (fun c =>
        c.hashedRwSet.hashedWrites.map fun w => ⟨ns, c.collectionName, w.keyHash⟩) ++
      nsRWSet.collHashedRwSets.flatMap (fun c =>
        c.hashedRwSet.metadataWrites.map fun w => ⟨ns, c.collectionName, w.keyHash⟩)

def txWritesToNamespace (ns : NsRwSet) : Bool :=
  !ns.kvRwSet.writes.isEmpty ||
    ns.collHashedRwSets.any (fun c =>
      !c.hashedRwSet.hashedWrites.isEmpty || !c.hashedRwSet.metadataWrites.isEmpty) ||
    !ns.kvRwSet.metadataWrites.isEmpty

def wrNamespace (ccID : String) (rwset : TxRwSet) : List String :=
  (ccID :: (rwset.nsRwSets.filter txWritesToNamespace).map (·.nameSpace)).dedup

structure BlockTx where
  /-- `none` if the transaction passes every check made before the plugins, else its code. -/
  preCheck : Option ValidationCode
  ccID : String
  rwset : TxRwSet
  /-- Whether `checkSBAndCCEP` accepts the endorsements for the key, when no earlier
  transaction of the block changed the key's validation parameter. -/
  keyPolicyOk : LedgerKeyID → Bool
  /-- Whether `CheckCCEPIfNoEPChecked` accepts the endorsements for the namespace. -/
  ccepOk : String → Bool

inductive Phase where
  | idle
  | started
  /-- About to invoke the plugin for `ns`, `rest` being the namespaces after it. -/
  | preValidate (ns : String) (rest : List String)
  /-- Evaluating the policy of `ns`, with the keys still to check. -/
  | evaluate (ns : String) (rest : List String) (keys : List LedgerKeyID)
  /-- In `waitForValidationResults` for `kid`, with the earlier dependencies still to read. -/
  | await (ns : String) (rest : List String) (kid : LedgerKeyID) (keys : List LedgerKeyID)
      (deps : List Nat)
  /-- About to call `PostValidate(ns, err)`, `failed` telling whether `err` is not nil. -/
  | postValidate (ns : String) (rest : List String) (failed : Bool)
  /-- Sending the result to `Validate`. -/
  | reply (code : ValidationCode)
  | finished
  deriving DecidableEq, Repr

/-- The state of one `Validate` call. -/
structure ValidatorState where
  phase : Nat → Phase
  /-- `txDepOnce[j]` has run: the dependencies of transaction `j` are inserted. -/
  extracted : Nat → Bool
  /-- `validationResultMap` of each transaction: for a namespace, `some true` if its plugin
  returned no error. -/
  results : Nat → String → Option Bool
  /-- The loop index of the dispatcher goroutine. -/
  spawned : Nat
  /-- Semaphore permits held. -/
  inFlight : Nat
  /-- The results `Validate` has read, in the order they came. -/
  received : List (Nat × ValidationCode)

def ValidatorState.init : ValidatorState :=
  ⟨fun _ => .idle, fun _ => false, fun _ _ => none, 0, 0, []⟩

/-- `dependenciesForTxnum`: the earlier transactions whose inserted dependencies include the
key's metadata, in increasing order (Go iterates a map here). -/
def dependenciesForTxnum (blk : List BlockTx) (extracted : Nat → Bool) (kid : LedgerKeyID)
    (txnum : Nat) : List Nat :=
  (List.range txnum).filter fun j =>
    extracted j && match blk[j]? with
      | some tx => decide (kid ∈ metadataWriteKeys tx.rwset)
      | none => false

section

variable (blk : List BlockTx) (capacity : Nat)

def afterPostValidate (rest : List String) (failed : Bool) : Phase :=
  if failed then .reply .endorsementPolicyFailure
  else match rest with
    | [] => .reply .valid
    | ns :: rest => .preValidate ns rest

/-- One atomic action of the dispatcher goroutine or of the worker of transaction `i`. -/
inductive Step : ValidatorState → ValidatorState → Prop where
  /-- The dispatcher acquires a permit and starts the next worker. -/
  | spawn (s : ValidatorState) (hNext : s.spawned < blk.length) (hPermit : s.inFlight < capacity) :
      Step s { s with
        phase := Function.update s.phase s.spawned .started
        spawned := s.spawned + 1
        inFlight := s.inFlight + 1 }
  /-- A check before the plugins fails. -/
  | reject (s : ValidatorState) (i : Nat) (tx : BlockTx) (code : ValidationCode)
      (hTx : blk[i]? = some tx) (hPhase : s.phase i = .started) (hCheck : tx.preCheck = some code) :
      Step s { s with phase := Function.update s.phase i (.reply code) }
  /-- The checks before the plugins pass: `Dispatch` turns to the first namespace. -/
  | dispatch (s : ValidatorState) (i : Nat) (tx : BlockTx) (ns : String) (rest : List String)
      (hTx : blk[i]? = some tx) (hPhase : s.phase i = .started) (hCheck : tx.preCheck = none)
      (hNamespaces : wrNamespace tx.ccID tx.rwset = ns :: rest) :
      Step s { s with phase := Function.update s.phase i (.preValidate ns rest) }
  /-- `PreValidate`: the dependencies of every transaction up to `i` are inserted. -/
  | preValidate (s : ValidatorState) (i : Nat) (tx : BlockTx) (ns : String) (rest : List String)
      (hTx : blk[i]? = some tx) (hPhase : s.phase i = .preValidate ns rest) :
      Step s { s with
        phase := Function.update s.phase i (.evaluate ns rest (evaluatedKeys tx.rwset ns))
        extracted := fun j => s.extracted j || decide (j ≤ i) }
  /-- `GetValidationParameterForKey`, once the dependencies of all earlier transactions are
  inserted: it collects the earlier metadata writers of the key. -/
  | checkKey (s : ValidatorState) (i : Nat) (ns : String) (rest : List String)
      (kid : LedgerKeyID) (keys : List LedgerKeyID) (hPhase : s.phase i = .evaluate ns rest (kid :: keys))
      (hInserted : ∀ j < i, s.extracted j = true) :
      Step s { s with
        phase := Function.update s.phase i
          (.await ns rest kid keys (dependenciesForTxnum blk s.extracted kid i)) }
  /-- An earlier metadata writer of the key was valid: `ValidationParameterUpdatedError`. -/
  | conflict (s : ValidatorState) (i j : Nat) (ns : String) (rest : List String)
      (kid : LedgerKeyID) (keys : List LedgerKeyID) (deps : List Nat)
      (hPhase : s.phase i = .await ns rest kid keys (j :: deps)) (hResult : s.results j kid.cc = some true) :
      Step s { s with phase := Function.update s.phase i (.postValidate ns rest true) }
  /-- An earlier metadata writer of the key failed its validation: the next one is read. -/
  | noConflict (s : ValidatorState) (i j : Nat) (ns : String) (rest : List String)
      (kid : LedgerKeyID) (keys : List LedgerKeyID) (deps : List Nat)
      (hPhase : s.phase i = .await ns rest kid keys (j :: deps)) (hResult : s.results j kid.cc = some false) :
      Step s { s with phase := Function.update s.phase i (.await ns rest kid keys deps) }
  /-- No earlier writer changed the key's validation parameter: the key's policy decides. -/
  | keyChecked (s : ValidatorState) (i : Nat) (tx : BlockTx) (ns : String) (rest : List String)
      (kid : LedgerKeyID) (keys : List LedgerKeyID) (hTx : blk[i]? = some tx)
      (hPhase : s.phase i = .await ns rest kid keys []) :
      Step s { s with
        phase := Function.update s.phase i
          (if tx.keyPolicyOk kid then .evaluate ns rest keys else .postValidate ns rest true) }
  /-- Every key of the namespace passed: `CheckCCEPIfNoEPChecked` decides. -/
  | evaluated (s : ValidatorState) (i : Nat) (tx : BlockTx) (ns : String) (rest : List String)
      (hTx : blk[i]? = some tx) (hPhase : s.phase i = .evaluate ns rest []) :
      Step s { s with phase := Function.update s.phase i (.postValidate ns rest !(tx.ccepOk ns)) }
  /-- `PostValidate` publishes the result of the namespace. -/
  | postValidate (s : ValidatorState) (i : Nat) (ns : String) (rest : List String) (failed : Bool)
      (hPhase : s.phase i = .postValidate ns rest failed) :
      Step s { s with
        phase := Function.update s.phase i (afterPostValidate rest failed)
        results := Function.update s.results i (Function.update (s.results i) ns (some !failed)) }
  /-- The worker hands its result to `Validate` and releases its permit. -/
  | reply (s : ValidatorState) (i : Nat) (code : ValidationCode) (hPhase : s.phase i = .reply code) :
      Step s { s with
        phase := Function.update s.phase i .finished
        inFlight := s.inFlight - 1
        received := s.received ++ [(i, code)] }

def ValidatorState.allReceived (s : ValidatorState) : Prop := s.received.length = blk.length

end

end FabricPeer.Committer
