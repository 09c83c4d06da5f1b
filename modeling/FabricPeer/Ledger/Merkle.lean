import FabricPeer.Ledger.KvRwSet

/-! # Range query results hashed into a merkle tree

`RangeQueryResultsHelper` of `rwsetutil`: the results of a range query are fed one at a time;
every `maxDegree + 1` of them are serialized and hashed into a leaf, and every `maxDegree + 1`
hashes of a level are combined into one hash of the level above. The Go tree is a map from
levels to hash slices next to a `maxLevel` counter; the keys of that map never exceed
`maxLevel`, so it is a list of the levels `1 .. maxLevel` here, an absent level being `[]`.
The hash function and the proto marshalling of a chunk of reads are parameters.
-/

namespace FabricPeer.Ledger

open GoRun

set_option autoImplicit false

/-- `rwsetutil.HashFunc`. -/
abbrev HashFunc := Bytes → Except String Bytes

/-- `computeCombinedHash`: the hash of the concatenation of the hashes. -/
def computeCombinedHash (hashFunc : HashFunc) (hashes : List Bytes) : Run Bytes :=
  ofExcept (hashFunc hashes.flatten)

/-- `merkleTree`. `tree` holds the levels `1 .. maxLevel`, lowest first. -/
structure MerkleTree where
  tree : List (List Bytes)
  maxDegree : Nat
  two_le_maxDegree : 2 ≤ maxDegree

namespace MerkleTree

/-- `newMerkleTree`. -/
def newMerkleTree (maxDegree : Nat) : Run MerkleTree :=
  if h : maxDegree < 2 then
    .error (.error ("maxDegree [" ++ toString maxDegree ++
      "] should not be less than 2 in the merkle tree"))
  else .ok ⟨[[]], maxDegree, by omega⟩

/-- `getMaxLevel`. -/
def getMaxLevel (m : MerkleTree) : Nat := m.tree.length

/-- `getMaxLevelHashes`: `m.tree[m.maxLevel]`. -/
def getMaxLevelHashes (m : MerkleTree) : List Bytes := m.tree.getLastD []

/-- `isEmpty`. -/
def isEmpty (m : MerkleTree) : Bool := m.getMaxLevel == 1 && m.getMaxLevelHashes.length == 0

/-- `getSummery`. -/
def getSummery (m : MerkleTree) : QueryReadsMerkleSummary :=
  ⟨m.maxDegree, m.getMaxLevel, m.getMaxLevelHashes⟩

end MerkleTree

def updateFrom (hashFunc : HashFunc) (maxDegree : Nat) :
    List (List Bytes) → Bytes → Run (List (List Bytes))
  | [], h => .ok [[h]]
  | hashes :: above, h =>
    if (hashes ++ [h]).length ≤ maxDegree then .ok ((hashes ++ [h]) :: above)
    else do
      let nextLevelHash ← computeCombinedHash hashFunc (hashes ++ [h])
      let above ← updateFrom hashFunc maxDegree above nextLevelHash
      pure ([] :: above)

def doneFrom (hashFunc : HashFunc) : List Bytes → List (List Bytes) → Run (List (List Bytes))
  | _, [] => .ok []
  | carried, [top] => .ok [top ++ carried]
  | carried, hashes :: next :: above =>
    match hashes ++ carried with
    | [] => do
      let above ← doneFrom hashFunc [] (next :: above)
      pure ([] :: above)
    | [h] => do
      let above ← doneFrom hashFunc [h] (next :: above)
      pure ([] :: above)
    | currentLevelHashes => do
      let h ← computeCombinedHash hashFunc currentLevelHashes
      let above ← doneFrom hashFunc [h] (next :: above)
      pure ([] :: above)

namespace MerkleTree

/-- `update`: a new leaf-level hash, carried up as far as it completes levels. -/
def update (hashFunc : HashFunc) (m : MerkleTree) (nextLeafLevelHash : Bytes) : Run MerkleTree := do
  let tree ← updateFrom hashFunc m.maxDegree m.tree nextLeafLevelHash
  pure { m with tree }

/-- `done`: push the partial levels up to `maxLevel`, then combine the top level into a new
top when it holds more than `maxDegree` hashes. -/
def done (hashFunc : HashFunc) (m : MerkleTree) : Run MerkleTree := do
  let tree ← doneFrom hashFunc [] m.tree
  let finalHashes := tree.getLastD []
  if finalHashes.length > m.maxDegree then
    let combinedHash ← computeCombinedHash hashFunc finalHashes
    pure { m with tree := tree.dropLast ++ [[], [combinedHash]] }
  else pure { m with tree }

theorem update_single_of_lt (hashFunc : HashFunc) (m : MerkleTree) (hashes : List Bytes)
    (h : Bytes) (hTree : m.tree = [hashes]) (hLt : hashes.length < m.maxDegree) :
    m.update hashFunc h = .ok { m with tree := [hashes ++ [h]] } := by
  have hLe : (hashes ++ [h]).length ≤ m.maxDegree := by
    simp only [List.length_append, List.length_singleton]
    omega
  simp only [update, hTree, updateFrom, if_pos hLe]
  rfl

theorem update_single_of_eq (hashFunc : HashFunc) (m : MerkleTree) (hashes : List Bytes)
    (h combined : Bytes) (hTree : m.tree = [hashes]) (hEq : hashes.length = m.maxDegree)
    (hCombined : computeCombinedHash hashFunc (hashes ++ [h]) = .ok combined) :
    m.update hashFunc h = .ok { m with tree := [[], [combined]] } := by
  have hGt : ¬ (hashes ++ [h]).length ≤ m.maxDegree := by simp [hEq]
  simp only [update, hTree, updateFrom, if_neg hGt, hCombined, bind_ok]
  rfl

theorem done_single (hashFunc : HashFunc) (m : MerkleTree) (hashes : List Bytes)
    (hTree : m.tree = [hashes]) (hLe : hashes.length ≤ m.maxDegree) :
    m.done hashFunc = .ok m := by
  have hNot : ¬ hashes.length > m.maxDegree := by omega
  simp only [done, hTree, doneFrom, List.append_nil, bind_ok, List.getLastD_cons,
    List.getLastD_nil, if_neg hNot]
  cases m
  subst hTree
  rfl

end MerkleTree

/-- `RangeQueryResultsHelper`; the hash function is passed to its operations. -/
structure RangeQueryResultsHelper where
  pendingResults : List KVRead
  mt : Option MerkleTree
  maxDegree : Nat
  hashingEnabled : Bool

namespace RangeQueryResultsHelper

section

variable (hashFunc : HashFunc) (serializeKVReads : List KVRead → Except String Bytes)

def merkleTree (helper : RangeQueryResultsHelper) : Run MerkleTree :=
  match helper.mt with
  | some mt => .ok mt
  | none => .error (.panic "invalid memory address or nil pointer dereference")

/-- `NewRangeQueryResultsHelper`. -/
def newRangeQueryResultsHelper (enableHashing : Bool) (maxDegree : Nat) :
    Run RangeQueryResultsHelper :=
  if enableHashing then do
    let mt ← MerkleTree.newMerkleTree maxDegree
    pure ⟨[], some mt, maxDegree, enableHashing⟩
  else .ok ⟨[], none, maxDegree, enableHashing⟩

/-- `processPendingResults`: the pending reads become one leaf hash. -/
def processPendingResults (helper : RangeQueryResultsHelper) : Run RangeQueryResultsHelper := do
  let b ← ofExcept (serializeKVReads helper.pendingResults)
  let hash ← ofExcept (hashFunc b)
  let mt ← helper.merkleTree
  let mt ← mt.update hashFunc hash
  pure { helper with pendingResults := [], mt := some mt }

/-- `AddResult`. -/
def addResult (helper : RangeQueryResultsHelper) (kvRead : KVRead) : Run RangeQueryResultsHelper :=
  let helper := { helper with pendingResults := helper.pendingResults ++ [kvRead] }
  if helper.hashingEnabled && decide (helper.pendingResults.length > helper.maxDegree) then
    processPendingResults hashFunc serializeKVReads helper
  else .ok helper

def addResults (helper : RangeQueryResultsHelper) : List KVRead → Run RangeQueryResultsHelper
  | [] => .ok helper
  | kvRead :: rest => do
    let helper ← addResult hashFunc serializeKVReads helper kvRead
    addResults helper rest

/-- `Done`: the raw reads, or the merkle summary once some leaf was hashed. -/
def done (helper : RangeQueryResultsHelper) :
    Run (List KVRead × Option QueryReadsMerkleSummary) := do
  if !helper.hashingEnabled then return (helper.pendingResults, none)
  let mt ← helper.merkleTree
  if mt.isEmpty then return (helper.pendingResults, none)
  let helper ← if helper.pendingResults.length ≠ 0 then
      processPendingResults hashFunc serializeKVReads helper
    else pure helper
  let mt ← helper.merkleTree
  let mt ← mt.done hashFunc
  return (helper.pendingResults, some mt.getSummery)

/-- `GetMerkleSummary`. -/
def getMerkleSummary (helper : RangeQueryResultsHelper) : Run (Option QueryReadsMerkleSummary) :=
  if !helper.hashingEnabled then .ok none
  else do
    let mt ← helper.merkleTree
    pure (some mt.getSummery)

theorem addResult_of_lt (helper : RangeQueryResultsHelper) (kvRead : KVRead)
    (hLt : helper.pendingResults.length < helper.maxDegree) :
    addResult hashFunc serializeKVReads helper kvRead =
      .ok { helper with pendingResults := helper.pendingResults ++ [kvRead] } := by
  have hNot : ¬ helper.pendingResults.length + 1 > helper.maxDegree := by omega
  simp [addResult, hNot]

theorem addResult_of_eq (helper : RangeQueryResultsHelper) (kvRead : KVRead)
    (mt mt' : MerkleTree) (b hash : Bytes) (hEnabled : helper.hashingEnabled = true)
    (hEq : helper.pendingResults.length = helper.maxDegree) (hMt : helper.mt = some mt)
    (hSerialize : serializeKVReads (helper.pendingResults ++ [kvRead]) = .ok b)
    (hHash : hashFunc b = .ok hash) (hUpdate : mt.update hashFunc hash = .ok mt') :
    addResult hashFunc serializeKVReads helper kvRead =
      .ok { helper with pendingResults := [], mt := some mt' } := by
  have hGt : helper.pendingResults.length + 1 > helper.maxDegree := by omega
  simp [addResult, processPendingResults, merkleTree, hEnabled, hGt, hSerialize, hHash, hMt,
    hUpdate]

theorem addResults_append (helper : RangeQueryResultsHelper) (kvReads rest : List KVRead) :
    addResults hashFunc serializeKVReads helper (kvReads ++ rest) =
      addResults hashFunc serializeKVReads helper kvReads >>=
        fun helper => addResults hashFunc serializeKVReads helper rest := by
  induction kvReads generalizing helper with
  | nil => rfl
  | cons kvRead kvReads ih =>
    simp only [List.cons_append, addResults]
    cases addResult hashFunc serializeKVReads helper kvRead with
    | error e => rfl
    | ok helper => exact ih helper

theorem addResults_of_le (helper : RangeQueryResultsHelper) (kvReads : List KVRead)
    (hLe : helper.pendingResults.length + kvReads.length ≤ helper.maxDegree) :
    addResults hashFunc serializeKVReads helper kvReads =
      .ok { helper with pendingResults := helper.pendingResults ++ kvReads } := by
  induction kvReads generalizing helper with
  | nil => simp [addResults]
  | cons kvRead kvReads ih =>
    have hLt : helper.pendingResults.length < helper.maxDegree := by
      simp only [List.length_cons] at hLe
      omega
    have hRest := ih { helper with pendingResults := helper.pendingResults ++ [kvRead] }
      (by simp only [List.length_append, List.length_cons, List.length_nil] at hLe ⊢; omega)
    simp only [addResults, addResult_of_lt hashFunc serializeKVReads helper kvRead hLt, bind_ok,
      hRest, List.append_assoc, List.singleton_append]

end

end RangeQueryResultsHelper

end FabricPeer.Ledger
