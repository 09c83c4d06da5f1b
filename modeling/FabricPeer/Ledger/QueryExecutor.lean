import FabricPeer.Ledger.Merkle
import FabricPeer.Ledger.StateDb

/-! # Range queries during simulation

`txmgr/query_executor.go`: a range scan that a chaincode opens during simulation is a
`resultsItr` over the committed state. Each `Next` feeds the served key to a results helper and
moves the recorded `EndKey` to it, or, once the scan is exhausted, records the queried end key
and `ItrExhausted`. When the simulation ends, `addRangeQueryInfo` completes each recorded
`RangeQueryInfo` with the raw reads or their merkle summary.
-/

namespace FabricPeer.Ledger

open GoRun

set_option autoImplicit false

def queryReadsHashingEnabled : Bool := true

def maxDegreeQueryReadsHashing : Nat := 50

/-- `resultsItr` of a simulation; `dbItr` is what the scan of the committed state has left. -/
structure ResultsItr where
  ns : String
  endKey : String
  dbItr : List VersionedKV
  rangeQueryInfo : RangeQueryInfo
  rangeQueryResultsHelper : RangeQueryResultsHelper

/-- `newResultsItr` with no page size and a read-write set builder: only the start key is
recorded yet. -/
def newResultsItr (ns startKey endKey : String) (db : DB) (enableHashing : Bool)
    (maxDegree : Nat) : Run ResultsItr := do
  let dbItr := db.getStateRangeScanIterator ns startKey endKey
  let resultsHelper ← RangeQueryResultsHelper.newRangeQueryResultsHelper enableHashing maxDegree
  pure ⟨ns, endKey, dbItr, ⟨startKey, "", false, none⟩, resultsHelper⟩

/-- `queryExecutor.GetStateRangeScanIterator`. -/
def getStateRangeScanIterator (db : DB) (ns startKey endKey : String) : Run ResultsItr :=
  newResultsItr ns startKey endKey db queryReadsHashingEnabled maxDegreeQueryReadsHashing

/-- `rwsetutil.SetRawReads`. -/
def setRawReads (rqi : RangeQueryInfo) (kvReads : List KVRead) : RangeQueryInfo :=
  { rqi with readsInfo := some (.rawReads kvReads) }

/-- `rwsetutil.SetMerkelSummary`. -/
def setMerkelSummary (rqi : RangeQueryInfo) (merkleSummary : QueryReadsMerkleSummary) :
    RangeQueryInfo :=
  { rqi with readsInfo := some (.readsMerkleHashes merkleSummary) }

section

variable (hashFunc : HashFunc) (serializeKVReads : List KVRead → Except String Bytes)

namespace ResultsItr

def updateRangeQueryInfo (itr : ResultsItr) : Option VersionedKV → Run ResultsItr
  | none =>
    let rangeQueryInfo := { itr.rangeQueryInfo with itrExhausted := true, endKey := itr.endKey }
    .ok { itr with rangeQueryInfo }
  | some queryResult => do
    let helper ← itr.rangeQueryResultsHelper.addResult hashFunc serializeKVReads
      (newKVRead queryResult.key (some queryResult.version))
    let rangeQueryInfo := { itr.rangeQueryInfo with endKey := queryResult.key }
    pure { itr with rangeQueryResultsHelper := helper, rangeQueryInfo }

/-- `Next`: the next result of the scan, nil once it is exhausted. -/
def next (itr : ResultsItr) : Run (Option VersionedKV × ResultsItr) := do
  let (queryResult, dbItr) : Option VersionedKV × List VersionedKV := match itr.dbItr with
    | [] => (none, [])
    | queryResult :: rest => (some queryResult, rest)
  let itr ← updateRangeQueryInfo hashFunc serializeKVReads { itr with dbItr } queryResult
  pure (queryResult, itr)

def nextTimes (itr : ResultsItr) : Nat → Run ResultsItr
  | 0 => .ok itr
  | k + 1 => do
    let (_, itr) ← itr.next hashFunc serializeKVReads
    nextTimes itr k

end ResultsItr

/-- The body of the loop of `addRangeQueryInfo` for one iterator: its `RangeQueryInfo` with the
raw reads if any are left, or the merkle summary if one was built. -/
def addRangeQueryInfo (itr : ResultsItr) : Run RangeQueryInfo := do
  let (results, hash) ← itr.rangeQueryResultsHelper.done hashFunc serializeKVReads
  let rqi := itr.rangeQueryInfo
  let rqi := if results ≠ [] then setRawReads rqi results else rqi
  pure (match hash with
    | some hash => setMerkelSummary rqi hash
    | none => rqi)

/-- The `RangeQueryInfo` that a simulation records when its chaincode opens a range scan of `ns`
from `startKey` to `endKey` and calls `Next` `k` times before the simulation ends. -/
def recordRangeQuery (db : DB) (ns startKey endKey : String) (k : Nat) : Run RangeQueryInfo := do
  let itr ← getStateRangeScanIterator db ns startKey endKey
  let itr ← itr.nextTimes hashFunc serializeKVReads k
  addRangeQueryInfo hashFunc serializeKVReads itr

end

end FabricPeer.Ledger
