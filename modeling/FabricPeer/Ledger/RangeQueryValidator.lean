import FabricPeer.Ledger.Merkle

/-! # Phantom-read validation of one range query

The two validators of `validation/rangequery_validator.go`. Both read the results of the
combined iterator, the committed state overlaid with the writes of the preceding valid
transactions of the block; the iterator is the list of those results here, since its `Next`
has no effect on the state. The raw validator compares the recorded reads one by one; the
hash validator rebuilds the merkle tree of the results and compares it with the recorded
summary at the summary's top level as soon as a hash of that level is complete.
-/

namespace FabricPeer.Ledger

open GoRun

set_option autoImplicit false

def VersionedKV.toKVRead (result : VersionedKV) : KVRead := newKVRead result.key (some result.version)

/-- `merkleSummariesEqual`. -/
def merkleSummariesEqual (ms : QueryReadsMerkleSummary) : Option QueryReadsMerkleSummary → Bool
  | none => false
  | some anotherMS =>
    ms.maxDegree == anotherMS.maxDegree && ms.maxLevel == anotherMS.maxLevel &&
      ms.maxLevelHashes.length == anotherMS.maxLevelHashes.length &&
      ms.maxLevelHashes == anotherMS.maxLevelHashes

def rawReadsMatch : List KVRead → List VersionedKV → Run Bool
  | [], results => .ok results.isEmpty
  | _ :: _, [] => .ok false
  | kvRead :: kvReads, result :: results =>
    if result.key ≠ kvRead.key then .ok false
    else do
      let readVersion ← convertToVersionHeight kvRead.version
      if !areSame (some result.version) (some readVersion) then .ok false
      else rawReadsMatch kvReads results

/-- `rangeQueryResultsValidator.validate` (after `init`). -/
def rangeQueryResultsValidate (rqInfo : RangeQueryInfo) (results : List VersionedKV) : Run Bool :=
  let rqResults := rqInfo.getRawReads
  if rqResults.length = 0 then .ok results.isEmpty
  else rawReadsMatch rqResults results

section

variable (hashFunc : HashFunc) (serializeKVReads : List KVRead → Except String Bytes)

/-- `rangeQueryHashValidator.init`: a hashing helper of the recorded summary's degree. -/
def rangeQueryHashInit (rqInfo : RangeQueryInfo) : Run RangeQueryResultsHelper :=
  match rqInfo.getReadsMerkleHashes with
  | none => .error (.panic "invalid memory address or nil pointer dereference")
  | some inMerkle => RangeQueryResultsHelper.newRangeQueryResultsHelper true inMerkle.maxDegree

def hashValidateLoop (inMerkle : QueryReadsMerkleSummary) :
    RangeQueryResultsHelper → Int → List VersionedKV → Run Bool
  | helper, _, [] => do
    let (_, merkle) ← helper.done hashFunc serializeKVReads
    pure (merkleSummariesEqual inMerkle merkle)
  | helper, lastMatchedIndex, result :: results => do
    let helper ← helper.addResult hashFunc serializeKVReads result.toKVRead
    let merkle ← helper.getMerkleSummary
    match merkle with
    | none => .error (.panic "invalid memory address or nil pointer dereference")
    | some merkle =>
      if merkle.maxLevel < inMerkle.maxLevel then
        hashValidateLoop inMerkle helper lastMatchedIndex results
      else if lastMatchedIndex = (merkle.maxLevelHashes.length : Int) - 1 then
        hashValidateLoop inMerkle helper lastMatchedIndex results
      else if merkle.maxLevelHashes.length > inMerkle.maxLevelHashes.length then .ok false
      else do
        let lastMatchedIndex := lastMatchedIndex + 1
        let computed ← index merkle.maxLevelHashes lastMatchedIndex
        let recorded ← index inMerkle.maxLevelHashes lastMatchedIndex
        if computed ≠ recorded then .ok false
        else hashValidateLoop inMerkle helper lastMatchedIndex results

/-- `rangeQueryHashValidator` (`init` then `validate`). -/
def rangeQueryHashValidate (rqInfo : RangeQueryInfo) (results : List VersionedKV) : Run Bool := do
  let helper ← rangeQueryHashInit rqInfo
  match rqInfo.getReadsMerkleHashes with
  | none => .error (.panic "invalid memory address or nil pointer dereference")
  | some inMerkle => hashValidateLoop hashFunc serializeKVReads inMerkle helper (-1) results

end

section Outgrown

/-! ## Results that outgrow the recorded summary

Hashing is taken to succeed: `hash` and `marshal` stand for the hash function and the proto
marshalling of a chunk of reads. A recorded summary whose top level is level 1 with
`maxDegree` hashes is matched hash by hash; one more chunk of results then completes level 1,
which the tree replaces by a new level 2 of one hash, while the index of the next hash to
compare has already reached `maxDegree`. -/

variable (hash : Bytes → Bytes) (marshal : List KVRead → Bytes)

/-- The leaf hash of one chunk of `maxDegree + 1` results. -/
def leafOf (chunk : List VersionedKV) : Bytes := hash (marshal (chunk.map VersionedKV.toKVRead))

def levelOneHelper (d : Nat) (hd : 2 ≤ d) (pending : List KVRead) (hashes : List Bytes) :
    RangeQueryResultsHelper :=
  ⟨pending, some ⟨[hashes], d, hd⟩, d, true⟩

theorem levelOneHelper_getMerkleSummary (d : Nat) (hd : 2 ≤ d) (pending : List KVRead)
    (hashes : List Bytes) :
    (levelOneHelper d hd pending hashes).getMerkleSummary = .ok (some ⟨d, 1, hashes⟩) := rfl

theorem levelOneHelper_addResult_queue (d : Nat) (hd : 2 ≤ d) (pending : List KVRead)
    (hashes : List Bytes) (kvRead : KVRead) (hLt : pending.length < d) :
    (levelOneHelper d hd pending hashes).addResult (fun b => .ok (hash b))
        (fun kvReads => .ok (marshal kvReads)) kvRead =
      .ok (levelOneHelper d hd (pending ++ [kvRead]) hashes) :=
  RangeQueryResultsHelper.addResult_of_lt _ _ (levelOneHelper d hd pending hashes) kvRead hLt

theorem levelOneHelper_addResult_leaf (d : Nat) (hd : 2 ≤ d) (pending : List KVRead)
    (hashes : List Bytes) (kvRead : KVRead) (hFull : pending.length = d)
    (hRoom : hashes.length < d) :
    (levelOneHelper d hd pending hashes).addResult (fun b => .ok (hash b))
        (fun kvReads => .ok (marshal kvReads)) kvRead =
      .ok (levelOneHelper d hd [] (hashes ++ [hash (marshal (pending ++ [kvRead]))])) :=
  RangeQueryResultsHelper.addResult_of_eq _ _ (levelOneHelper d hd pending hashes) kvRead
    ⟨[hashes], d, hd⟩ ⟨[hashes ++ [hash (marshal (pending ++ [kvRead]))]], d, hd⟩
    (marshal (pending ++ [kvRead])) (hash (marshal (pending ++ [kvRead]))) rfl hFull rfl rfl rfl
    (MerkleTree.update_single_of_lt _ ⟨[hashes], d, hd⟩ hashes _ rfl hRoom)

theorem levelOneHelper_addResult_overflow (d : Nat) (hd : 2 ≤ d) (pending : List KVRead)
    (hashes : List Bytes) (kvRead : KVRead) (hFull : pending.length = d)
    (hTop : hashes.length = d) :
    (levelOneHelper d hd pending hashes).addResult (fun b => .ok (hash b))
        (fun kvReads => .ok (marshal kvReads)) kvRead =
      .ok ⟨[], some ⟨[[], [hash (hashes ++ [hash (marshal (pending ++ [kvRead]))]).flatten]], d, hd⟩,
        d, true⟩ :=
  RangeQueryResultsHelper.addResult_of_eq _ _ (levelOneHelper d hd pending hashes) kvRead
    ⟨[hashes], d, hd⟩ _ (marshal (pending ++ [kvRead])) (hash (marshal (pending ++ [kvRead]))) rfl
    hFull rfl rfl rfl (MerkleTree.update_single_of_eq _ ⟨[hashes], d, hd⟩ hashes _ _ rfl hTop rfl)

theorem hashValidateLoop_queue (inMerkle : QueryReadsMerkleSummary) (d : Nat) (hd : 2 ≤ d)
    (hashes : List Bytes) (pending : List KVRead) (results rest : List VersionedKV)
    (hLe : pending.length + results.length ≤ d) :
    hashValidateLoop (fun b => .ok (hash b)) (fun kvReads => .ok (marshal kvReads)) inMerkle
        (levelOneHelper d hd pending hashes) ((hashes.length : Int) - 1) (results ++ rest) =
      hashValidateLoop (fun b => .ok (hash b)) (fun kvReads => .ok (marshal kvReads)) inMerkle
        (levelOneHelper d hd (pending ++ results.map VersionedKV.toKVRead) hashes)
        ((hashes.length : Int) - 1) rest := by
  induction results generalizing pending with
  | nil => simp
  | cons result results ih =>
    have hLt : pending.length < d := by
      simp only [List.length_cons] at hLe
      omega
    have hNext := ih (pending ++ [result.toKVRead])
      (by simp only [List.length_append, List.length_cons, List.length_nil] at hLe ⊢; omega)
    rw [List.cons_append, hashValidateLoop, levelOneHelper_addResult_queue hash marshal d hd
      pending hashes result.toKVRead hLt, bind_ok, levelOneHelper_getMerkleSummary, bind_ok]
    simp only [List.map_cons, List.append_assoc, List.singleton_append] at hNext ⊢
    by_cases hLevel : 1 < inMerkle.maxLevel
    · rw [if_pos hLevel, hNext]
    · rw [if_neg hLevel, if_pos trivial, hNext]

theorem exists_eq_append_last {α : Type} (chunk : List α) (d : Nat) (hChunk : chunk.length = d + 1) :
    ∃ init last, chunk = init ++ [last] ∧ init.length = d := by
  rcases List.eq_nil_or_concat chunk with h | ⟨init, last, h⟩
  · simp [h] at hChunk
  · refine ⟨init, last, by simpa using h, ?_⟩
    simp only [h, List.concat_eq_append, List.length_append, List.length_singleton] at hChunk
    omega

theorem hashValidateLoop_leaf (inMerkle : QueryReadsMerkleSummary) (d : Nat) (hd : 2 ≤ d)
    (hashes : List Bytes) (chunk rest : List VersionedKV) (more : List Bytes)
    (hChunk : chunk.length = d + 1) (hRoom : hashes.length < d) (hLevel : inMerkle.maxLevel = 1)
    (hRecorded : inMerkle.maxLevelHashes = hashes ++ leafOf hash marshal chunk :: more) :
    hashValidateLoop (fun b => .ok (hash b)) (fun kvReads => .ok (marshal kvReads)) inMerkle
        (levelOneHelper d hd [] hashes) ((hashes.length : Int) - 1) (chunk ++ rest) =
      hashValidateLoop (fun b => .ok (hash b)) (fun kvReads => .ok (marshal kvReads)) inMerkle
        (levelOneHelper d hd [] (hashes ++ [leafOf hash marshal chunk]))
        (((hashes ++ [leafOf hash marshal chunk]).length : Int) - 1) rest := by
  obtain ⟨init, last, rfl, hInit⟩ := exists_eq_append_last chunk d hChunk
  have hLeaf : hash (marshal (init.map VersionedKV.toKVRead ++ [last.toKVRead])) =
      leafOf hash marshal (init ++ [last]) := by
    simp [leafOf]
  have hIndex : (hashes.length : Int) - 1 + 1 = (hashes.length : Nat) := by omega
  have hNewLength : (((hashes ++ [leafOf hash marshal (init ++ [last])]).length : Nat) : Int) - 1 =
      (hashes.length : Nat) := by simp
  rw [List.append_assoc, List.singleton_append,
    hashValidateLoop_queue hash marshal inMerkle d hd hashes [] init (last :: rest) (by simp [hInit]),
    hashValidateLoop, List.nil_append,
    levelOneHelper_addResult_leaf hash marshal d hd _ hashes last.toKVRead (by simp [hInit]) hRoom,
    bind_ok, levelOneHelper_getMerkleSummary, bind_ok, hLeaf, hNewLength]
  dsimp only
  have hNotBelow : ¬ 1 < inMerkle.maxLevel := by omega
  have hNotLast : ¬ (hashes.length : Int) - 1 =
      ((hashes ++ [leafOf hash marshal (init ++ [last])]).length : Int) - 1 := by
    rw [hNewLength]
    omega
  have hNotLonger : ¬ (hashes ++ [leafOf hash marshal (init ++ [last])]).length >
      inMerkle.maxLevelHashes.length := by simp [hRecorded]
  rw [if_neg hNotBelow, if_neg hNotLast, if_neg hNotLonger, hIndex, index_append_length, bind_ok,
    hRecorded, index_append_length, bind_ok, if_neg (by simp)]

theorem hashValidateLoop_chunks (inMerkle : QueryReadsMerkleSummary) (d : Nat) (hd : 2 ≤ d)
    (chunks : List (List VersionedKV)) (hashes more : List Bytes) (rest : List VersionedKV)
    (hSize : ∀ chunk ∈ chunks, chunk.length = d + 1) (hRoom : hashes.length + chunks.length ≤ d)
    (hLevel : inMerkle.maxLevel = 1)
    (hRecorded : inMerkle.maxLevelHashes = hashes ++ chunks.map (leafOf hash marshal) ++ more) :
    hashValidateLoop (fun b => .ok (hash b)) (fun kvReads => .ok (marshal kvReads)) inMerkle
        (levelOneHelper d hd [] hashes) ((hashes.length : Int) - 1) (chunks.flatten ++ rest) =
      hashValidateLoop (fun b => .ok (hash b)) (fun kvReads => .ok (marshal kvReads)) inMerkle
        (levelOneHelper d hd [] (hashes ++ chunks.map (leafOf hash marshal)))
        (((hashes ++ chunks.map (leafOf hash marshal)).length : Int) - 1) rest := by
  induction chunks generalizing hashes with
  | nil => simp
  | cons chunk chunks ih =>
    have hChunk := hSize chunk List.mem_cons_self
    have hNext := ih (hashes ++ [leafOf hash marshal chunk])
      (fun c hc => hSize c (List.mem_cons_of_mem _ hc))
      (by simp only [List.length_append, List.length_cons, List.length_nil] at hRoom ⊢; omega)
      (by simpa using hRecorded)
    rw [List.flatten_cons, List.append_assoc,
      hashValidateLoop_leaf hash marshal inMerkle d hd hashes chunk _ (chunks.map (leafOf hash marshal) ++ more)
        hChunk (by simp only [List.length_cons] at hRoom; omega) hLevel (by simpa using hRecorded),
      hNext]
    simp

theorem hashValidateLoop_overflow (inMerkle : QueryReadsMerkleSummary) (d : Nat) (hd : 2 ≤ d)
    (hashes : List Bytes) (chunk rest : List VersionedKV) (hChunk : chunk.length = d + 1)
    (hTop : hashes.length = d) (hLevel : inMerkle.maxLevel = 1)
    (hRecordedLength : inMerkle.maxLevelHashes.length = d) :
    hashValidateLoop (fun b => .ok (hash b)) (fun kvReads => .ok (marshal kvReads)) inMerkle
        (levelOneHelper d hd [] hashes) ((hashes.length : Int) - 1) (chunk ++ rest) =
      .error (.indexOutOfRange d 1) := by
  obtain ⟨init, last, rfl, hInit⟩ := exists_eq_append_last chunk d hChunk
  rw [List.append_assoc, List.singleton_append,
    hashValidateLoop_queue hash marshal inMerkle d hd hashes [] init (last :: rest) (by simp [hInit]),
    hashValidateLoop, List.nil_append,
    levelOneHelper_addResult_overflow hash marshal d hd _ hashes last.toKVRead (by simp [hInit]) hTop,
    bind_ok]
  have hSummary : ∀ top : Bytes,
      (⟨[], some ⟨[[], [top]], d, hd⟩, d, true⟩ : RangeQueryResultsHelper).getMerkleSummary =
        .ok (some ⟨d, 2, [top]⟩) := fun _ => rfl
  rw [hSummary, bind_ok]
  dsimp only
  simp only [List.length_singleton]
  have hNotBelow : ¬ 2 < inMerkle.maxLevel := by omega
  have hNotLast : ¬ (hashes.length : Int) - 1 = ((1 : Nat) : Int) - 1 := by omega
  have hNotLonger : ¬ 1 > inMerkle.maxLevelHashes.length := by omega
  have hIndex : (hashes.length : Int) - 1 + 1 = ((d : Nat) : Int) := by omega
  rw [if_neg hNotBelow, if_neg hNotLast, if_neg hNotLonger, hIndex,
    index_of_le _ d (by simp only [List.length_singleton]; omega)]
  rfl

theorem levelOneHelper_addResults_chunk (d : Nat) (hd : 2 ≤ d) (hashes : List Bytes)
    (chunk : List VersionedKV) (hChunk : chunk.length = d + 1) (hRoom : hashes.length < d) :
    (levelOneHelper d hd [] hashes).addResults (fun b => .ok (hash b))
        (fun kvReads => .ok (marshal kvReads)) (chunk.map VersionedKV.toKVRead) =
      .ok (levelOneHelper d hd [] (hashes ++ [leafOf hash marshal chunk])) := by
  obtain ⟨init, last, rfl, hInit⟩ := exists_eq_append_last chunk d hChunk
  rw [List.map_append, RangeQueryResultsHelper.addResults_append,
    RangeQueryResultsHelper.addResults_of_le _ _ _ _ (by simp [levelOneHelper, hInit]), bind_ok]
  change RangeQueryResultsHelper.addResults _ _
    (levelOneHelper d hd (init.map VersionedKV.toKVRead) hashes) [last.toKVRead] = _
  rw [RangeQueryResultsHelper.addResults, levelOneHelper_addResult_leaf hash marshal d hd
    (init.map VersionedKV.toKVRead) hashes last.toKVRead (by simp [hInit]) hRoom, bind_ok]
  simp [leafOf, RangeQueryResultsHelper.addResults]

theorem levelOneHelper_addResults_chunks (d : Nat) (hd : 2 ≤ d) (chunks : List (List VersionedKV))
    (hashes : List Bytes) (hSize : ∀ chunk ∈ chunks, chunk.length = d + 1)
    (hRoom : hashes.length + chunks.length ≤ d) :
    (levelOneHelper d hd [] hashes).addResults (fun b => .ok (hash b))
        (fun kvReads => .ok (marshal kvReads)) (chunks.flatten.map VersionedKV.toKVRead) =
      .ok (levelOneHelper d hd [] (hashes ++ chunks.map (leafOf hash marshal))) := by
  induction chunks generalizing hashes with
  | nil => simp [RangeQueryResultsHelper.addResults]
  | cons chunk chunks ih =>
    simp only [List.length_cons] at hRoom
    rw [List.flatten_cons, List.map_append, RangeQueryResultsHelper.addResults_append,
      levelOneHelper_addResults_chunk hash marshal d hd hashes chunk (hSize chunk List.mem_cons_self)
        (by omega), bind_ok,
      ih (hashes ++ [leafOf hash marshal chunk]) (fun c hc => hSize c (List.mem_cons_of_mem _ hc))
        (by simp only [List.length_append, List.length_cons, List.length_nil]; omega)]
    simp

theorem levelOneHelper_done (d : Nat) (hd : 2 ≤ d) (hashes : List Bytes) (hNonempty : hashes ≠ [])
    (hLe : hashes.length ≤ d) :
    (levelOneHelper d hd [] hashes).done (fun b => .ok (hash b)) (fun kvReads => .ok (marshal kvReads)) =
      .ok ([], some ⟨d, 1, hashes⟩) := by
  have hNotEmpty : (⟨[hashes], d, hd⟩ : MerkleTree).isEmpty = false := by
    cases hashes with
    | nil => contradiction
    | cons h hs => rfl
  simp only [RangeQueryResultsHelper.done, levelOneHelper, RangeQueryResultsHelper.merkleTree,
    Bool.not_true, Bool.false_eq_true, if_false, bind_ok, hNotEmpty, List.length_nil, ne_eq,
    not_true_eq_false, pure_bind,
    MerkleTree.done_single (fun b => .ok (hash b)) ⟨[hashes], d, hd⟩ hashes rfl hLe]
  rfl

theorem newRangeQueryResultsHelper_hashing (d : Nat) (hd : 2 ≤ d) :
    RangeQueryResultsHelper.newRangeQueryResultsHelper true d = .ok (levelOneHelper d hd [] []) := by
  have hNot : ¬ d < 2 := by omega
  simp only [RangeQueryResultsHelper.newRangeQueryResultsHelper, MerkleTree.newMerkleTree,
    dif_neg hNot, if_true, bind_ok]
  rfl

/-- Phantom validation by merkle summary panics instead of returning false. For every degree
`d ≥ 2`: simulation serves `d` chunks of `d + 1` results, so the recorded summary is level 1
with `d` hashes; validation then serves these results followed by at least `d + 1` more. The
validator matches all `d` recorded hashes, the next chunk turns level 1 into a level 2 of one
hash, and the validator reads index `d` of that one-hash slice. -/
theorem rangeQueryHashValidate_panics_when_results_outgrow_summary
    (hash : Bytes → Bytes) (marshal : List KVRead → Bytes) (d : Nat) (hd : 2 ≤ d)
    (chunks : List (List VersionedKV)) (hChunks : chunks.length = d)
    (hSize : ∀ chunk ∈ chunks, chunk.length = d + 1) (extra : List VersionedKV)
    (hExtra : d + 1 ≤ extra.length) (startKey endKey : String) (itrExhausted : Bool) :
    (do
      let helper ← RangeQueryResultsHelper.newRangeQueryResultsHelper true d
      let helper ← helper.addResults (fun b => .ok (hash b)) (fun kvReads => .ok (marshal kvReads))
        (chunks.flatten.map VersionedKV.toKVRead)
      helper.done (fun b => .ok (hash b)) (fun kvReads => .ok (marshal kvReads))) =
        .ok ([], some ⟨d, 1, chunks.map (leafOf hash marshal)⟩) ∧
    rangeQueryHashValidate (fun b => .ok (hash b)) (fun kvReads => .ok (marshal kvReads))
        ⟨startKey, endKey, itrExhausted,
          some (.readsMerkleHashes ⟨d, 1, chunks.map (leafOf hash marshal)⟩)⟩
        (chunks.flatten ++ extra) =
      .error (.indexOutOfRange d 1) := by
  have hLeaves : chunks.map (leafOf hash marshal) ≠ [] := by
    intro hNil
    have := congrArg List.length hNil
    simp only [List.length_map, List.length_nil] at this
    omega
  constructor
  · rw [newRangeQueryResultsHelper_hashing d hd, bind_ok,
      levelOneHelper_addResults_chunks hash marshal d hd chunks [] hSize (by simp [hChunks]),
      bind_ok, List.nil_append, levelOneHelper_done hash marshal d hd _ hLeaves (by simp [hChunks])]
  · obtain ⟨chunk, rest, rfl, hChunk⟩ : ∃ chunk rest, extra = chunk ++ rest ∧ chunk.length = d + 1 :=
      ⟨extra.take (d + 1), extra.drop (d + 1), (List.take_append_drop _ _).symm,
        by simp only [List.length_take]; omega⟩
    have hStart : (-1 : Int) = (([] : List Bytes).length : Int) - 1 := by simp
    simp only [rangeQueryHashValidate, rangeQueryHashInit, RangeQueryInfo.getReadsMerkleHashes,
      newRangeQueryResultsHelper_hashing d hd, bind_ok]
    rw [hStart, hashValidateLoop_chunks hash marshal _ d hd chunks [] [] (chunk ++ rest) hSize
      (by simp [hChunks]) rfl (by simp), List.nil_append,
      hashValidateLoop_overflow hash marshal _ d hd _ chunk rest hChunk (by simp [hChunks]) rfl
        (by simp [hChunks])]

def scannedResults (keys : List String) : List VersionedKV :=
  keys.map fun key => ⟨"ns", key, some [1], [], ⟨1, 0⟩⟩

theorem rangeQueryHashValidate_panics_sixteen_after_twelve :
    rangeQueryHashValidate (fun b => .ok (id b)) (fun kvReads => .ok ((fun _ => []) kvReads))
        ⟨"a", "", true, some (.readsMerkleHashes ⟨3, 1,
          [scannedResults ["a", "b", "c", "d"], scannedResults ["e", "f", "g", "h"],
            scannedResults ["i", "j", "k", "l"]].map (leafOf id fun _ => [])⟩)⟩
        ([scannedResults ["a", "b", "c", "d"], scannedResults ["e", "f", "g", "h"],
            scannedResults ["i", "j", "k", "l"]].flatten ++ scannedResults ["m", "n", "o", "p"]) =
      .error (.indexOutOfRange 3 1) :=
  (rangeQueryHashValidate_panics_when_results_outgrow_summary id (fun _ => []) 3 (by decide)
    [scannedResults ["a", "b", "c", "d"], scannedResults ["e", "f", "g", "h"],
      scannedResults ["i", "j", "k", "l"]] (by decide) (by decide)
    (scannedResults ["m", "n", "o", "p"]) (by decide) "a" "" true).2

end Outgrown

end FabricPeer.Ledger
