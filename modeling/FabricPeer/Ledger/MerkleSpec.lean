import FabricPeer.Ledger.RangeQueryValidator
import FabricPeer.Lib.Chunks

/-! # The merkle summary of range query results

The reference tree: the results cut into chunks of `maxDegree + 1`, each chunk hashed into a
leaf; each level above made of one hash for every chunk of the level below, a chunk of a single
hash going up as it is; the summary is the first level with at most `maxDegree` hashes
(`referenceSummary`).

`RangeQueryResultsHelper` builds it one result at a time. Its tree is the counter of that
construction in base `maxDegree + 1`: at each level it keeps the hashes after the last complete
chunk (`treeOf`), and `update` carries a completed chunk one level up (`updateFrom_treeOf`).
`done` then hashes the partial chunk of each level into the one above, from the bottom
(`doneFrom_treeOf`), which is how the reference tree ends as well. So `Done` after any run of
`AddResult` returns the reference summary of the results (`addResults_done_eq_referenceSummary`).
Hashing and marshalling are taken to succeed.
-/

namespace FabricPeer.Ledger

open GoRun Chunking

set_option autoImplicit false

section Reference

variable (hash : Bytes → Bytes) (d : ℕ)

def combine (hashes : List Bytes) : Bytes := hash hashes.flatten

def chunkHash (hashes : List Bytes) : Bytes :=
  match hashes with
  | [h] => h
  | hashes => combine hash hashes

def nextLevel (hashes : List Bytes) : List Bytes := (chunksOf d hashes).map (chunkHash hash)

/-- The summary of the reference tree whose level `level` holds `hashes`: the first level from
there with at most `maxDegree` hashes. -/
def referenceSummary (level : ℕ) (hashes : List Bytes) : QueryReadsMerkleSummary :=
  if h : hashes.length ≤ d ∨ d = 0 then ⟨d, level, hashes⟩
  else referenceSummary (level + 1) (nextLevel hash d hashes)
termination_by hashes.length
decreasing_by
  rw [nextLevel, List.length_map]
  exact length_chunksOf_lt (by omega) (by omega)

def completedAbove (hashes : List Bytes) : List Bytes :=
  (chunksOf d (completePart d hashes)).map (combine hash)

theorem length_completedAbove_lt {d : ℕ} (hd : 0 < d) {hashes : List Bytes}
    (h : completedAbove hash d hashes ≠ []) :
    (completedAbove hash d hashes).length < hashes.length := by
  have hComplete : completePart d hashes ≠ [] := by
    intro hNil
    rw [completedAbove, hNil, chunksOf_nil, List.map_nil] at h
    exact h rfl
  have hLong : d < hashes.length := by
    have := (completePart_eq_nil_iff (d := d) hashes).not.1 hComplete
    omega
  rw [completedAbove, List.length_map, length_chunksOf, length_completePart, completeLength,
    Nat.mul_add_div (Nat.succ_pos d), Nat.div_eq_of_lt (Nat.lt_succ_self d), Nat.add_zero]
  exact Nat.div_lt_self (by omega) (by omega)

def treeOf (leaves : List Bytes) : List (List Bytes) :=
  if d = 0 ∨ completedAbove hash d leaves = [] then [restPart d leaves]
  else restPart d leaves :: treeOf (completedAbove hash d leaves)
termination_by leaves.length
decreasing_by
  rename_i hLevels
  exact length_completedAbove_lt hash (Nat.pos_of_ne_zero fun h0 => hLevels (.inl h0))
    fun hNil => hLevels (.inr hNil)

/-- The results a tree stands for: a hash of level `l` is `(maxDegree + 1) ^ l` of them. -/
def resultsRepresented : List (List Bytes) → ℕ
  | [] => 0
  | hashes :: above => (d + 1) * (hashes.length + resultsRepresented above)

def leavesOf (marshal : List KVRead → Bytes) (results : List KVRead) : List Bytes :=
  (chunksOf d (completePart d results)).map fun chunk => hash (marshal chunk)

end Reference

section Levels

variable (hash : Bytes → Bytes) {d : ℕ}

theorem computeCombinedHash_ok (hashes : List Bytes) :
    computeCombinedHash (fun b => .ok (hash b)) hashes = .ok (combine hash hashes) := rfl

theorem chunkHash_of_two_le {hashes : List Bytes} (h : 2 ≤ hashes.length) :
    chunkHash hash hashes = combine hash hashes := by
  match hashes, h with
  | _ :: _ :: _, _ => rfl

theorem nextLevel_of_length_le {hashes : List Bytes} (h : hashes.length ≤ d + 1) :
    nextLevel hash d hashes = if hashes = [] then [] else [chunkHash hash hashes] := by
  split
  · rename_i hNil
    rw [hNil, nextLevel, chunksOf_nil, List.map_nil]
  · rename_i hNil
    rw [nextLevel, chunksOf_of_length_le hNil h, List.map_singleton]

theorem length_nextLevel_le {hashes : List Bytes} (h : hashes.length ≤ d + 1) :
    (nextLevel hash d hashes).length ≤ 1 := by
  rw [nextLevel_of_length_le hash h]
  split <;> simp

theorem nextLevel_append (hd : 0 < d) (F X : List Bytes) :
    nextLevel hash d (F ++ X) = completedAbove hash d F ++ nextLevel hash d (restPart d F ++ X) := by
  have hFull : ∀ c ∈ chunksOf d (completePart d F), chunkHash hash c = combine hash c :=
    fun c hc => chunkHash_of_two_le hash (by
      rw [length_of_mem_chunksOf _ (dvd_length_completePart F) c hc]
      omega)
  rw [nextLevel, ← completePart_append_restPart (d := d) F, List.append_assoc,
    chunksOf_append _ _ (dvd_length_completePart F), List.map_append, List.map_congr_left hFull,
    completePart_append_restPart, nextLevel, completedAbove]

theorem referenceSummary_of_le {level : ℕ} {hashes : List Bytes} (h : hashes.length ≤ d) :
    referenceSummary hash d level hashes = ⟨d, level, hashes⟩ := by
  rw [referenceSummary, dif_pos (.inl h)]

theorem referenceSummary_of_lt (hd : 0 < d) {level : ℕ} {hashes : List Bytes}
    (h : d < hashes.length) :
    referenceSummary hash d level hashes =
      referenceSummary hash d (level + 1) (nextLevel hash d hashes) := by
  rw [referenceSummary, dif_neg (by omega)]

theorem completedAbove_eq_nil_iff (hashes : List Bytes) :
    completedAbove hash d hashes = [] ↔ hashes.length ≤ d := by
  rw [completedAbove, List.map_eq_nil_iff, chunksOf_eq_nil_iff, completePart_eq_nil_iff]

theorem treeOf_eq_cons (hd : 0 < d) (leaves : List Bytes) :
    treeOf hash d leaves = restPart d leaves ::
      if completedAbove hash d leaves = [] then [] else treeOf hash d (completedAbove hash d leaves) := by
  rw [treeOf]
  by_cases hAbove : completedAbove hash d leaves = []
  · rw [if_pos (.inr hAbove), if_pos hAbove]
  · rw [if_neg (not_or.2 ⟨by omega, hAbove⟩), if_neg hAbove]

theorem treeOf_of_length_le (hd : 0 < d) {leaves : List Bytes} (h : leaves.length ≤ d) :
    treeOf hash d leaves = [leaves] := by
  rw [treeOf_eq_cons hash hd, if_pos ((completedAbove_eq_nil_iff hash leaves).2 h),
    restPart_of_length_le h]

theorem treeOf_ne_nil (hd : 0 < d) (leaves : List Bytes) : treeOf hash d leaves ≠ [] := by
  rw [treeOf_eq_cons hash hd]
  exact List.cons_ne_nil _ _

theorem length_le_of_mem_treeOf (hd : 0 < d) (leaves : List Bytes) :
    ∀ hashes ∈ treeOf hash d leaves, hashes.length ≤ d := by
  induction hLen : leaves.length using Nat.strongRecOn generalizing leaves with
  | ind n ih =>
    intro hashes hMem
    rw [treeOf_eq_cons hash hd, List.mem_cons] at hMem
    rcases hMem with rfl | hAbove
    · exact length_restPart_le leaves
    · split at hAbove
      · cases hAbove
      · rename_i hNonempty
        exact ih _ (hLen ▸ length_completedAbove_lt hash hd hNonempty) _ rfl hashes hAbove

theorem resultsRepresented_treeOf (hd : 0 < d) (leaves : List Bytes) :
    resultsRepresented d (treeOf hash d leaves) = (d + 1) * leaves.length := by
  induction hLen : leaves.length using Nat.strongRecOn generalizing leaves with
  | ind n ih =>
    have hCount := length_completeChunks (d := d) leaves
    rw [treeOf_eq_cons hash hd, resultsRepresented, ← hLen, ← hCount]
    split
    · rename_i hNil
      rw [completedAbove, List.map_eq_nil_iff] at hNil
      simp [resultsRepresented, hNil]
    · rename_i hNonempty
      rw [ih _ (hLen ▸ length_completedAbove_lt hash hd hNonempty) _ rfl, completedAbove,
        List.length_map, Nat.add_comm (restPart d leaves).length]

end Levels

section Update

variable (hash : Bytes → Bytes) {d : ℕ}

theorem updateFrom_cons_of_lt (hashes : List Bytes) (above : List (List Bytes)) (h : Bytes)
    (hLt : hashes.length < d) :
    updateFrom (fun b => .ok (hash b)) d (hashes :: above) h = .ok ((hashes ++ [h]) :: above) := by
  rw [updateFrom, if_pos (by simp only [List.length_append, List.length_singleton]; omega)]

theorem updateFrom_cons_of_eq (hashes : List Bytes) (above : List (List Bytes)) (h : Bytes)
    (hEq : hashes.length = d) :
    updateFrom (fun b => .ok (hash b)) d (hashes :: above) h =
      (updateFrom (fun b => .ok (hash b)) d above (combine hash (hashes ++ [h]))).map ([] :: ·) := by
  rw [updateFrom, if_neg (by simp only [List.length_append, List.length_singleton]; omega),
    computeCombinedHash_ok, bind_ok]
  cases updateFrom (fun b => .ok (hash b)) d above (combine hash (hashes ++ [h])) <;> rfl

theorem updateFrom_treeOf (hd : 0 < d) (leaves : List Bytes) (h : Bytes) :
    updateFrom (fun b => .ok (hash b)) d (treeOf hash d leaves) h =
      .ok (treeOf hash d (leaves ++ [h])) := by
  induction hLen : leaves.length using Nat.strongRecOn generalizing leaves h with
  | ind n ih =>
    rw [treeOf_eq_cons hash hd leaves, treeOf_eq_cons hash hd (leaves ++ [h])]
    rcases Nat.lt_or_eq_of_le (length_restPart_le (d := d) leaves) with hRest | hRest
    · have hAbove : completedAbove hash d (leaves ++ [h]) = completedAbove hash d leaves := by
        rw [completedAbove, chunksOf_completePart_concat_of_lt hRest, completedAbove]
      rw [updateFrom_cons_of_lt hash _ _ _ hRest, (restPart_concat_of_lt hRest h).2, hAbove]
    · have hAbove : completedAbove hash d (leaves ++ [h]) =
          completedAbove hash d leaves ++ [combine hash (restPart d leaves ++ [h])] := by
        rw [completedAbove, chunksOf_completePart_concat_of_eq hRest, List.map_append,
          List.map_singleton, completedAbove]
      have hCarried : completedAbove hash d (leaves ++ [h]) ≠ [] := by
        rw [hAbove]
        exact List.append_ne_nil_of_right_ne_nil _ (List.cons_ne_nil _ _)
      rw [updateFrom_cons_of_eq hash _ _ _ hRest, (restPart_concat_of_eq hRest h).2,
        if_neg hCarried, hAbove]
      by_cases hNil : completedAbove hash d leaves = []
      · rw [if_pos hNil, hNil, List.nil_append,
          treeOf_of_length_le hash hd (by rw [List.length_singleton]; omega)]
        rfl
      · rw [if_neg hNil, ih _ (hLen ▸ length_completedAbove_lt hash hd hNil) _ _ rfl]
        rfl

end Update

section Done

variable (hash : Bytes → Bytes) {d : ℕ}

theorem doneFrom_cons_cons (carried hashes next : List Bytes) (above : List (List Bytes))
    (h : (hashes ++ carried).length ≤ d + 1) :
    doneFrom (fun b => .ok (hash b)) carried (hashes :: next :: above) =
      (doneFrom (fun b => .ok (hash b)) (nextLevel hash d (hashes ++ carried)) (next :: above)).map
        ([] :: ·) := by
  rw [doneFrom, nextLevel_of_length_le hash h]
  cases hLevel : hashes ++ carried with
  | nil =>
    rw [if_pos rfl]
    cases doneFrom (fun b => .ok (hash b)) [] (next :: above) <;> rfl
  | cons top rest =>
    rw [if_neg (List.cons_ne_nil _ _)]
    cases rest with
    | nil =>
      have hSingle : chunkHash hash [top] = top := rfl
      rw [hSingle]
      dsimp only
      cases doneFrom (fun b => .ok (hash b)) [top] (next :: above) <;> rfl
    | cons top' rest =>
      rw [chunkHash_of_two_le hash (by simp)]
      dsimp only
      rw [computeCombinedHash_ok, bind_ok]
      cases doneFrom (fun b => .ok (hash b)) [combine hash (top :: top' :: rest)] (next :: above) <;>
        rfl

theorem doneFrom_treeOf (hd : 0 < d) (F X : List Bytes) (hX : X.length ≤ 1) :
    ∃ top, doneFrom (fun b => .ok (hash b)) X (treeOf hash d F) =
        .ok (List.replicate ((treeOf hash d F).length - 1) [] ++ [top]) ∧
      top.length ≤ d + 1 ∧
      ∀ level, referenceSummary hash d level (F ++ X) =
        referenceSummary hash d (level + ((treeOf hash d F).length - 1)) top := by
  induction hLen : F.length using Nat.strongRecOn generalizing F X with
  | ind n ih =>
    have hRest := length_restPart_le (d := d) F
    by_cases hNil : completedAbove hash d F = []
    · have hShort := (completedAbove_eq_nil_iff hash F).1 hNil
      refine ⟨F ++ X, ?_, ?_, fun level => ?_⟩
      · rw [treeOf_of_length_le hash hd hShort]
        rfl
      · rw [List.length_append]
        omega
      · rw [treeOf_of_length_le hash hd hShort, List.length_singleton, Nat.sub_self, Nat.add_zero]
    · obtain ⟨top, hDone, hTop, hRef⟩ := ih _ (hLen ▸ length_completedAbove_lt hash hd hNil)
        (completedAbove hash d F) (nextLevel hash d (restPart d F ++ X))
        (length_nextLevel_le hash (by rw [List.length_append]; omega)) rfl
      have hAbove := treeOf_ne_nil hash hd (completedAbove hash d F)
      obtain ⟨next, above, hTree⟩ := List.exists_cons_of_ne_nil hAbove
      have hLong : d < F.length := by
        have := (completedAbove_eq_nil_iff hash F).not.1 hNil
        omega
      rw [treeOf_eq_cons hash hd F, if_neg hNil]
      refine ⟨top, ?_, hTop, fun level => ?_⟩
      · rw [hTree, @doneFrom_cons_cons hash d X (restPart d F) next above
          (by rw [List.length_append]; omega), ← hTree, hDone]
        have hPos : 0 < (treeOf hash d (completedAbove hash d F)).length :=
          List.length_pos_of_ne_nil hAbove
        rw [List.length_cons, Nat.add_sub_cancel]
        conv_rhs => rw [← Nat.sub_add_cancel hPos]
        rfl
      · have hPos : 0 < (treeOf hash d (completedAbove hash d F)).length :=
          List.length_pos_of_ne_nil hAbove
        rw [@referenceSummary_of_lt hash d hd level (F ++ X) (by rw [List.length_append]; omega),
          nextLevel_append hash hd, hRef, List.length_cons, Nat.add_sub_cancel]
        congr 1
        omega

end Done

section Helper

variable (hash : Bytes → Bytes) {d : ℕ} (hd : 2 ≤ d)

theorem done_treeOf (leaves : List Bytes) :
    ∃ mt, (⟨treeOf hash d leaves, d, hd⟩ : MerkleTree).done (fun b => .ok (hash b)) = .ok mt ∧
      mt.getSummery = referenceSummary hash d 1 leaves := by
  obtain ⟨top, hDone, hTop, hRef⟩ := doneFrom_treeOf hash (d := d) (by omega) leaves [] (by simp)
  rw [List.append_nil] at hRef
  have hPos := List.length_pos_of_ne_nil (treeOf_ne_nil hash (d := d) (by omega) leaves)
  have hLast : (List.replicate ((treeOf hash d leaves).length - 1) [] ++ [top]).getLastD [] = top := by
    simp
  by_cases hFull : d < top.length
  · have hTwo : 2 ≤ top.length := by omega
    refine ⟨⟨(List.replicate ((treeOf hash d leaves).length - 1) [] ++ [top]).dropLast ++
      [[], [combine hash top]], d, hd⟩, ?_, ?_⟩
    · simp only [MerkleTree.done, hDone, bind_ok, hLast, gt_iff_lt, if_pos hFull,
        computeCombinedHash_ok]
      rfl
    · rw [hRef 1, @referenceSummary_of_lt hash d (by omega) _ top hFull,
        nextLevel_of_length_le hash hTop, if_neg (List.ne_nil_of_length_pos (by omega)),
        chunkHash_of_two_le hash hTwo, referenceSummary_of_le hash (by simp; omega)]
      simp only [MerkleTree.getSummery, MerkleTree.getMaxLevel, MerkleTree.getMaxLevelHashes,
        List.dropLast_concat, List.length_append, List.length_replicate, List.length_cons,
        List.length_nil, QueryReadsMerkleSummary.mk.injEq, true_and]
      constructor
      · omega
      · simp
  · refine ⟨⟨List.replicate ((treeOf hash d leaves).length - 1) [] ++ [top], d, hd⟩, ?_, ?_⟩
    · simp only [MerkleTree.done, hDone, bind_ok, hLast, gt_iff_lt, if_neg hFull]
      rfl
    · rw [hRef 1, referenceSummary_of_le hash (by omega)]
      simp only [MerkleTree.getSummery, MerkleTree.getMaxLevel, MerkleTree.getMaxLevelHashes, hLast,
        List.length_append, List.length_replicate, List.length_singleton,
        QueryReadsMerkleSummary.mk.injEq, true_and, and_true]
      omega

variable (marshal : List KVRead → Bytes)

def helperOf (results : List KVRead) : RangeQueryResultsHelper :=
  ⟨restPart d results, some ⟨treeOf hash d (leavesOf hash d marshal results), d, hd⟩, d, true⟩

theorem newRangeQueryResultsHelper_eq_helperOf :
    RangeQueryResultsHelper.newRangeQueryResultsHelper true d = .ok (helperOf hash hd marshal []) := by
  have hEmpty : treeOf hash d (leavesOf hash d marshal []) = [[]] := by
    rw [leavesOf, completePart, List.take_nil, chunksOf_nil, List.map_nil,
      treeOf_of_length_le hash (by omega) (Nat.zero_le d)]
  rw [newRangeQueryResultsHelper_hashing d hd, helperOf, hEmpty, restPart, List.drop_nil]
  rfl

theorem addResult_helperOf (results : List KVRead) (kvRead : KVRead) :
    (helperOf hash hd marshal results).addResult (fun b => .ok (hash b))
        (fun kvReads => .ok (marshal kvReads)) kvRead =
      .ok (helperOf hash hd marshal (results ++ [kvRead])) := by
  rcases Nat.lt_or_eq_of_le (length_restPart_le (d := d) results) with hRest | hRest
  · have hLeaves : leavesOf hash d marshal (results ++ [kvRead]) = leavesOf hash d marshal results := by
      rw [leavesOf, chunksOf_completePart_concat_of_lt hRest, leavesOf]
    rw [RangeQueryResultsHelper.addResult_of_lt _ _ _ _ hRest]
    simp only [helperOf, (restPart_concat_of_lt hRest kvRead).2, hLeaves]
  · have hLeaves : leavesOf hash d marshal (results ++ [kvRead]) =
        leavesOf hash d marshal results ++ [hash (marshal (restPart d results ++ [kvRead]))] := by
      rw [leavesOf, chunksOf_completePart_concat_of_eq hRest, List.map_append, List.map_singleton,
        leavesOf]
    have hUpdate : (⟨treeOf hash d (leavesOf hash d marshal results), d, hd⟩ : MerkleTree).update
        (fun b => .ok (hash b)) (hash (marshal (restPart d results ++ [kvRead]))) =
        .ok ⟨treeOf hash d (leavesOf hash d marshal (results ++ [kvRead])), d, hd⟩ := by
      rw [MerkleTree.update, updateFrom_treeOf hash (d := d) (by omega), hLeaves]
      rfl
    rw [RangeQueryResultsHelper.addResult_of_eq (fun b => .ok (hash b))
      (fun kvReads => .ok (marshal kvReads)) (helperOf hash hd marshal results) kvRead _ _ _ _
      rfl hRest rfl rfl rfl hUpdate]
    simp only [helperOf, (restPart_concat_of_eq hRest kvRead).2]

theorem addResults_helperOf (results more : List KVRead) :
    (helperOf hash hd marshal results).addResults (fun b => .ok (hash b))
        (fun kvReads => .ok (marshal kvReads)) more =
      .ok (helperOf hash hd marshal (results ++ more)) := by
  induction more generalizing results with
  | nil => rw [List.append_nil]; rfl
  | cons kvRead more ih =>
    rw [RangeQueryResultsHelper.addResults, addResult_helperOf, bind_ok, ih, List.append_assoc,
      List.singleton_append]

theorem processPending_helperOf (results : List KVRead) :
    (if (helperOf hash hd marshal results).pendingResults.length ≠ 0 then
        RangeQueryResultsHelper.processPendingResults (fun b => .ok (hash b))
          (fun kvReads => .ok (marshal kvReads)) (helperOf hash hd marshal results)
      else pure (helperOf hash hd marshal results)) =
      .ok ⟨[], some ⟨treeOf hash d ((chunksOf d results).map fun chunk => hash (marshal chunk)),
        d, hd⟩, d, true⟩ := by
  rw [chunksOf_eq_completePart_append (d := d) results]
  by_cases hRest : restPart d results = []
  · rw [if_neg (by simp [helperOf, hRest]), hRest, chunksOf_nil, List.append_nil]
    simp only [helperOf, hRest, leavesOf]
    rfl
  · have hLen := length_restPart_le (d := d) results
    rw [if_pos (by simp [helperOf, hRest]), chunksOf_of_length_le hRest (by omega), List.map_append,
      List.map_singleton]
    simp only [RangeQueryResultsHelper.processPendingResults, helperOf, ofExcept_ok, bind_ok,
      RangeQueryResultsHelper.merkleTree, MerkleTree.update, updateFrom_treeOf hash (by omega : 0 < d)]
    rfl

theorem merkleTree_helperOf (results : List KVRead) :
    (helperOf hash hd marshal results).merkleTree =
      .ok ⟨treeOf hash d (leavesOf hash d marshal results), d, hd⟩ := rfl

theorem isEmpty_treeOf {leaves : List Bytes} (hLeaves : leaves ≠ []) :
    (⟨treeOf hash d leaves, d, hd⟩ : MerkleTree).isEmpty = false := by
  rw [MerkleTree.isEmpty, MerkleTree.getMaxLevel, MerkleTree.getMaxLevelHashes,
    treeOf_eq_cons hash (by omega)]
  split
  · rename_i hNil
    rw [restPart_of_length_le ((completedAbove_eq_nil_iff hash leaves).1 hNil)]
    simp [hLeaves]
  · have hAbove := List.length_pos_of_ne_nil (treeOf_ne_nil hash (d := d) (by omega)
      (completedAbove hash d leaves))
    simp only [List.length_cons, beq_iff_eq, Bool.and_eq_false_imp]
    omega

theorem done_helperOf (results : List KVRead) :
    (helperOf hash hd marshal results).done (fun b => .ok (hash b)) (fun kvReads => .ok (marshal kvReads)) =
      .ok (if results.length ≤ d then (results, none)
        else ([], some (referenceSummary hash d 1
          ((chunksOf d results).map fun chunk => hash (marshal chunk))))) := by
  by_cases hShort : results.length ≤ d
  · have hTree : treeOf hash d (leavesOf hash d marshal results) = [[]] := by
      rw [leavesOf, (completePart_eq_nil_iff results).2 hShort, chunksOf_nil, List.map_nil,
        @treeOf_of_length_le hash d (by omega) [] (Nat.zero_le d)]
    rw [if_pos hShort]
    simp only [RangeQueryResultsHelper.done, helperOf, hTree, restPart_of_length_le hShort,
      Bool.not_true, Bool.false_eq_true, if_false, RangeQueryResultsHelper.merkleTree, bind_ok]
    rfl
  · have hLeaves : leavesOf hash d marshal results ≠ [] := by
      rw [leavesOf, Ne, List.map_eq_nil_iff, chunksOf_eq_nil_iff, completePart_eq_nil_iff]
      exact hShort
    obtain ⟨mt, hDone, hSummary⟩ :=
      done_treeOf hash hd ((chunksOf d results).map fun chunk => hash (marshal chunk))
    have hProc := processPending_helperOf hash hd marshal results
    rw [if_neg hShort, RangeQueryResultsHelper.done, merkleTree_helperOf]
    simp only [show (helperOf hash hd marshal results).hashingEnabled = true from rfl,
      Bool.not_true, Bool.false_eq_true, if_false, bind_ok, isEmpty_treeOf hash hd hLeaves]
    split at hProc
    case isTrue hPending =>
      simp only [if_pos hPending, hProc, bind_ok, RangeQueryResultsHelper.merkleTree, hDone, hSummary]
      rfl
    case isFalse hPending =>
      simp only [if_neg hPending, hProc, bind_ok, RangeQueryResultsHelper.merkleTree, hDone, hSummary]
      rfl

end Helper

/-- Hashing range query results, from a new helper through `AddResult` over every result to
`Done`: `Done` returns the results themselves when they fit in one chunk, and otherwise no results
and the summary of the reference tree over the hashes of their chunks. After each `AddResult` every
level of the tree holds at most `maxDegree` hashes, and the results it represents, with the
pending ones, are all the results added so far. -/
theorem addResults_done_eq_referenceSummary (hash : Bytes → Bytes) (marshal : List KVRead → Bytes)
    (d : ℕ) (hd : 2 ≤ d) (results : List KVRead) :
    (do
      let helper ← RangeQueryResultsHelper.newRangeQueryResultsHelper true d
      let helper ← helper.addResults (fun b => .ok (hash b)) (fun kvReads => .ok (marshal kvReads))
        results
      helper.done (fun b => .ok (hash b)) (fun kvReads => .ok (marshal kvReads))) =
      .ok (if results.length ≤ d then (results, none)
        else ([], some (referenceSummary hash d 1
          ((chunksOf d results).map fun chunk => hash (marshal chunk))))) ∧
    ∀ k ≤ results.length, ∃ helper mt,
      (do
        let helper ← RangeQueryResultsHelper.newRangeQueryResultsHelper true d
        helper.addResults (fun b => .ok (hash b)) (fun kvReads => .ok (marshal kvReads))
          (results.take k)) = .ok helper ∧
      helper.mt = some mt ∧ (∀ hashes ∈ mt.tree, hashes.length ≤ d) ∧
      helper.pendingResults.length ≤ d ∧
      resultsRepresented d mt.tree + helper.pendingResults.length = k := by
  have hRun (R : List KVRead) :
      (do
        let helper ← RangeQueryResultsHelper.newRangeQueryResultsHelper true d
        helper.addResults (fun b => .ok (hash b)) (fun kvReads => .ok (marshal kvReads)) R) =
        .ok (helperOf hash hd marshal R) := by
    rw [newRangeQueryResultsHelper_eq_helperOf hash hd marshal, bind_ok, addResults_helperOf,
      List.nil_append]
  constructor
  · rw [← bind_assoc, hRun, bind_ok, done_helperOf]
  · intro k hk
    refine ⟨helperOf hash hd marshal (results.take k),
      ⟨treeOf hash d (leavesOf hash d marshal (results.take k)), d, hd⟩, hRun _, rfl,
      length_le_of_mem_treeOf hash (by omega) _, length_restPart_le _, ?_⟩
    have hChunks := length_completeChunks (d := d) (results.take k)
    have hTake : (results.take k).length = k := by
      rw [List.length_take, Nat.min_eq_left hk]
    show resultsRepresented d (treeOf hash d (leavesOf hash d marshal (results.take k))) +
      (restPart d (results.take k)).length = k
    rw [resultsRepresented_treeOf hash (by omega), leavesOf, List.length_map, hChunks, hTake]

theorem addResults_done_eq_referenceSummary_three :
    2 ≤ 2 ∧ (do
      let helper ← RangeQueryResultsHelper.newRangeQueryResultsHelper true 2
      let helper ← helper.addResults (fun b => .ok (id b)) (fun kvReads => .ok ((fun _ => []) kvReads))
        ([⟨"a", none⟩, ⟨"b", none⟩, ⟨"c", none⟩] : List KVRead)
      helper.done (fun b => .ok (id b)) (fun kvReads => .ok ((fun _ => []) kvReads))) =
      .ok ([], some (referenceSummary id 2 1
        ((chunksOf 2 ([⟨"a", none⟩, ⟨"b", none⟩, ⟨"c", none⟩] : List KVRead)).map
          fun chunk => id ((fun _ => []) chunk)))) :=
  ⟨by decide, by
    rw [(addResults_done_eq_referenceSummary id (fun _ => []) 2 (by decide) _).1]
    rfl⟩

end FabricPeer.Ledger
