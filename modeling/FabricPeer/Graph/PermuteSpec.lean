import FabricPeer.Graph.TreeSpec
import FabricPeer.Lib.ListOrder

/-! # What each permutation keeps

On a tree whose ids are unique (`TreeVertex.UniqueIds`), each tree `Permute` returns holds, at
every vertex, the ids of a choice of exactly `threshold` of the vertex's pruned descendants, in
their order, and none at a leaf (`permute_selects`).

The loop of `Permute` walks the pruned tree breadth first. A permutation holds the vertices below
the queue of the walk with all their descendants, and the vertices the walk has passed cut down
to a choice (`Cut`). Which vertices lie below the queue is read off the depth first order of the
queue's trees (`preorderAll`), which the walk visits in another order (`bfsFrom_perm`).
-/

namespace FabricPeer.Graph

open GoRun

set_option autoImplicit false

section Preorder

variable {α : Type}

mutual

def TreeVertex.preorder : TreeVertex α → List (TreeVertex α)
  | ⟨id, data, descendants, threshold⟩ =>
    ⟨id, data, descendants, threshold⟩ :: preorderAll descendants

def preorderAll : List (TreeVertex α) → List (TreeVertex α)
  | [] => []
  | u :: us => u.preorder ++ preorderAll us

end

theorem preorder_eq (t : TreeVertex α) : t.preorder = t :: preorderAll t.descendants := by
  obtain ⟨_, _, _, _⟩ := t
  rfl

@[simp] theorem preorderAll_nil : preorderAll ([] : List (TreeVertex α)) = [] := rfl

@[simp] theorem preorderAll_cons (u : TreeVertex α) (us : List (TreeVertex α)) :
    preorderAll (u :: us) = u.preorder ++ preorderAll us := rfl

theorem preorderAll_eq_flatMap (us : List (TreeVertex α)) :
    preorderAll us = us.flatMap (·.preorder) := by
  induction us with
  | nil => rfl
  | cons u us ih => simp [ih]

theorem preorderAll_append (us vs : List (TreeVertex α)) :
    preorderAll (us ++ vs) = preorderAll us ++ preorderAll vs := by
  simp [preorderAll_eq_flatMap]

theorem bfsFrom_perm (queue : List (TreeVertex α)) :
    (bfsFrom queue).Perm (preorderAll queue) := by
  induction queue using bfsFrom.induct with
  | case1 => simp [bfsFrom]
  | case2 v queue ih =>
    rw [bfsFrom, preorderAll_cons, preorder_eq, List.cons_append]
    refine (ih.trans ?_).cons v
    rw [preorderAll_append]
    exact List.perm_append_comm

theorem bfs_perm (t : TreeVertex α) : t.bfs.Perm t.preorder := by
  simpa [TreeVertex.bfs] using bfsFrom_perm [t]

theorem mem_preorderAll {x : TreeVertex α} {us : List (TreeVertex α)} :
    x ∈ preorderAll us ↔ ∃ u ∈ us, u.Reaches x := by
  rw [← (bfsFrom_perm us).mem_iff, mem_bfsFrom]

theorem mem_preorder {x t : TreeVertex α} : x ∈ t.preorder ↔ t.Reaches x := by
  simpa using (mem_preorderAll : x ∈ preorderAll [t] ↔ _)

theorem size_le_sizeAll {y : TreeVertex α} :
    ∀ {us : List (TreeVertex α)}, y ∈ us → y.size ≤ sizeAll us
  | u :: us, h => by
    rcases List.mem_cons.1 h with rfl | h
    · simp only [sizeAll]
      omega
    · have := size_le_sizeAll h
      simp only [sizeAll]
      omega

theorem size_lt_of_mem {x y : TreeVertex α} (h : y ∈ x.descendants) : y.size < x.size := by
  have := size_le_sizeAll h
  rw [size_eq x]
  omega

def TreeVertex.UniqueIds (t : TreeVertex α) : Prop := (t.preorder.map (·.id)).Nodup

theorem TreeVertex.UniqueIds.eq_of_id_eq {t x y : TreeVertex α} (h : t.UniqueIds)
    (hx : x ∈ t.preorder) (hy : y ∈ t.preorder) (hId : x.id = y.id) : x = y :=
  List.inj_on_of_nodup_map h hx hy hId

mutual

theorem find_isSome_of_mem : ∀ (t : TreeVertex α) {x : TreeVertex α} (id : String),
    x ∈ t.preorder → x.id = id → (t.find id).isSome
  | ⟨vid, data, descendants, threshold⟩, x, id, hx, hId => by
    by_cases hv : vid = id
    · simp [TreeVertex.find, hv]
    rw [preorder_eq] at hx
    rcases List.mem_cons.1 hx with rfl | hx
    · exact absurd hId hv
    simpa [TreeVertex.find, hv] using findIn_isSome_of_mem descendants id hx hId

theorem findIn_isSome_of_mem : ∀ (us : List (TreeVertex α)) {x : TreeVertex α} (id : String),
    x ∈ preorderAll us → x.id = id → (findIn us id).isSome
  | [], _, _, hx, _ => nomatch hx
  | u :: us, x, id, hx, hId => by
    unfold findIn
    cases hFind : u.find id with
    | some r => rfl
    | none =>
      rcases List.mem_append.1 hx with hx | hx
      · simpa [hFind] using find_isSome_of_mem u id hx hId
      · exact findIn_isSome_of_mem us id hx hId

end

theorem id_ne_of_exists_eq_false {t x : TreeVertex α} {id : String} (h : t.exists id = false)
    (hx : t.Reaches x) : x.id ≠ id := fun hId => by
  have hSome := find_isSome_of_mem t id (mem_preorder.2 hx) hId
  simp [TreeVertex.exists, hSome] at h

theorem preorderAll_sublist {us vs : List (TreeVertex α)} (h : us.Sublist vs) :
    (preorderAll us).Sublist (preorderAll vs) := by
  rw [preorderAll_eq_flatMap, preorderAll_eq_flatMap]
  exact h.flatMap _

section Prune

variable (intn : String → Nat → Nat) (combinationUpperBound : Int)

mutual

theorem preorder_prune_ids_sublist : ∀ t : TreeVertex α,
    ((t.prune intn combinationUpperBound).preorder.map (·.id)).Sublist (t.preorder.map (·.id))
  | ⟨id, data, descendants, threshold⟩ => by
    rw [prune_eq, preorder_eq, preorder_eq, List.map_cons, List.map_cons]
    refine List.Sublist.cons_cons _ ?_
    exact ((preorderAll_sublist (dropVictims_sublist intn combinationUpperBound _ _ _)).map _).trans
      (preorderAll_pruneAll_ids_sublist descendants)

theorem preorderAll_pruneAll_ids_sublist : ∀ us : List (TreeVertex α),
    ((preorderAll (pruneAll intn combinationUpperBound us)).map (·.id)).Sublist
      ((preorderAll us).map (·.id))
  | [] => by simp [pruneAll]
  | u :: us => by
    simp only [pruneAll, preorderAll_cons, List.map_append]
    exact (preorder_prune_ids_sublist u).append (preorderAll_pruneAll_ids_sublist us)

end

theorem TreeVertex.UniqueIds.prune {t : TreeVertex α} (h : t.UniqueIds) :
    (t.prune intn combinationUpperBound).UniqueIds :=
  (preorder_prune_ids_sublist intn combinationUpperBound t).nodup h

end Prune

end Preorder

section Walk

variable {α : Type} (R : TreeVertex α) (M : GoMap String (List (List (TreeVertex α))))

def pendingIds (queue : List (TreeVertex α)) : List String := (preorderAll queue).map (·.id)

theorem pendingIds_cons (v : TreeVertex α) (queue : List (TreeVertex α)) :
    pendingIds (v :: queue) = v.id :: (pendingIds v.descendants ++ pendingIds queue) := by
  simp [pendingIds, preorder_eq]

def Settled (u : TreeVertex α) (ids : List String) : Prop :=
  (u.descendants = [] ∧ ids = []) ∨
    ∃ permutation ∈ (M.get? u.id).getD [], ids = permutation.map (·.id)

def Holds (queue : List (TreeVertex α)) (u : TreeVertex α) (ids : List String) : Prop :=
  (u.id ∈ pendingIds queue → ids = u.descendants.map (·.id)) ∧
    (u.id ∉ pendingIds queue → Settled M u ids)

def Cut (queue : List (TreeVertex α)) (t : TreeVertex α) : Prop :=
  t.id = R.id ∧ ∀ x, t.Reaches x → ∃ u ∈ R.preorder, u.id = x.id ∧ u.data = x.data ∧
    Holds M queue u (x.descendants.map (·.id))

def WalkQueue (queue : List (TreeVertex α)) : Prop :=
  (∀ q ∈ queue, q ∈ R.preorder) ∧ (pendingIds queue).Nodup

variable {R M}

theorem WalkQueue.step {v : TreeVertex α} {queue : List (TreeVertex α)}
    (h : WalkQueue R (v :: queue)) : WalkQueue R (queue ++ v.descendants) := by
  obtain ⟨hMem, hNodup⟩ := h
  rw [pendingIds_cons, List.nodup_cons] at hNodup
  have hv : R.Reaches v := mem_preorder.1 (hMem v List.mem_cons_self)
  refine ⟨fun q hq => ?_, ?_⟩
  · rcases List.mem_append.1 hq with hq | hq
    · exact hMem q (List.mem_cons_of_mem _ hq)
    · exact mem_preorder.2 (hv.tail hq)
  · rw [pendingIds, preorderAll_append, List.map_append]
    exact List.perm_append_comm.nodup_iff.1 hNodup.2

theorem WalkQueue.mem_pendingIds_step {v : TreeVertex α} {queue : List (TreeVertex α)}
    (h : WalkQueue R (v :: queue)) (k : String) :
    k ∈ pendingIds (queue ++ v.descendants) ↔ k ∈ pendingIds (v :: queue) ∧ k ≠ v.id := by
  have hNodup := h.2
  rw [pendingIds_cons, List.nodup_cons] at hNodup
  have hSame : k ∈ pendingIds (queue ++ v.descendants) ↔
      k ∈ pendingIds v.descendants ++ pendingIds queue := by
    rw [pendingIds, preorderAll_append, List.map_append]
    exact List.perm_append_comm.mem_iff
  rw [hSame, pendingIds_cons, List.mem_cons]
  constructor
  · intro hk
    exact ⟨Or.inr hk, fun hkv => hNodup.1 (hkv ▸ hk)⟩
  · rintro ⟨hk | hk, hkv⟩
    · exact absurd hk hkv
    · exact hk

theorem Holds.step_of_ne {v u : TreeVertex α} {queue : List (TreeVertex α)} {ids : List String}
    (hq : WalkQueue R (v :: queue)) (huv : u.id ≠ v.id) (h : Holds M (v :: queue) u ids) :
    Holds M (queue ++ v.descendants) u ids := by
  have hIff := hq.mem_pendingIds_step u.id
  exact ⟨fun hu => h.1 (hIff.1 hu).1, fun hu => h.2 fun hu' => hu (hIff.2 ⟨hu', huv⟩)⟩

theorem holds_of_settled {v : TreeVertex α} {queue : List (TreeVertex α)} {ids : List String}
    (hq : WalkQueue R (v :: queue)) (h : Settled M v ids) :
    Holds M (queue ++ v.descendants) v ids :=
  ⟨fun hv => absurd rfl ((hq.mem_pendingIds_step v.id).1 hv).2, fun _ => h⟩

theorem holds_of_mem_preorderAll {v u : TreeVertex α} {queue : List (TreeVertex α)}
    (hu : u ∈ preorderAll v.descendants) :
    Holds M (queue ++ v.descendants) u (u.descendants.map (·.id)) := by
  have hPending : u.id ∈ pendingIds (queue ++ v.descendants) := by
    rw [pendingIds, preorderAll_append, List.map_append]
    exact List.mem_append_right _ (List.mem_map_of_mem hu)
  exact ⟨fun _ => rfl, fun hNot => absurd hPending hNot⟩

section Step

variable {v t : TreeVertex α} {queue : List (TreeVertex α)} (hq : WalkQueue R (v :: queue))

include hq

theorem Cut.step_leaf (hUnique : R.UniqueIds) (hLeaf : v.descendants = [])
    (ht : Cut R M (v :: queue) t) :
    Cut R M (queue ++ v.descendants) t := by
  refine ⟨ht.1, fun x hx => ?_⟩
  obtain ⟨u, hu, hId, hData, hHolds⟩ := ht.2 x hx
  refine ⟨u, hu, hId, hData, ?_⟩
  by_cases huv : u.id = v.id
  · obtain rfl := hUnique.eq_of_id_eq hu (hq.1 v List.mem_cons_self) huv
    have hIds := hHolds.1 (by simp [pendingIds_cons])
    exact holds_of_settled hq (Or.inl ⟨hLeaf, by simp [hIds, hLeaf]⟩)
  · exact hHolds.step_of_ne hq huv

theorem Cut.step_absent (hAbsent : t.exists v.id = false) (ht : Cut R M (v :: queue) t) :
    Cut R M (queue ++ v.descendants) t := by
  refine ⟨ht.1, fun x hx => ?_⟩
  obtain ⟨u, hu, hId, hData, hHolds⟩ := ht.2 x hx
  exact ⟨u, hu, hId, hData,
    hHolds.step_of_ne hq (hId ▸ id_ne_of_exists_eq_false hAbsent hx)⟩

theorem Cut.step_replace (hUnique : R.UniqueIds)
    (hChoices : ∀ permutation ∈ (M.get? v.id).getD [], permutation.Sublist v.descendants)
    {permutation : List (TreeVertex α)} (hPermutation : permutation ∈ (M.get? v.id).getD [])
    (ht : Cut R M (v :: queue) t) :
    Cut R M (queue ++ v.descendants) (t.clone.replace v.id ⟨v.id, v.data, permutation, 0⟩) := by
  refine ⟨by simpa using ht.1, fun y hy => ?_⟩
  rcases exists_reaches_of_reaches_replace hy with ⟨y', hy', rfl⟩ | ⟨c, hc, hcy⟩
  · obtain ⟨z, hz, rfl⟩ := exists_reaches_of_reaches_clone hy'
    obtain ⟨u, hu, hId, hData, hHolds⟩ := ht.2 z hz
    refine ⟨u, hu, by simpa using hId, by simpa using hData, ?_⟩
    by_cases hzv : z.id = v.id
    · obtain rfl := hUnique.eq_of_id_eq hu (hq.1 _ List.mem_cons_self) (hId.trans hzv)
      have hDescendants : (z.clone.replace u.id ⟨u.id, u.data, permutation, 0⟩).descendants =
          permutation := by
        rw [replace_eq]
        simp [hzv]
      rw [hDescendants]
      exact holds_of_settled hq (Or.inr ⟨permutation, hPermutation, rfl⟩)
    · have hDescendants :
          (z.clone.replace v.id ⟨v.id, v.data, permutation, 0⟩).descendants.map (·.id) =
            z.descendants.map (·.id) := by
        have hClone : z.clone.descendants = z.descendants.map (·.clone) := by
          rw [clone_eq, cloneAll_eq_map]
        rw [replace_eq]
        simp [hzv, hClone, replaceAll_eq_map]
      rw [hDescendants]
      exact hHolds.step_of_ne hq (hId ▸ hzv)
  · have hcv : c ∈ v.descendants := (hChoices permutation hPermutation).subset hc
    have hv : R.Reaches v := mem_preorder.1 (hq.1 v List.mem_cons_self)
    exact ⟨y, mem_preorder.2 (hv.trans (Relation.ReflTransGen.head hcv hcy)), rfl, rfl,
      holds_of_mem_preorderAll (mem_preorderAll.2 ⟨c, hcv, hcy⟩)⟩

end Step

theorem cut_permuteLoop (hUnique : R.UniqueIds)
    (hChoices : ∀ u ∈ R.preorder, ∀ permutation ∈ (M.get? u.id).getD [],
      permutation.Sublist u.descendants) :
    ∀ (queue : List (TreeVertex α)), WalkQueue R queue →
      ∀ (permutations : List (TreeVertex α)), (∀ t ∈ permutations, Cut R M queue t) →
        ∀ t ∈ permuteLoop M (bfsFrom queue) permutations, Cut R M [] t := by
  intro queue
  induction queue using bfsFrom.induct with
  | case1 =>
    rw [bfsFrom]
    exact fun _ _ hAll => hAll
  | case2 v queue ih =>
    intro hq permutations hAll
    have hStep := ih hq.step
    rw [bfsFrom]
    simp only [permuteLoop]
    split_ifs with hLeaf
    · exact hStep permutations fun t ht =>
        (hAll t ht).step_leaf hq hUnique (List.length_eq_zero_iff.1 hLeaf)
    refine hStep _ fun t ht => ?_
    rcases List.mem_append.1 ht with ht | ht
    · obtain ⟨ht, hAbsent⟩ := List.mem_filter.1 ht
      exact (hAll t ht).step_absent hq (by simpa using hAbsent)
    · obtain ⟨perm, hPerm, ht⟩ := List.mem_flatMap.1 ht
      obtain ⟨permutation, hPermutation, rfl⟩ := List.mem_map.1 ht
      exact (hAll perm (List.mem_filter.1 hPerm).1).step_replace hq hUnique
        (hChoices v (hq.1 v List.mem_cons_self)) hPermutation

end Walk

section Permute

variable {α : Type} (intn : String → Nat → Nat) (combinationUpperBound : Int)

theorem selectDescendants_sublist {descendants : List (TreeVertex α)} {indices : List Int}
    (hSorted : indices.Pairwise (· < ·))
    (hRange : ∀ i ∈ indices, 0 ≤ i ∧ i < descendants.length) :
    (selectDescendants descendants indices).Sublist descendants ∧
      (selectDescendants descendants indices).length = indices.length := by
  have hEq : selectDescendants descendants indices =
      (indices.map Int.toNat).filterMap (descendants[·]?) := by
    simp [selectDescendants, List.filterMap_map]
  obtain ⟨hSub, hLength⟩ := ListOrder.filterMap_getElem?_sublist descendants
    (indices.map Int.toNat)
    (List.pairwise_map.2 (hSorted.imp_of_mem fun hi hj hij => by
      have := hRange _ hi
      have := hRange _ hj
      omega))
    (fun j hj => by
      obtain ⟨i, hi, rfl⟩ := List.mem_map.1 hj
      have := hRange i hi
      omega)
  rw [hEq]
  exact ⟨hSub, by simpa using hLength⟩

theorem sublist_of_computeDescendantPermutations {root : TreeVertex α}
    {descendantPermutations : GoMap String (List (List (TreeVertex α)))}
    (h : computeDescendantPermutations intn combinationUpperBound root =
      some descendantPermutations) :
    ∀ id permutations, descendantPermutations.get? id = some permutations →
      ∀ permutation ∈ permutations, ∃ v, root.Reaches v ∧ v.id = id ∧
        permutation.Sublist (v.prune intn combinationUpperBound).descendants ∧
        (permutation.length : Int) = v.threshold := by
  refine foldlM_invariant _ (fun m : GoMap String (List (List (TreeVertex α))) =>
    ∀ id permutations, m.get? id = some permutations →
      ∀ permutation ∈ permutations, ∃ v, root.Reaches v ∧ v.id = id ∧
        permutation.Sublist (v.prune intn combinationUpperBound).descendants ∧
        (permutation.length : Int) = v.threshold) root.bfs ?_ _ _ (by simp) h
  intro m v m' hv hm hStep
  split_ifs at hStep with hLeaf
  · cases hStep
    exact hm
  rw [Option.bind_eq_bind, Option.bind_eq_some_iff] at hStep
  obtain ⟨indiceSets, hChoose, hm'⟩ := hStep
  cases hm'
  intro id permutations hGet permutation hPermutation
  rw [GoMap.get?_insert] at hGet
  split_ifs at hGet with hId
  · cases hGet
    obtain ⟨indices, hIndices, rfl⟩ := List.mem_map.1 hPermutation
    obtain ⟨hLength, hSorted, hRange⟩ :=
      mem_of_chooseKoutOfN_eq_some (Int.natCast_nonneg _) hChoose hIndices
    obtain ⟨hSub, hSelected⟩ := selectDescendants_sublist hSorted hRange
    exact ⟨v, (mem_bfs root v).1 hv, hId.symm, hSub, by rw [hSelected, hLength]⟩
  · exact hm id permutations hGet permutation hPermutation

theorem selection_of_mem_preorder {root : TreeVertex α} (hUnique : root.UniqueIds)
    {descendantPermutations : GoMap String (List (List (TreeVertex α)))}
    (h : computeDescendantPermutations intn combinationUpperBound root =
      some descendantPermutations)
    {u : TreeVertex α} (hu : u ∈ (root.prune intn combinationUpperBound).preorder)
    {permutation : List (TreeVertex α)}
    (hPermutation : permutation ∈ (descendantPermutations.get? u.id).getD []) :
    permutation.Sublist u.descendants ∧ (permutation.length : Int) = u.threshold := by
  cases hGet : descendantPermutations.get? u.id with
  | none => simp [hGet] at hPermutation
  | some permutations =>
    rw [hGet, Option.getD_some] at hPermutation
    obtain ⟨v, hv, hvId, hSub, hLength⟩ := sublist_of_computeDescendantPermutations intn
      combinationUpperBound h u.id permutations hGet permutation hPermutation
    obtain ⟨w, hw, rfl⟩ := exists_reaches_of_reaches_prune intn combinationUpperBound
      (mem_preorder.1 hu)
    obtain rfl := hUnique.eq_of_id_eq (mem_preorder.2 hv) (mem_preorder.2 hw) (by simpa using hvId)
    exact ⟨hSub, by simpa using hLength⟩

theorem permute_selects {root : TreeVertex α} (hUnique : root.UniqueIds)
    {permutations : List (TreeVertex α)}
    (h : root.permute intn combinationUpperBound = some permutations) :
    ∀ t ∈ permutations, t.id = root.id ∧ ∀ x, t.Reaches x →
      ∃ u, (root.prune intn combinationUpperBound).Reaches u ∧ u.id = x.id ∧ u.data = x.data ∧
        ∃ permutation : List (TreeVertex α), permutation.Sublist u.descendants ∧
          (u.descendants ≠ [] → (permutation.length : Int) = u.threshold) ∧
          x.descendants.map (·.id) = permutation.map (·.id) := by
  unfold TreeVertex.permute at h
  rw [Option.bind_eq_bind, Option.bind_eq_some_iff] at h
  obtain ⟨descendantPermutations, hCompute, hLoop⟩ := h
  cases hLoop
  have hUniqueR := hUnique.prune intn combinationUpperBound
  have hRoot : root.prune intn combinationUpperBound ∈
      (root.prune intn combinationUpperBound).preorder := by
    rw [preorder_eq]
    exact List.mem_cons_self
  have hStart : Cut (root.prune intn combinationUpperBound) descendantPermutations
      [root.prune intn combinationUpperBound] (root.prune intn combinationUpperBound) := by
    refine ⟨rfl, fun x hx => ⟨x, mem_preorder.2 hx, rfl, rfl, fun _ => rfl, fun hNot => ?_⟩⟩
    exact absurd (List.mem_map_of_mem (by simpa using mem_preorder.2 hx)) hNot
  intro t ht
  obtain ⟨hId, hCut⟩ := cut_permuteLoop hUniqueR
    (fun u hu permutation hPermutation =>
      (selection_of_mem_preorder intn combinationUpperBound hUnique hCompute hu hPermutation).1)
    [_] ⟨by simpa using hRoot, by simpa [pendingIds, TreeVertex.UniqueIds] using hUniqueR⟩ _
    (by simpa using hStart) t ht
  refine ⟨by simpa using hId, fun x hx => ?_⟩
  obtain ⟨u, hu, huId, huData, -, hSettled⟩ := hCut x hx
  refine ⟨u, mem_preorder.1 hu, huId, huData, ?_⟩
  rcases hSettled (by simp [pendingIds]) with ⟨hLeaf, hIds⟩ | ⟨permutation, hPermutation, hIds⟩
  · exact ⟨[], by simp [hLeaf], fun hNe => absurd hLeaf hNe, by simp [hIds]⟩
  · obtain ⟨hSub, hLength⟩ :=
      selection_of_mem_preorder intn combinationUpperBound hUnique hCompute hu hPermutation
    exact ⟨permutation, hSub, fun _ => hLength, hIds⟩

end Permute

end FabricPeer.Graph
