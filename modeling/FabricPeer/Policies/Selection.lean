import Mathlib
import FabricPeer.Graph.PermuteSpec
import FabricPeer.Policies.SatisfiedBySpec

/-! # The principal sets of `SatisfiedBy` are selections of the policy

A selection of a policy picks, at every `NOutOf` it reaches, exactly `N` of its rules, and
collects the indices of the `SignedBy` rules it reaches (`Selection`). Every principal set
`SatisfiedBy` returns is, up to order, the identities at the indices of a selection of the
policy (`satisfiedBy_selections`).

The ids `computePolicyTree` gives are unique: a rule's id is its parent's followed by a dot and
the rule's index, and no index holds a dot (`uniqueIds_computePolicyTree`). So `Permute` cuts each
vertex of a permutation down to a choice of its rules (`permute_selects`), and the leaves of a
permutation, read depth first, are the indices of a selection (`selection_of_selects`). The
principals are read breadth first, which visits the same leaves in another order.
-/

namespace FabricPeer.Policies

open FabricPeer.Graph GoRun

set_option autoImplicit false

/-- `Selection p indices`: `indices` are the `SignedBy` indices reached by a choice, at every
`NOutOf` of `p` it reaches, of exactly `N` of its rules, in the order of the rules. -/
inductive Selection : SignaturePolicy → List Int → Prop
  | signedBy (signedBy : Int) : Selection (.signedBy signedBy) [signedBy]
  | nOutOf {n : Int} {rules chosen : List SignaturePolicy} {parts : List (List Int)}
      (sublist : chosen.Sublist rules) (length : (chosen.length : Int) = n)
      (selections : List.Forall₂ Selection chosen parts) :
      Selection (.nOutOf n rules) parts.flatten

section Ids

def IdBelow (c k : String) : Prop :=
  ∃ s, k.toList = c.toList ++ s ∧ (s = [] ∨ ∃ s', s = '.' :: s')

theorem idBelow_self (c : String) : IdBelow c c := ⟨[], by simp, Or.inl rfl⟩

theorem toList_child (c : String) (j : Nat) :
    (c ++ "." ++ toString j).toList = c.toList ++ '.' :: Nat.toDigits 10 j := by
  simp [Nat.repr]

theorem IdBelow.of_child {c k : String} {j : Nat} (h : IdBelow (c ++ "." ++ toString j) k) :
    IdBelow c k := by
  obtain ⟨s, hs, -⟩ := h
  exact ⟨'.' :: (Nat.toDigits 10 j ++ s), by rw [hs, toList_child]; simp, Or.inr ⟨_, rfl⟩⟩

theorem IdBelow.ne_parent {c k : String} {j : Nat} (h : IdBelow (c ++ "." ++ toString j) k) :
    k ≠ c := by
  rintro rfl
  obtain ⟨s, hs, -⟩ := h
  have hLength := congrArg List.length hs
  simp at hLength

theorem IdBelow.child_inj {c k : String} {j j' : Nat} (h : IdBelow (c ++ "." ++ toString j) k)
    (h' : IdBelow (c ++ "." ++ toString j') k) : j = j' := by
  obtain ⟨s, hs, hRest⟩ := h
  obtain ⟨s', hs', hRest'⟩ := h'
  rw [toList_child] at hs hs'
  have hEq : Nat.toDigits 10 j ++ s = Nat.toDigits 10 j' ++ s' := by
    simpa using hs.symm.trans hs'
  have hDigits : ∀ (i : Nat) (r : List Char), (r = [] ∨ ∃ r', r = '.' :: r') →
      (Nat.toDigits 10 i ++ r).takeWhile (· != '.') = Nat.toDigits 10 i := by
    intro i r hr
    rw [List.takeWhile_append_of_pos fun a ha => ?_]
    · rcases hr with rfl | ⟨r', rfl⟩ <;> simp
    · have hDigit := Nat.isDigit_of_mem_toDigits (by decide) (by decide) ha
      simp only [bne_iff_ne, ne_eq]
      rintro rfl
      simp at hDigit
  have hReprs : Nat.repr j = Nat.repr j' := by
    apply String.ext
    simpa [Nat.repr, hDigits j s hRest, hDigits j' s' hRest'] using
      congrArg (List.takeWhile (· != '.')) hEq
  exact Nat.repr_inj.1 hReprs

mutual

theorem computePolicyTree_ids : ∀ (c : String) (p : SignaturePolicy),
    ((computePolicyTree c p).preorder.map (·.id)).Nodup ∧
      ∀ x ∈ (computePolicyTree c p).preorder, IdBelow c x.id
  | c, .signedBy _ => by simp [computePolicyTree, newTreeVertex, preorder_eq, idBelow_self]
  | c, .nOutOf n rules => by
    obtain ⟨hNodup, hBelow⟩ := computeRuleTrees_ids c 0 rules
    rw [computePolicyTree_nOutOf, preorder_eq]
    refine ⟨List.nodup_cons.2 ⟨fun hMem => ?_, hNodup⟩, fun x hx => ?_⟩
    · obtain ⟨x, hx, hxId⟩ := List.mem_map.1 hMem
      obtain ⟨j, -, hj⟩ := hBelow x hx
      exact hj.ne_parent hxId
    · rcases List.mem_cons.1 hx with rfl | hx
      · exact idBelow_self c
      · obtain ⟨j, -, hj⟩ := hBelow x hx
        exact hj.of_child

theorem computeRuleTrees_ids : ∀ (c : String) (i : Nat) (rules : List SignaturePolicy),
    ((preorderAll (computeRuleTrees c i rules)).map (·.id)).Nodup ∧
      ∀ x ∈ preorderAll (computeRuleTrees c i rules),
        ∃ j, i ≤ j ∧ IdBelow (c ++ "." ++ toString j) x.id
  | c, i, [] => by simp [computeRuleTrees]
  | c, i, rule :: rules => by
    obtain ⟨hHead, hHeadBelow⟩ := computePolicyTree_ids (c ++ "." ++ toString i) rule
    obtain ⟨hTail, hTailBelow⟩ := computeRuleTrees_ids c (i + 1) rules
    simp only [computeRuleTrees, preorderAll_cons, List.map_append]
    refine ⟨List.nodup_append.2 ⟨hHead, hTail, ?_⟩, fun x hx => ?_⟩
    · rintro a ha b hb rfl
      obtain ⟨x, hx, rfl⟩ := List.mem_map.1 ha
      obtain ⟨y, hy, hyx⟩ := List.mem_map.1 hb
      obtain ⟨j, hj, hjy⟩ := hTailBelow y hy
      have hij := (hHeadBelow x hx).child_inj (hyx ▸ hjy)
      omega
    · rcases List.mem_append.1 hx with hx | hx
      · exact ⟨i, Nat.le_refl i, hHeadBelow x hx⟩
      · obtain ⟨j, hj, hjx⟩ := hTailBelow x hx
        exact ⟨j, by omega, hjx⟩

end

theorem uniqueIds_computePolicyTree (c : String) (p : SignaturePolicy) :
    (computePolicyTree c p).UniqueIds :=
  (computePolicyTree_ids c p).1

end Ids

section PrunedTree

variable (intn : String → Nat → Nat) (combinationUpperBound : Int)

theorem computeRuleTrees_map_data (c : String) :
    ∀ (i : Nat) (rules : List SignaturePolicy), (computeRuleTrees c i rules).map (·.data) = rules
  | _, [] => rfl
  | i, rule :: rules => by simp [computeRuleTrees, computeRuleTrees_map_data c (i + 1) rules]

theorem pruneAll_map_data :
    ∀ us : List (TreeVertex SignaturePolicy),
      (pruneAll intn combinationUpperBound us).map (·.data) = us.map (·.data)
  | [] => rfl
  | u :: us => by simp [pruneAll, pruneAll_map_data us]

theorem prune_computePolicyTree_signedBy (c : String) (signedBy : Int) :
    ((computePolicyTree c (.signedBy signedBy)).prune intn combinationUpperBound).descendants =
      [] := by
  rw [prune_eq]
  exact List.sublist_nil.1 (dropVictims_sublist intn combinationUpperBound _ _ _)

theorem prune_computePolicyTree_nOutOf (c : String) (n : Int) (rules : List SignaturePolicy) :
    ((computePolicyTree c (.nOutOf n rules)).prune intn combinationUpperBound).threshold = n ∧
      (((computePolicyTree c (.nOutOf n rules)).prune intn combinationUpperBound).descendants.map
        (·.data)).Sublist rules := by
  rw [prune_eq, computePolicyTree_nOutOf]
  refine ⟨rfl, ?_⟩
  have hSub := (dropVictims_sublist intn combinationUpperBound ⟨c, .nOutOf n rules,
    computeRuleTrees c 0 rules, n⟩ (computeRuleTrees c 0 rules).length
    (pruneAll intn combinationUpperBound (computeRuleTrees c 0 rules))).map (·.data)
  rwa [pruneAll_map_data, computeRuleTrees_map_data] at hSub

end PrunedTree

section Leaves

def signedByIndex : SignaturePolicy → Option Int
  | .signedBy signedBy => some signedBy
  | .nOutOf _ _ => none

def leafIndices (x : TreeVertex SignaturePolicy) : List Int :=
  (x.preorder.filter (·.isLeaf)).filterMap (signedByIndex ·.data)

theorem isLeaf_iff (x : TreeVertex SignaturePolicy) : x.isLeaf = true ↔ x.descendants = [] := by
  simp [TreeVertex.isLeaf]

theorem leafIndices_of_leaf {x : TreeVertex SignaturePolicy} (h : x.descendants = []) :
    leafIndices x = (signedByIndex x.data).toList := by
  have hLeaf : x.isLeaf = true := (isLeaf_iff x).2 h
  rw [leafIndices, preorder_eq, h]
  cases hIndex : signedByIndex x.data <;> simp [hLeaf, hIndex]

theorem leafIndices_of_ne_nil {x : TreeVertex SignaturePolicy} (h : x.descendants ≠ []) :
    leafIndices x = (x.descendants.map leafIndices).flatten := by
  have hLeaf : x.isLeaf = false := Bool.eq_false_iff.2 fun hTrue => h ((isLeaf_iff x).1 hTrue)
  rw [leafIndices, preorder_eq, List.filter_cons_of_neg (by simp [hLeaf]), preorderAll_eq_flatMap,
    List.filter_flatMap, List.filterMap_flatMap, List.flatMap_def]
  rfl

end Leaves

section Soundness

variable {intn : String → Nat → Nat} {combinationUpperBound : Int} {c : String}
  {rule : SignaturePolicy} {t : TreeVertex SignaturePolicy}

theorem selection_of_selects
    (hSelects : ∀ x, t.Reaches x →
      ∃ u, ((computePolicyTree c rule).prune intn combinationUpperBound).Reaches u ∧
        u.id = x.id ∧ u.data = x.data ∧
        ∃ permutation : List (TreeVertex SignaturePolicy), permutation.Sublist u.descendants ∧
          (u.descendants ≠ [] → (permutation.length : Int) = u.threshold) ∧
          x.descendants.map (·.id) = permutation.map (·.id)) :
    ∀ (size : Nat) (x : TreeVertex SignaturePolicy), x.size ≤ size → t.Reaches x →
      (∀ y ∈ x.preorder, y.isLeaf → (signedByIndex y.data).isSome) →
      Selection x.data (leafIndices x) := by
  have hUnique := (uniqueIds_computePolicyTree c rule).prune intn combinationUpperBound
  intro size
  induction size with
  | zero =>
    intro x hSize
    rw [size_eq] at hSize
    omega
  | succ size ih =>
    intro x hSize hx hLeaves
    obtain ⟨u, hu, huId, huData, permutation, hSub, hLength, hIds⟩ := hSelects x hx
    obtain ⟨w, hw, rfl⟩ := exists_reaches_of_reaches_prune intn combinationUpperBound hu
    obtain ⟨c', q, -, rfl⟩ := exists_occurs_of_reaches hw
    simp only [prune_data, computePolicyTree_data] at huData
    rw [← huData]
    cases q with
    | signedBy signedBy =>
      rw [prune_computePolicyTree_signedBy, List.sublist_nil] at hSub
      subst hSub
      have hLeaf : x.descendants = [] := List.map_eq_nil_iff.1 hIds
      rw [leafIndices_of_leaf hLeaf, ← huData]
      exact .signedBy signedBy
    | nOutOf n rules =>
      obtain ⟨hThreshold, hRules⟩ :=
        prune_computePolicyTree_nOutOf intn combinationUpperBound c' n rules
      by_cases hLeaf : x.descendants = []
      · have hSome := hLeaves x (by rw [preorder_eq]; exact List.mem_cons_self)
          ((isLeaf_iff x).2 hLeaf)
        simp [← huData, signedByIndex] at hSome
      have hNe : permutation ≠ [] := by
        rintro rfl
        exact hLeaf (List.map_eq_nil_iff.1 hIds)
      have hChosen : (permutation.length : Int) = n := by
        rw [hLength (fun hNil => hNe (List.sublist_nil.1 (hNil ▸ hSub))), hThreshold]
      have hPairs : List.Forall₂ (fun y v => y.id = v.id) x.descendants permutation := by
        have hEq : List.Forall₂ (· = ·) (x.descendants.map (·.id)) (permutation.map (·.id)) := by
          rw [hIds]
          exact List.forall₂_same.2 fun _ _ => rfl
        simpa [List.forall₂_map_left_iff, List.forall₂_map_right_iff] using hEq
      have hParts : List.Forall₂ (fun v part => Selection v.data part) permutation
          (x.descendants.map leafIndices) := by
        rw [List.forall₂_map_right_iff]
        refine (ListOrder.forall₂_imp_of_mem (fun y hy v hv hyv => ?_) hPairs).flip
        have hy' : t.Reaches y := hx.tail hy
        obtain ⟨uy, huy, huyId, huyData, -⟩ := hSelects y hy'
        have hvR : v ∈ ((computePolicyTree c rule).prune intn combinationUpperBound).preorder :=
          mem_preorder.2 (hu.tail (hSub.subset hv))
        obtain rfl := hUnique.eq_of_id_eq (mem_preorder.2 huy) hvR (huyId.trans hyv)
        show Selection uy.data (leafIndices y)
        rw [huyData]
        have hySize : y.size ≤ size := by
          have := size_lt_of_mem hy
          omega
        refine ih y hySize hy' fun z hz hzLeaf => hLeaves z ?_ hzLeaf
        rw [preorder_eq, preorderAll_eq_flatMap]
        exact List.mem_cons_of_mem _ (List.mem_flatMap.2 ⟨y, hy, hz⟩)
      rw [leafIndices_of_ne_nil hLeaf]
      refine .nOutOf ((hSub.map (·.data)).trans hRules) (by simpa using hChosen) ?_
      simpa [List.forall₂_map_left_iff] using hParts

end Soundness

section Principals

variable {principals : List MSPPrincipal}

theorem principalsOfLeaves_eq_ok :
    ∀ {vs : List (TreeVertex SignaturePolicy)} {principalSet principalSet' : List MSPPrincipal},
      principalsOfLeaves principals vs principalSet = .ok principalSet' → principalSet' ≠ [] →
      (∀ v ∈ vs, v.isLeaf → (signedByIndex v.data).isSome) ∧
      (∀ i ∈ (vs.filter (·.isLeaf)).filterMap (signedByIndex ·.data),
        0 ≤ i ∧ i.toNat < principals.length) ∧
      principalSet' = principalSet ++
        ((vs.filter (·.isLeaf)).filterMap (signedByIndex ·.data)).filterMap
          (principals[·.toNat]?)
  | [], _, _, h, _ => by
    cases h
    simp
  | v :: vs, principalSet, principalSet', h, hNe => by
    simp only [principalsOfLeaves] at h
    split_ifs at h with hLeaf
    · obtain ⟨hLeaves, hRange, rfl⟩ := principalsOfLeaves_eq_ok h hNe
      have hNotLeaf : v.isLeaf = false := by simpa using hLeaf
      refine ⟨fun w hw => ?_, by simpa [hNotLeaf] using hRange, by simp [hNotLeaf]⟩
      rcases List.mem_cons.1 hw with rfl | hw
      · simp [hNotLeaf]
      · exact hLeaves w hw
    have hIsLeaf : v.isLeaf = true := by simpa using hLeaf
    split at h
    · rename_i signedBy hData
      split_ifs at h with hBound
      · cases h
        exact absurd rfl hNe
      cases hIndex : index principals signedBy with
      | error e =>
        rw [hIndex, bind_error] at h
        cases h
      | ok principal =>
        rw [hIndex, bind_ok] at h
        obtain ⟨hNonneg, hLt, hGet⟩ := index_eq_ok hIndex
        obtain ⟨hLeaves, hRange, rfl⟩ := principalsOfLeaves_eq_ok h hNe
        have hCons : ((v :: vs).filter (·.isLeaf)).filterMap (signedByIndex ·.data) =
            signedBy :: (vs.filter (·.isLeaf)).filterMap (signedByIndex ·.data) := by
          simp [List.filter_cons_of_pos hIsLeaf, hData, signedByIndex]
        rw [hCons]
        refine ⟨fun w hw => ?_, fun i hi => ?_, by simp [hGet]⟩
        · rcases List.mem_cons.1 hw with rfl | hw
          · simp [hData, signedByIndex]
          · exact hLeaves w hw
        · rcases List.mem_cons.1 hi with rfl | hi
          · exact ⟨hNonneg, hLt⟩
          · exact hRange i hi
    · cases h
      exact absurd rfl hNe

theorem exists_of_mem_principalSetsOf :
    ∀ {perms : List (TreeVertex SignaturePolicy)} {res sets : List (List MSPPrincipal)},
      principalSetsOf principals perms res = .ok sets → ∀ principalSet ∈ sets,
        principalSet ∈ res ∨ ∃ perm ∈ perms,
          principalsOfTree perm principals = .ok principalSet ∧ principalSet ≠ []
  | [], _, _, h, principalSet, hMem => by
    cases h
    exact Or.inl hMem
  | perm :: perms, res, sets, h, principalSet, hMem => by
    simp only [principalSetsOf] at h
    cases hTree : principalsOfTree perm principals with
    | error e =>
      rw [hTree, bind_error] at h
      cases h
    | ok principalSet' =>
      rw [hTree, bind_ok] at h
      split_ifs at h with hEmpty
      · cases h
        simp at hMem
      rcases exists_of_mem_principalSetsOf h principalSet hMem with hMem | ⟨perm', hPerm', rest⟩
      · rcases List.mem_append.1 hMem with hMem | hMem
        · exact Or.inl hMem
        · rw [List.mem_singleton] at hMem
          subst hMem
          exact Or.inr ⟨perm, List.mem_cons_self, hTree, fun hNil => hEmpty (by simp [hNil])⟩
      · exact Or.inr ⟨perm', List.mem_cons_of_mem _ hPerm', rest⟩

end Principals

/-- Every principal set `SatisfiedBy` returns is, up to order, the identities at the indices of a
selection of the policy, all in range. -/
theorem satisfiedBy_selections {intn : String → Nat → Nat} {sigPol : SignaturePolicyEnvelope}
    {sets : List (List MSPPrincipal)} (h : satisfiedBy intn sigPol = some (.ok sets)) :
    ∀ principalSet ∈ sets, ∃ indices, Selection sigPol.rule indices ∧
      (∀ i ∈ indices, 0 ≤ i ∧ i.toNat < sigPol.identities.length) ∧
      principalSet.Perm (indices.filterMap fun i => sigPol.identities[i.toNat]?) := by
  unfold satisfiedBy at h
  rw [Option.bind_eq_bind, Option.bind_eq_some_iff] at h
  obtain ⟨perms, hPermute, hSets⟩ := h
  intro principalSet hMem
  rcases exists_of_mem_principalSetsOf (Option.some.inj hSets) principalSet hMem with
    hMem | ⟨t, ht, hTree, hNe⟩
  · simp at hMem
  obtain ⟨hLeaves, hRange, rfl⟩ := principalsOfLeaves_eq_ok hTree hNe
  obtain ⟨hId, hSelects⟩ := permute_selects intn combinationsUpperBound
    (uniqueIds_computePolicyTree _ _) hPermute t ht
  have hPerm : ((t.bfs.filter (·.isLeaf)).filterMap (signedByIndex ·.data)).Perm
      (leafIndices t) := ((bfs_perm t).filter _).filterMap _
  have hRoot : t.data = sigPol.rule := by
    obtain ⟨u, hu, huId, huData, -⟩ := hSelects t Relation.ReflTransGen.refl
    have hRootMem := mem_preorder.2 (Relation.ReflTransGen.refl (a :=
      (computePolicyTree (toString 0) sigPol.rule).prune intn combinationsUpperBound))
    obtain rfl := ((uniqueIds_computePolicyTree _ _).prune intn combinationsUpperBound).eq_of_id_eq
      (mem_preorder.2 hu) hRootMem (by simp [huId, hId])
    simpa using huData.symm
  refine ⟨leafIndices t, ?_, fun i hi => hRange i (hPerm.mem_iff.2 hi), ?_⟩
  · rw [← hRoot]
    exact selection_of_selects hSelects _ t le_rfl Relation.ReflTransGen.refl
      fun y hy hyLeaf => hLeaves y ((bfs_perm t).mem_iff.2 hy) hyLeaf
  · simpa using hPerm.filterMap _

def oneOfTwoIdentities : SignaturePolicyEnvelope :=
  ⟨0, .nOutOf 1 [.signedBy 0, .signedBy 1], [⟨0, [1]⟩, ⟨0, [2]⟩]⟩

theorem satisfiedBy_selections_oneOfTwoIdentities :
    satisfiedBy (fun _ _ => 0) oneOfTwoIdentities = some (.ok [[⟨0, [1]⟩], [⟨0, [2]⟩]]) ∧
      ∀ principalSet ∈ [[⟨0, [1]⟩], [(⟨0, [2]⟩ : MSPPrincipal)]], ∃ indices,
        Selection oneOfTwoIdentities.rule indices ∧
        (∀ i ∈ indices, 0 ≤ i ∧ i.toNat < oneOfTwoIdentities.identities.length) ∧
        principalSet.Perm (indices.filterMap fun i => oneOfTwoIdentities.identities[i.toNat]?) :=
  have hRun : satisfiedBy (fun _ _ => 0) oneOfTwoIdentities =
      some (.ok [[⟨0, [1]⟩], [⟨0, [2]⟩]]) := by decide +kernel
  ⟨hRun, satisfiedBy_selections hRun⟩

end FabricPeer.Policies
