import FabricPeer.Discovery.Endorsement
import FabricPeer.Lib.Allocation

/-! # What a layout of an endorsement descriptor guarantees

Each layout of a descriptor is the histogram of one principal set, and for each of its groups
`EndorsersByGroups` lists the alive peers with the chaincode installed that satisfy the group's
principal, at least as many as the layout asks of the group. The check is made group by group,
so a peer that satisfies the principals of two groups is counted for both. Whether a layout can
be filled with distinct peers is Hall's condition over its groups.
-/

namespace FabricPeer.Discovery

open GoRun

set_option autoImplicit false

section PrincipalSets

variable {P Pol : Type} (inquiry : PolicyInquiry P Pol)

theorem comparablePrincipalSets_eq_ok {failed unsatisfiable : String} {policy : Pol}
    (hComparable : ∀ ps ∈ inquiry.satisfiedBy policy, newComparablePrincipalSet inquiry ps = some ps)
    (hSatisfiable : inquiry.satisfiedBy policy ≠ []) :
    comparablePrincipalSets inquiry failed unsatisfiable policy = .ok (inquiry.satisfiedBy policy) := by
  unfold comparablePrincipalSets
  rw [mapM_eq_ok_self]
  · simp [hSatisfiable]
  · intro ps hMem
    simp only [hComparable ps hMem]

theorem computePrincipalSets_single {chaincode : ChaincodeCall Pol} {policy : Pol}
    (hPolicies : inquiry.policiesByChaincode chaincode.name chaincode.collectionNames = [policy])
    (hKeys : chaincode.keyPolicies = []) (hRegard : chaincode.disregardNamespacePolicy = false)
    (hComparable : ∀ ps ∈ inquiry.satisfiedBy policy, newComparablePrincipalSet inquiry ps = some ps)
    (hSatisfiable : inquiry.satisfiedBy policy ≠ []) :
    computePrincipalSets inquiry [chaincode] = .ok (inquiry.satisfiedBy policy) := by
  have hCall : policiesOfCall inquiry chaincode = .ok [policy] := by
    simp [policiesOfCall, hPolicies, hRegard]
  have hStateBased : computeStateBasedPrincipalSets inquiry [chaincode] = .ok [] := by
    simp [computeStateBasedPrincipalSets, hKeys]
  simp [computePrincipalSets, hCall, hStateBased,
    comparablePrincipalSets_eq_ok inquiry hComparable hSatisfiable, mergePrincipalSets]

end PrincipalSets

section Layouts

variable {P M : Type} [DecidableEq P] {ctx : DiscoveryContext P M}

theorem mem_computeLayouts {layout : Layout P} :
    layout ∈ computeLayouts ctx ↔
      (∃ principalSet ∈ ctx.principalsSets, layoutOf principalSet = layout) ∧
        isLayoutSatisfied ctx layout = true := by
  simp [computeLayouts]

theorem lookup_endorsersByGroup {layouts : List (Layout P)} {group : P} {peers : List M}
    (h : (endorsersByGroup ctx layouts).lookup group = some peers) :
    peers = (neighbors ctx group).filter ctx.hasChaincodeInstalled ∧ peers ≠ [] := by
  obtain ⟨l₁, l₂, hSplit, -⟩ := List.lookup_eq_some_iff.1 h
  have hMem : (group, peers) ∈ endorsersByGroup ctx layouts := by
    rw [hSplit]
    exact List.mem_append_right _ List.mem_cons_self
  obtain ⟨grp, -, hSome⟩ := List.mem_filterMap.1 hMem
  dsimp only at hSome
  split_ifs at hSome with hIncluded hEmpty
  obtain ⟨rfl, rfl⟩ := Prod.mk.inj (Option.some.inj hSome)
  exact ⟨rfl, by simpa using hEmpty⟩

theorem mem_filterOutUnsatisfiedLayouts {endorsers : List (P × List M)}
    {layouts : List (Layout P)} {layout : Layout P} :
    layout ∈ filterOutUnsatisfiedLayouts endorsers layouts ↔ layout ∈ layouts ∧
      ∀ group quantity, (group, quantity) ∈ layout →
        ∃ peers, endorsers.lookup group = some peers ∧ quantity ≤ peers.length := by
  simp only [filterOutUnsatisfiedLayouts, List.mem_filter, List.all_eq_true, Prod.forall]
  apply and_congr_right
  intro _
  apply forall_congr'
  intro group
  apply forall_congr'
  intro quantity
  apply imp_congr_right
  intro _
  cases endorsers.lookup group with
  | none => simp
  | some peers => simp

theorem computeEndorsementResponse_eq_ok {d : EndorsementDescriptor P M} :
    computeEndorsementResponse ctx = .ok d ↔
      computeLayouts ctx ≠ [] ∧
      filterOutUnsatisfiedLayouts (endorsersByGroup ctx (computeLayouts ctx)) (computeLayouts ctx) ≠ [] ∧
      d = ⟨ctx.chaincode,
        filterOutUnsatisfiedLayouts (endorsersByGroup ctx (computeLayouts ctx)) (computeLayouts ctx),
        endorsersByGroup ctx (computeLayouts ctx)⟩ := by
  unfold computeEndorsementResponse
  by_cases hLayouts : computeLayouts ctx = []
  case pos => simp [hLayouts]
  case neg =>
    by_cases hFiltered : filterOutUnsatisfiedLayouts (endorsersByGroup ctx (computeLayouts ctx))
        (computeLayouts ctx) = []
    case pos => simp [hLayouts, hFiltered]
    case neg =>
      simp only [hLayouts, hFiltered, List.isEmpty_iff, if_false, ne_eq, not_false_eq_true,
        true_and]
      constructor
      · intro h
        exact (Except.ok.inj h).symm
      · rintro rfl
        rfl

/-- The groups of a layout. -/
def layoutGroups (layout : Layout P) : Finset P := (layout.map Prod.fst).toFinset

/-- The quantity a layout asks of a group. -/
def layoutQuota (layout : Layout P) (group : P) : ℕ := (layout.lookup group).getD 0

/-- The endorsers a descriptor lists for a group. -/
def endorsersOf [DecidableEq M] (d : EndorsementDescriptor P M) (group : P) : Finset M :=
  ((d.endorsersByGroups.lookup group).getD []).toFinset

/-- A layout of a descriptor is the histogram of a principal set; each of its groups lists all
the alive peers with the chaincode installed that satisfy the group's principal, at least the
quantity the layout asks; and distinct peers fill the layout iff Hall's condition holds for
those peers. -/
theorem computeEndorsementResponse_layout_spec [DecidableEq M] {d : EndorsementDescriptor P M}
    (hOk : computeEndorsementResponse ctx = .ok d) {layout : Layout P} (hLayout : layout ∈ d.layouts) :
    (∃ principalSet ∈ ctx.principalsSets, layoutOf principalSet = layout) ∧
    (∀ group quantity, (group, quantity) ∈ layout →
      d.endorsersByGroups.lookup group =
        some ((neighbors ctx group).filter ctx.hasChaincodeInstalled) ∧
      quantity ≤ ((neighbors ctx group).filter ctx.hasChaincodeInstalled).length) ∧
    (Allocation.Realizable (layoutGroups layout) (layoutQuota layout) (endorsersOf d) ↔
      Allocation.HallCondition (layoutGroups layout) (layoutQuota layout)
        fun group => ((neighbors ctx group).filter ctx.hasChaincodeInstalled).toFinset) := by
  obtain ⟨-, -, rfl⟩ := computeEndorsementResponse_eq_ok.1 hOk
  obtain ⟨hComputed, hFits⟩ := mem_filterOutUnsatisfiedLayouts.1 hLayout
  have hListed : ∀ group quantity, (group, quantity) ∈ layout →
      (endorsersByGroup ctx (computeLayouts ctx)).lookup group =
        some ((neighbors ctx group).filter ctx.hasChaincodeInstalled) ∧
      quantity ≤ ((neighbors ctx group).filter ctx.hasChaincodeInstalled).length := by
    intro group quantity hMem
    obtain ⟨peers, hLookup, hLe⟩ := hFits group quantity hMem
    obtain ⟨rfl, -⟩ := lookup_endorsersByGroup hLookup
    exact ⟨hLookup, hLe⟩
  refine ⟨(mem_computeLayouts.1 hComputed).1, hListed, ?_⟩
  rw [Allocation.realizable_iff_hallCondition]
  apply Allocation.hallCondition_congr
  intro group hGroup
  obtain ⟨⟨_, quantity⟩, hMem, rfl⟩ := List.mem_map.1 (List.mem_toFinset.1 hGroup)
  simp [endorsersOf, (hListed _ quantity hMem).1]

end Layouts

/-- A chaincode whose policy is `OutOf(2, 'Org1.member', 'Org1.peer')`, given by the one
principal set that satisfies it. -/
def examplePolicyInquiry : PolicyInquiry String (List (List String)) where
  policiesByChaincode := fun _ _ => [[["Org1.member", "Org1.peer"]]]
  satisfiedBy := id
  isComparable := fun _ => true
  merge := fun sets _ => sets

def exampleChaincodeCall : ChaincodeCall (List (List String)) := ⟨"mycc", [], false, []⟩

/-- One alive peer of Org1, with the chaincode installed: a peer satisfies both principals. -/
def exampleDiscoveryContext : DiscoveryContext String String where
  chaincode := "mycc"
  principalsSets := [["Org1.member", "Org1.peer"]]
  aliveMembership := ["peer0.org1"]
  satisfiesPrincipal := fun _ _ => true
  hasChaincodeInstalled := fun _ => true

def exampleDescriptor : EndorsementDescriptor String String where
  chaincode := "mycc"
  layouts := [[("Org1.member", 1), ("Org1.peer", 1)]]
  endorsersByGroups := [("Org1.member", ["peer0.org1"]), ("Org1.peer", ["peer0.org1"])]

theorem computeEndorsementResponse_layout_spec_mycc :
    (∃ principalSet ∈ exampleDiscoveryContext.principalsSets,
      layoutOf principalSet = [("Org1.member", 1), ("Org1.peer", 1)]) ∧
    (∀ group quantity, (group, quantity) ∈ [("Org1.member", 1), ("Org1.peer", 1)] →
      exampleDescriptor.endorsersByGroups.lookup group =
        some ((neighbors exampleDiscoveryContext group).filter
          exampleDiscoveryContext.hasChaincodeInstalled) ∧
      quantity ≤ ((neighbors exampleDiscoveryContext group).filter
        exampleDiscoveryContext.hasChaincodeInstalled).length) ∧
    (Allocation.Realizable (layoutGroups [("Org1.member", 1), ("Org1.peer", 1)])
        (layoutQuota [("Org1.member", 1), ("Org1.peer", 1)]) (endorsersOf exampleDescriptor) ↔
      Allocation.HallCondition (layoutGroups [("Org1.member", 1), ("Org1.peer", 1)])
        (layoutQuota [("Org1.member", 1), ("Org1.peer", 1)])
        fun group => ((neighbors exampleDiscoveryContext group).filter
          exampleDiscoveryContext.hasChaincodeInstalled).toFinset) :=
  computeEndorsementResponse_layout_spec rfl (by decide)

end FabricPeer.Discovery
