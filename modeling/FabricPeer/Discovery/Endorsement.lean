import Mathlib.Data.List.Dedup
import FabricPeer.Lib.Fault

/-! # Endorsement descriptors of service discovery

`discovery/endorsement/endorsement.go`. `computePrincipalSets` turns the endorsement policies
of a chaincode interest (the chaincode's, its collections', and the key-level policies) into
principal sets: each is a multiset of principals whose signatures together satisfy every
policy, and the sets of several policies are merged pairwise. `computeEndorsementResponse`
then turns each principal set into a layout, a quantity of endorsers for every group, a group
being an alias of one principal. It keeps a layout when each of its groups, on its own, has as
many alive peers satisfying the group's principal as the layout asks of it
(`isLayoutSatisfied`), and then as many of them with the chaincode installed
(`filterOutUnsatisfiedLayouts`).

The inquiry of a policy (`SatisfiedBy`), the conversion to comparable principals, `Merge` and
the MSP's principal evaluation are parameters. A group is named by its principal: the names
`G0`, `G1`, ... of `mapPrincipalsToGroups` are a renaming of the principals.
-/

namespace FabricPeer.Discovery

set_option autoImplicit false

/-- `peer.ChaincodeCall`. -/
structure ChaincodeCall (Pol : Type) where
  name : String
  collectionNames : List String
  disregardNamespacePolicy : Bool
  keyPolicies : List Pol

structure PolicyInquiry (P Pol : Type) where
  policiesByChaincode : String → List String → List Pol
  satisfiedBy : Pol → List (List P)
  isComparable : P → Bool
  merge : List (List P) → List (List P) → List (List P)

section PrincipalSets

variable {P Pol : Type} (inquiry : PolicyInquiry P Pol)

/-- `NewComparablePrincipalSet`, whose result is `nil` also for an empty set. -/
def newComparablePrincipalSet (set : List P) : Option (List P) :=
  if set.all inquiry.isComparable && !set.isEmpty then some set else none

def comparablePrincipalSets (failed unsatisfiable : String) (policy : Pol) :
    Except String (List (List P)) := do
  let cmpsets ← (inquiry.satisfiedBy policy).mapM fun ps =>
    match newComparablePrincipalSet inquiry ps with
    | some cps => .ok cps
    | none => .error failed
  if cmpsets.isEmpty then .error unsatisfiable else .ok cmpsets

def mergePrincipalSets : List (List (List P)) → Except String (List (List P))
  | [] => .error "no principal sets remained after filtering"
  | cps :: cpss => .ok (cpss.foldl inquiry.merge cps)

def computeStateBasedPrincipalSets (chaincodes : List (ChaincodeCall Pol)) :
    Except String (List (List P)) := do
  let stateBasedCPS ← (chaincodes.flatMap (·.keyPolicies)).mapM
    (comparablePrincipalSets inquiry "failed creating a comparable principal set for state based endorsement"
      "state based endorsement policy cannot be satisfied")
  if stateBasedCPS.isEmpty then .ok [] else mergePrincipalSets inquiry stateBasedCPS

/-- The policies of one chaincode call that `computePrincipalSets` inquires. -/
def policiesOfCall (chaincode : ChaincodeCall Pol) : Except String (List Pol) :=
  let policies := inquiry.policiesByChaincode chaincode.name chaincode.collectionNames
  if policies.isEmpty then .error "policy not found"
  else if chaincode.disregardNamespacePolicy && chaincode.keyPolicies.isEmpty &&
      policies.length == 1 then
    .error ("requested to disregard chaincode " ++ chaincode.name ++
      "\x27s policy but key and collection policies are missing, either disable DisregardNamespacePolicy or specify at least one key policy or at least one collection policy")
  else if chaincode.disregardNamespacePolicy then .ok policies.tail
  else .ok policies

def computePrincipalSets (chaincodes : List (ChaincodeCall Pol)) :
    Except String (List (List P)) := do
  let policies ← chaincodes.mapM (policiesOfCall inquiry)
  let cpss ← policies.flatten.mapM (comparablePrincipalSets inquiry
    "failed creating a comparable principal set" "endorsement policy cannot be satisfied")
  let stateBasedCPS ← computeStateBasedPrincipalSets inquiry chaincodes
  mergePrincipalSets inquiry (if stateBasedCPS.isEmpty then cpss else cpss ++ [stateBasedCPS])

end PrincipalSets

/-- `discovery.Layout`: the quantity of endorsers each group asks for. -/
abbrev Layout (P : Type) := List (P × ℕ)

/-- The part of `context` that `computeEndorsementResponse` reads: the principal sets, the alive
members of the channel, whether a member's identity satisfies a principal, and whether the
chaincode is installed on it (`chaincodeMapping`). -/
structure DiscoveryContext (P M : Type) where
  chaincode : String
  principalsSets : List (List P)
  aliveMembership : List M
  satisfiesPrincipal : M → P → Bool
  hasChaincodeInstalled : M → Bool

/-- `discovery.EndorsementDescriptor`. -/
structure EndorsementDescriptor (P M : Type) where
  chaincode : String
  layouts : List (Layout P)
  endorsersByGroups : List (P × List M)
  deriving DecidableEq, Repr

section Layouts

variable {P M : Type} [DecidableEq P] (ctx : DiscoveryContext P M)

def uniqueSet (principalSet : List P) : List (P × ℕ) :=
  principalSet.dedup.map fun principal => (principal, principalSet.count principal)

/-- The layout of a principal set, before `computeLayouts` checks it. -/
def layoutOf (principalSet : List P) : Layout P :=
  (uniqueSet principalSet).map fun (group, plurality) => (group, plurality % 2 ^ 32)

/-- The peer vertices adjacent to a principal vertex in `principalsToPeersGraph`. -/
def neighbors (principal : P) : List M :=
  ctx.aliveMembership.filter (ctx.satisfiesPrincipal · principal)

def isLayoutSatisfied (layout : Layout P) : Bool :=
  layout.all fun (group, plurality) => plurality ≤ (neighbors ctx group).length

def computeLayouts : List (Layout P) :=
  (ctx.principalsSets.map layoutOf).filter (isLayoutSatisfied ctx)

def groupsSet (layouts : List (Layout P)) : List P :=
  layouts.flatMap fun layout => layout.map Prod.fst

/-- `endorsersByGroup`, over the principal vertices of the graph: every principal of the
principal sets. -/
def endorsersByGroup (layouts : List (Layout P)) : List (P × List M) :=
  ctx.principalsSets.flatten.dedup.filterMap fun grp =>
    if grp ∈ groupsSet layouts then
      let peerList := (neighbors ctx grp).filter ctx.hasChaincodeInstalled
      if peerList.isEmpty then none else some (grp, peerList)
    else none

end Layouts

def filterOutUnsatisfiedLayouts {P M : Type} [DecidableEq P]
    (endorsersByGroup : List (P × List M)) (layouts : List (Layout P)) : List (Layout P) :=
  layouts.filter fun layout => layout.all fun (group, quantity) =>
    match endorsersByGroup.lookup group with
    | none => false
    | some peerList => quantity ≤ peerList.length

def computeEndorsementResponse {P M : Type} [DecidableEq P] (ctx : DiscoveryContext P M) :
    Except String (EndorsementDescriptor P M) := do
  let layouts := computeLayouts ctx
  if layouts.isEmpty then throw "no peer combination can satisfy the endorsement policy"
  let groupToEndorserListMapping := endorsersByGroup ctx layouts
  let layouts := filterOutUnsatisfiedLayouts groupToEndorserListMapping layouts
  if layouts.isEmpty then throw "required chaincodes are not installed on sufficient peers"
  pure ⟨ctx.chaincode, layouts, groupToEndorserListMapping⟩

end FabricPeer.Discovery
