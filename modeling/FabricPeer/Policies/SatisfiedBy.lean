import FabricPeer.Graph.Tree
import FabricPeer.Policies.Cauthdsl
import FabricPeer.Lib.Fault

/-! # The principal sets that satisfy a signature policy

`inquire.go`. `SatisfiedBy` turns the rule of a signature policy into a tree, a vertex per rule
with the rule as its data and its `N` as threshold, permutes the tree, and reads each
permutation's leaves, breadth first, as the principals they sign by. A permutation with a leaf
that is not a `SignedBy`, or that names no principal, makes the whole answer nil.

`Permute` may not return (`TreeVertex.permute`), so the answer is an `Option`; indexing the
principals with a negative `SignedBy` panics.
-/

namespace FabricPeer.Policies

open FabricPeer.Graph GoRun

set_option autoImplicit false

def combinationsUpperBound : Int := 10000

mutual

/-- `computePolicyTree`, from the vertex `NewTreeVertex(id, rule)`: a `NOutOf` rule gets its `N`
as threshold and a descendant per rule, whose id is the vertex's followed by `.` and the rule's
index. -/
def computePolicyTree (id : String) : SignaturePolicy → TreeVertex SignaturePolicy
  | .signedBy signedBy => newTreeVertex id (.signedBy signedBy) []
  | .nOutOf n rules => ⟨id, .nOutOf n rules, computeRuleTrees id 0 rules, n⟩

def computeRuleTrees (id : String) (i : Nat) :
    List SignaturePolicy → List (TreeVertex SignaturePolicy)
  | [] => []
  | rule :: rules =>
    computePolicyTree (id ++ "." ++ toString i) rule :: computeRuleTrees id (i + 1) rules

end

def principalsOfLeaves (principals : List MSPPrincipal) :
    List (TreeVertex SignaturePolicy) → List MSPPrincipal → Run (List MSPPrincipal)
  | [], principalSet => pure principalSet
  | v :: vs, principalSet =>
    if !v.isLeaf then principalsOfLeaves principals vs principalSet
    else
      match v.data with
      | .signedBy signedBy =>
        if principals.length ≤ signedBy then pure []
        else do
          let principal ← index principals signedBy
          principalsOfLeaves principals vs (principalSet ++ [principal])
      | .nOutOf _ _ => pure []

/-- `principalsOfTree`. -/
def principalsOfTree (tree : TreeVertex SignaturePolicy) (principals : List MSPPrincipal) :
    Run (List MSPPrincipal) :=
  principalsOfLeaves principals tree.bfs []

def principalSetsOf (principals : List MSPPrincipal) :
    List (TreeVertex SignaturePolicy) → List (List MSPPrincipal) → Run (List (List MSPPrincipal))
  | [], res => pure res
  | perm :: perms, res => do
    let principalSet ← principalsOfTree perm principals
    if principalSet.length = 0 then pure []
    else principalSetsOf principals perms (res ++ [principalSet])

/-- `inquireableSignaturePolicy.SatisfiedBy`, `rand.Intn` the parameter `intn`; `none` when it
does not return. -/
def satisfiedBy (intn : String → Nat → Nat) (sigPol : SignaturePolicyEnvelope) :
    Option (Run (List (List MSPPrincipal))) := do
  let rootId := toString 0
  let root := computePolicyTree rootId sigPol.rule
  let perms ← root.permute intn combinationsUpperBound
  pure (principalSetsOf sigPol.identities perms [])

end FabricPeer.Policies
