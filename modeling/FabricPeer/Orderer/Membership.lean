import Mathlib.Data.List.Basic
import FabricPeer.Lib.GoMap

/-! # Raft membership changes

`orderer/consensus/etcdraft/membership.go`: a configuration update of a Raft channel lists the
new consenters, and `ComputeMembershipChanges` matches them by client TLS certificate against
the consenters of the current configuration, which the block metadata keeps by Raft node id.
A consenter whose certificate is known keeps its id; at most one consenter may be added and at
most one removed per update; one added and one removed is a certificate rotation, whose new
certificate takes over the id of the removed node; an added node takes `NextConsenterId`, which
is then incremented as a `uint64`.
-/

namespace FabricPeer.Orderer

open GoRun

set_option autoImplicit false

structure Consenter where
  host : String
  port : UInt32
  clientTlsCert : List UInt8
  serverTlsCert : List UInt8
  deriving DecidableEq, Repr

structure BlockMetadata where
  consenterIds : List UInt64
  nextConsenterId : UInt64
  raftIndex : UInt64
  deriving DecidableEq, Repr

inductive ConfChangeType where
  | confChangeAddNode
  | confChangeRemoveNode
  deriving DecidableEq, Repr

structure ConfChange where
  nodeID : UInt64
  type : ConfChangeType
  deriving DecidableEq, Repr

structure MembershipChanges where
  newBlockMetadata : BlockMetadata
  newConsenters : GoMap UInt64 Consenter
  addedNodes : List Consenter
  removedNodes : List Consenter
  confChange : Option ConfChange
  rotatedNode : UInt64

/-- `MembershipByCert`: the node id of each client TLS certificate. -/
def membershipByCert (consenters : GoMap UInt64 Consenter) : GoMap (List UInt8) UInt64 :=
  consenters.entries.foldl (fun set e => set.insert e.2.clientTlsCert e.1) GoMap.empty

/-- `ConsentersToMap`: the set of the client TLS certificates. -/
def consentersToMap (consenters : List Consenter) : GoMap (List UInt8) Unit :=
  consenters.foldl (fun set c => set.insert c.clientTlsCert ()) GoMap.empty

/-- `MembershipChanges.String`. -/
def MembershipChanges.toString (mc : MembershipChanges) : String :=
  let added := mc.addedNodes.length
  let removed := mc.removedNodes.length
  s!"add {added} node(s), remove {removed} node(s)"

def visitNewConsenter (currentConsentersSet : GoMap (List UInt8) UInt64)
    (acc : MembershipChanges × ℕ) (ci : Consenter × ℕ) : MembershipChanges × ℕ :=
  let result := acc.1
  match currentConsentersSet.get? ci.1.clientTlsCert with
  | some nodeID =>
    ({ result with
        newBlockMetadata := { result.newBlockMetadata with
          consenterIds := result.newBlockMetadata.consenterIds.set ci.2 nodeID }
        newConsenters := result.newConsenters.insert nodeID ci.1 }, acc.2)
  | none => ({ result with addedNodes := result.addedNodes ++ [ci.1] }, ci.2)

def visitOldConsenter (newConsentersSet : GoMap (List UInt8) Unit)
    (acc : MembershipChanges × UInt64) (e : UInt64 × Consenter) : MembershipChanges × UInt64 :=
  if newConsentersSet.contains e.2.clientTlsCert then acc
  else ({ acc.1 with removedNodes := acc.1.removedNodes ++ [e.2] }, e.1)

def switchOnChanges (result : MembershipChanges) (addedNodeIndex : ℕ) (deletedNodeID : UInt64) :
    Except String MembershipChanges :=
  match result.addedNodes, result.removedNodes with
  | [addedNode], [_] =>
    .ok { result with
      rotatedNode := deletedNodeID
      newBlockMetadata := { result.newBlockMetadata with
        consenterIds := result.newBlockMetadata.consenterIds.set addedNodeIndex deletedNodeID }
      newConsenters := result.newConsenters.insert deletedNodeID addedNode }
  | [addedNode], [] =>
    let nodeID := result.newBlockMetadata.nextConsenterId
    .ok { result with
      newConsenters := result.newConsenters.insert nodeID addedNode
      newBlockMetadata := { result.newBlockMetadata with
        consenterIds := result.newBlockMetadata.consenterIds.set addedNodeIndex nodeID
        nextConsenterId := nodeID + 1 }
      confChange := some ⟨nodeID, .confChangeAddNode⟩ }
  | [], [_] =>
    .ok { result with
      confChange := some ⟨deletedNodeID, .confChangeRemoveNode⟩
      newConsenters := result.newConsenters.delete deletedNodeID }
  | [], [] => .ok result
  | _, _ =>
    let changes := result.toString
    .error s!"update of more than one consenter at a time is not supported, requested changes: {changes}"

def computeMembershipChanges (oldMetadata : BlockMetadata)
    (oldConsenters : GoMap UInt64 Consenter) (newConsenters : List Consenter) :
    Except String MembershipChanges :=
  let result : MembershipChanges :=
    { newConsenters := GoMap.empty
      newBlockMetadata := { oldMetadata with
        consenterIds := List.replicate newConsenters.length 0 }
      addedNodes := []
      removedNodes := []
      confChange := none
      rotatedNode := 0 }
  let currentConsentersSet := membershipByCert oldConsenters
  let visited := newConsenters.zipIdx.foldl (visitNewConsenter currentConsentersSet) (result, 0)
  let newConsentersSet := consentersToMap newConsenters
  let scanned := oldConsenters.entries.foldl (visitOldConsenter newConsentersSet) (visited.1, 0)
  switchOnChanges scanned.1 visited.2 scanned.2

end FabricPeer.Orderer
