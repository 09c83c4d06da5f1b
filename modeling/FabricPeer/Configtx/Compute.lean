import FabricPeer.Configtx.Update

/-! # The config update `configtxlator` computes

`update.go` of `configtxlator`. `Compute` compares an original and an updated channel group, map
by map. Of the members of a map it leaves out those removed, keeps a stub of the version of those
left as they were (`sameSet`), writes those modified at the next version and those added at
version 0; a group is compared member by member the same way, and a group added is compared
with an empty group and written at version 0. A group whose membership or `mod_policy` changed is
read at its version and written at the next one, with the stubs of its unchanged members read and
written alike; a group with only modified members is read and written at its version with just
those members.

A protobuf map is the list of its entries, which Go ranges over in an unspecified order and here
in the list's order, looked up by `List.lookup`. Every assignment `m[k] = v` of `update.go` is to
a key the map does not hold yet, and appends the entry.
-/

namespace FabricPeer.Configtx

open GoRun

set_option autoImplicit false

structure MapUpdate (α : Type) where
  readSet : List (String × α)
  writeSet : List (String × α)
  sameSet : List (String × α)
  updatedMembers : Bool

/-- The two loops of `computePoliciesMapUpdate` and `computeValuesMapUpdate`: `unchanged` tells
whether a member's `mod_policy` and content are as they were, `stub` keeps a member's version
only, `modified` writes the updated member at the next version of the original, `added` writes a
new member at version 0. The read set stays empty. -/
def computeMembersMapUpdate {α : Type} (unchanged : α → α → Bool) (stub : α → α)
    (modified : α → α → α) (added : α → α) (original updated : List (String × α)) :
    MapUpdate α :=
  let sorted := original.foldl (fun acc (name, originalMember) =>
    match updated.lookup name with
    | none => { acc with updatedMembers := true }
    | some updatedMember =>
      if unchanged originalMember updatedMember then
        { acc with sameSet := acc.sameSet ++ [(name, stub originalMember)] }
      else { acc with writeSet := acc.writeSet ++ [(name, modified originalMember updatedMember)] })
    ⟨[], [], [], false⟩
  updated.foldl (fun acc (name, updatedMember) =>
    if (original.lookup name).isSome then acc
    else
      { acc with updatedMembers := true,
                 writeSet := acc.writeSet ++ [(name, added updatedMember)] })
    sorted

/-- `computePoliciesMapUpdate`: a policy is unchanged when its `mod_policy` and its policy, by
`proto.Equal`, are. -/
def computePoliciesMapUpdate (original updated : List (String × ConfigPolicy)) :
    MapUpdate ConfigPolicy :=
  computeMembersMapUpdate
    (fun originalPolicy updatedPolicy =>
      originalPolicy.modPolicy == updatedPolicy.modPolicy &&
        originalPolicy.policy == updatedPolicy.policy)
    (fun originalPolicy => ⟨originalPolicy.version, none, ""⟩)
    (fun originalPolicy updatedPolicy =>
      ⟨originalPolicy.version + 1, updatedPolicy.policy, updatedPolicy.modPolicy⟩)
    (fun updatedPolicy => ⟨0, updatedPolicy.policy, updatedPolicy.modPolicy⟩)
    original updated

/-- `computeValuesMapUpdate`: a value is unchanged when its `mod_policy` and its bytes, by
`bytes.Equal`, are. -/
def computeValuesMapUpdate (original updated : List (String × ConfigValue)) :
    MapUpdate ConfigValue :=
  computeMembersMapUpdate
    (fun originalValue updatedValue =>
      originalValue.modPolicy == updatedValue.modPolicy &&
        originalValue.value == updatedValue.value)
    (fun originalValue => ⟨originalValue.version, [], ""⟩)
    (fun originalValue updatedValue =>
      ⟨originalValue.version + 1, updatedValue.value, updatedValue.modPolicy⟩)
    (fun updatedValue => ⟨0, updatedValue.value, updatedValue.modPolicy⟩)
    original updated

/-- `protoutil.NewConfigGroup`: an empty group. -/
def newConfigGroup : ConfigGroup := ⟨0, [], [], [], ""⟩

theorem sizeOf_groups_lt (g : ConfigGroup) : sizeOf g.groups < sizeOf g := by
  obtain ⟨_, _, _, _, _⟩ := g
  simp only [ConfigGroup.mk.sizeOf_spec]
  omega

theorem sizeOf_lt_of_lookup {α : Type} [SizeOf α] {members : List (String × α)} {name : String}
    {member : α} (h : members.lookup name = some member) : sizeOf member < sizeOf members := by
  induction members with
  | nil => simp at h
  | cons entry members ih =>
    obtain ⟨key, value⟩ := entry
    simp only [List.lookup_cons] at h
    split at h
    · cases h
      simp only [List.cons.sizeOf_spec, Prod.mk.sizeOf_spec]
      omega
    · have := ih h
      simp only [List.cons.sizeOf_spec]
      omega

mutual

def sortGroups (updated : List (String × ConfigGroup)) :
    List (String × ConfigGroup) → MapUpdate ConfigGroup → MapUpdate ConfigGroup
  | [], acc => acc
  | (groupName, originalGroup) :: originals, acc =>
    match _hLookup : updated.lookup groupName with
    | none => sortGroups updated originals { acc with updatedMembers := true }
    | some updatedGroup =>
      let groupUpdate := computeGroupUpdate originalGroup updatedGroup
      if !groupUpdate.2.2 then
        sortGroups updated originals
          { acc with sameSet := acc.sameSet ++ [(groupName, groupUpdate.1)] }
      else
        sortGroups updated originals
          { acc with readSet := acc.readSet ++ [(groupName, groupUpdate.1)],
                     writeSet := acc.writeSet ++ [(groupName, groupUpdate.2.1)] }
termination_by originals => (sizeOf updated, 0, originals.length)
decreasing_by
  all_goals first
    | exact Prod.Lex.left _ _ (sizeOf_lt_of_lookup _hLookup)
    | exact Prod.Lex.right _ (Prod.Lex.right _ (Nat.lt_succ_self _))

def addGroups (original : List (String × ConfigGroup)) :
    List (String × ConfigGroup) → MapUpdate ConfigGroup → MapUpdate ConfigGroup
  | [], acc => acc
  | (groupName, updatedGroup) :: updateds, acc =>
    if (original.lookup groupName).isSome then addGroups original updateds acc
    else
      let groupWriteSet := (computeGroupUpdate newConfigGroup updatedGroup).2.1
      addGroups original updateds
        { acc with updatedMembers := true,
                   writeSet := acc.writeSet ++ [(groupName, ⟨0, groupWriteSet.groups,
                     groupWriteSet.values, groupWriteSet.policies, updatedGroup.modPolicy⟩)] }
termination_by updateds => (sizeOf updateds, 0, 0)
decreasing_by
  all_goals refine Prod.Lex.left _ _ ?_
  all_goals simp only [List.cons.sizeOf_spec, Prod.mk.sizeOf_spec]
  all_goals omega

/-- `computeGroupsMapUpdate`. -/
def computeGroupsMapUpdate (original updated : List (String × ConfigGroup)) :
    MapUpdate ConfigGroup :=
  addGroups original updated (sortGroups updated original ⟨[], [], [], false⟩)
termination_by (sizeOf updated, 1, 0)
decreasing_by
  all_goals exact Prod.Lex.right _ (Prod.Lex.left _ _ Nat.zero_lt_one)

/-- `computeGroupUpdate`: the read set, the write set, and whether the group changed. -/
def computeGroupUpdate (original updated : ConfigGroup) : ConfigGroup × ConfigGroup × Bool :=
  let policies := computePoliciesMapUpdate original.policies updated.policies
  let values := computeValuesMapUpdate original.values updated.values
  let groups := computeGroupsMapUpdate original.groups updated.groups
  if !(policies.updatedMembers || values.updatedMembers || groups.updatedMembers ||
      original.modPolicy != updated.modPolicy) then
    if policies.readSet.length = 0 ∧ policies.writeSet.length = 0 ∧
        values.readSet.length = 0 ∧ values.writeSet.length = 0 ∧
        groups.readSet.length = 0 ∧ groups.writeSet.length = 0 then
      (⟨original.version, [], [], [], ""⟩, ⟨original.version, [], [], [], ""⟩, false)
    else
      (⟨original.version, groups.readSet, values.readSet, policies.readSet, ""⟩,
        ⟨original.version, groups.writeSet, values.writeSet, policies.writeSet, ""⟩, true)
  else
    (⟨original.version, groups.readSet ++ groups.sameSet, values.readSet ++ values.sameSet,
        policies.readSet ++ policies.sameSet, ""⟩,
      ⟨original.version + 1, groups.writeSet ++ groups.sameSet, values.writeSet ++ values.sameSet,
        policies.writeSet ++ policies.sameSet, updated.modPolicy⟩, true)
termination_by (sizeOf updated, 2, 0)
decreasing_by
  exact Prod.Lex.left _ _ (sizeOf_groups_lt updated)

end

/-- `Compute`: the update from the original config to the updated one, with no channel id. -/
def compute (original updated : Config) : Except String ConfigUpdate :=
  match original.channelGroup with
  | none => .error "no channel group included for original config"
  | some originalGroup =>
    match updated.channelGroup with
    | none => .error "no channel group included for updated config"
    | some updatedGroup =>
      let groupUpdate := computeGroupUpdate originalGroup updatedGroup
      if !groupUpdate.2.2 then .error "no differences detected between original and updated config"
      else .ok ⟨"", some groupUpdate.1, some groupUpdate.2.1⟩

end FabricPeer.Configtx
