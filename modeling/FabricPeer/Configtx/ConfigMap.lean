import Mathlib.Algebra.Order.BigOperators.Group.List
import Mathlib.Algebra.Order.Group.Nat
import FabricPeer.Lib.Fault
import FabricPeer.Lib.GoMap
import FabricPeer.Ledger.KvRwSet

/-! # The flat map of a config tree

`configtx` compares configs as flat maps. `mapConfig` walks a `ConfigGroup` tree and files each
group, value and policy under its type prefix and its `/`-joined path, once `validateConfigID`
has accepted its key; `configMapToConfig` rebuilds the tree from the root, looking up the members
each stored group names, and sets an unset `mod_policy` to `Admins` when the map holds the orderer
capabilities value.

A protobuf map is the list of its entries, which Go ranges over in an unspecified order and here
in the list's order. A member of a map is a message: nil members are not modelled, nor are the
unrecognised fields `proto.Merge` copies.
-/

namespace FabricPeer.Configtx

open FabricPeer.Ledger GoRun

set_option autoImplicit false

structure Policy where
  type : Int32
  value : Bytes
  deriving DecidableEq, Repr

structure ConfigValue where
  version : UInt64
  value : Bytes
  modPolicy : String
  deriving DecidableEq, Repr

structure ConfigPolicy where
  version : UInt64
  policy : Option Policy
  modPolicy : String
  deriving DecidableEq, Repr

structure ConfigGroup where
  version : UInt64
  groups : List (String × ConfigGroup)
  values : List (String × ConfigValue)
  policies : List (String × ConfigPolicy)
  modPolicy : String
  deriving Repr

inductive Element where
  | group (g : ConfigGroup)
  | value (v : ConfigValue)
  | policy (p : ConfigPolicy)
  deriving Repr

/-- `comparable`: an element with its key and the path of the group that holds it. -/
structure Comparable where
  element : Element
  key : String
  path : List String
  deriving Repr

def Comparable.modPolicy (cg : Comparable) : String :=
  match cg.element with
  | .group g => g.modPolicy
  | .value v => v.modPolicy
  | .policy p => p.modPolicy

abbrev ConfigMap := GoMap String Comparable

def groupPrefix : String := "[Group]  "

def valuePrefix : String := "[Value]  "

def policyPrefix : String := "[Policy] "

def pathSeparator : String := "/"

def hackyFixOrdererCapabilities : String := "[Value]  /Channel/Orderer/Capabilities"

def hackyFixNewModPolicy : String := "Admins"

def MaxLength : Nat := 249

def illegalNames : List String := [".", ".."]

def configAllowedChar (c : Char) : Bool := c.isAlphanum || c == '.' || c == '-'

def findConfigAllowed (s : String) : String :=
  String.ofList ((s.toList.dropWhile fun c => !configAllowedChar c).takeWhile configAllowedChar)

/-- `validateConfigID`, the lengths in bytes. -/
def validateConfigID (configID : String) : Except String Unit :=
  if configID.utf8ByteSize ≤ 0 then .error "config ID illegal, cannot be empty"
  else if configID.utf8ByteSize > MaxLength then
    .error ("config ID illegal, cannot be longer than " ++ toString MaxLength)
  else if configID ∈ illegalNames then
    .error ("name \x27" ++ configID ++ "\x27 for config ID is not allowed")
  else if (findConfigAllowed configID).utf8ByteSize ≠ configID.utf8ByteSize then
    .error ("config ID \x27" ++ configID ++ "\x27 contains illegal characters")
  else .ok ()

def Element.typePrefix : Element → String
  | .group _ => groupPrefix
  | .value _ => valuePrefix
  | .policy _ => policyPrefix

def addToMap (cg : Comparable) (result : ConfigMap) : Run ConfigMap :=
  let fqPath := cg.element.typePrefix
  match validateConfigID cg.key with
  | .error err => .error (.error ("illegal characters in key: " ++ fqPath ++ ": " ++ err))
  | .ok () =>
    let fqPath := if cg.path.length = 0 then fqPath ++ pathSeparator ++ cg.key
      else fqPath ++ pathSeparator ++ pathSeparator.intercalate cg.path ++ pathSeparator ++ cg.key
    .ok (result.insert fqPath cg)

mutual

/-- `recurseConfig`: the group, under the last key of `path`, then its subgroups, values and
policies. -/
def recurseConfig (result : ConfigMap) (path : List String) : ConfigGroup → Run ConfigMap
  | group@⟨_, groups, values, policies, _⟩ => do
    let key ← index path ((path.length : Int) - 1)
    let result ← addToMap ⟨.group group, key, path.take (path.length - 1)⟩ result
    let result ← recurseConfigGroups result path groups
    let result ← values.foldlM
      (fun result (key, value) => addToMap ⟨.value value, key, path⟩ result) result
    policies.foldlM (fun result (key, policy) => addToMap ⟨.policy policy, key, path⟩ result)
      result

def recurseConfigGroups (result : ConfigMap) (path : List String) :
    List (String × ConfigGroup) → Run ConfigMap
  | [] => pure result
  | (key, group) :: groups => do
    let result ← recurseConfig result (path ++ [key]) group
    recurseConfigGroups result path groups

end

/-- `mapConfig`, `none` standing for a nil group. -/
def mapConfig (channelGroup : Option ConfigGroup) (rootGroupKey : String) : Run ConfigMap :=
  match channelGroup with
  | none => pure GoMap.empty
  | some channelGroup => recurseConfig GoMap.empty [rootGroupKey] channelGroup

def upgradeModPolicies (g : ConfigGroup) : ConfigGroup :=
  { g with
    modPolicy := if g.modPolicy = "" then hackyFixNewModPolicy else g.modPolicy
    values := g.values.map fun (key, value) =>
      (key, if value.modPolicy = "" then { value with modPolicy := hackyFixNewModPolicy } else value)
    policies := g.policies.map fun (key, policy) =>
      (key, if policy.modPolicy = "" then { policy with modPolicy := hackyFixNewModPolicy }
        else policy) }

def pathBudget (configMap : ConfigMap) (path : String) : Nat :=
  (configMap.assignments.map fun e => e.1.length).sum + 1 - (groupPrefix ++ path).length

theorem pathBudget_lt {configMap : ConfigMap} {path : String} {group : Comparable}
    (hGroup : configMap.get? (groupPrefix ++ path) = some group) (key : String) :
    pathBudget configMap (path ++ pathSeparator ++ key) < pathBudget configMap path := by
  have hMem : groupPrefix ++ path ∈ configMap.assignments.map Prod.fst := by
    rw [← GoMap.isSome_lookup_iff]
    exact Option.isSome_iff_exists.2 ⟨group, hGroup⟩
  have hLe : (groupPrefix ++ path).length ≤
      (configMap.assignments.map fun e => e.1.length).sum := by
    obtain ⟨e, he, hEq⟩ := List.mem_map.1 hMem
    exact List.le_sum_of_mem (List.mem_map.2 ⟨e, he, by rw [hEq]⟩)
  have hSep : pathSeparator.length = 1 := rfl
  simp only [pathBudget, String.length_append] at hLe ⊢
  omega

/-- `recurseConfigMap`: the group at `path`, its subgroups rebuilt from their paths, its values
and policies looked up, each member the stored group names. -/
def recurseConfigMap (path : String) (configMap : ConfigMap) : Run ConfigGroup :=
  let groupPath := groupPrefix ++ path
  match _hGroup : configMap.get? groupPath with
  | none => .error (.error ("missing group at path: " ++ groupPath))
  | some group =>
    match group.element with
    | .group cg => do
      let groups ← cg.groups.mapM fun (key, _) => do
        let updatedGroup ← recurseConfigMap (path ++ pathSeparator ++ key) configMap
        pure (key, updatedGroup)
      let values ← cg.values.mapM fun (key, _) =>
        let valuePath := valuePrefix ++ path ++ pathSeparator ++ key
        match configMap.get? valuePath with
        | none => .error (.error ("missing value at path: " ++ valuePath))
        | some value =>
          match value.element with
          | .value v => .ok (key, v)
          | _ => .error (.error ("ConfigValue not found at value path: " ++ valuePath))
      let policies ← cg.policies.mapM fun (key, _) =>
        let policyPath := policyPrefix ++ path ++ pathSeparator ++ key
        match configMap.get? policyPath with
        | none => .error (.error ("missing policy at path: " ++ policyPath))
        | some policy =>
          match policy.element with
          | .policy p => .ok (key, p)
          | _ => .error (.error ("ConfigPolicy not found at policy path: " ++ policyPath))
      let newConfigGroup : ConfigGroup := { cg with groups, values, policies }
      pure (if configMap.contains hackyFixOrdererCapabilities then
        upgradeModPolicies newConfigGroup else newConfigGroup)
    | _ => .error (.error ("ConfigGroup not found at group path: " ++ groupPath))
termination_by pathBudget configMap path
decreasing_by exact pathBudget_lt _hGroup _

def configMapToConfig (configMap : ConfigMap) (rootGroupKey : String) : Run ConfigGroup :=
  recurseConfigMap (pathSeparator ++ rootGroupKey) configMap

end FabricPeer.Configtx
