import FabricPeer.Policies.Cauthdsl
import FabricPeer.Lib.GoMap

/-! # Comparable principals and the merging of principal sets

`common/policies/inquire`, `compare.go` and `merge.go`. A `ComparablePrincipal` is an
`MSPPrincipal` decoded into its MSP and its role, its organizational unit or its identity bytes.
`IsA` says that every identity satisfying one principal satisfies the other, as far as the
decoded fields tell; `Equal` compares two principals field by field.

`Merge` combines two families of principal sets, each set satisfying one endorsement policy,
into one family whose sets satisfy both. A set of one family contained in a set of the other
(each of its principals met by a principal of the other that IsA it) is merged with that set;
the sets of the two families left after dropping those that contain or are contained in a set
of the other family are merged pairwise. Merging a pair keeps the containing set and adds the
principals of the contained set that find no unused principal of it to meet them
(`MergeWithPlurality`). `Reduce` then drops every set that contains another, pass after pass,
until a pass drops nothing.

The decoders of `proto.Unmarshal` are parameters. The principal of a comparable principal is
always set: the checks for an uninitialised one are not modelled. The maps from indices to
lists of indices are Go maps, visited in the order of `GoMap.entries`.
-/

namespace FabricPeer.Policies.Inquire

open GoRun

set_option autoImplicit false

def principalClassificationRole : Nat := 0

def principalClassificationOrganizationUnit : Nat := 1

def principalClassificationIdentity : Nat := 2

def mspRoleMember : Nat := 0

structure MSPRole where
  mspIdentifier : String
  role : Nat
  deriving DecidableEq, Repr

structure OrganizationUnit where
  mspIdentifier : String
  organizationalUnitIdentifier : String
  certifiersIdentifier : List UInt8
  deriving DecidableEq, Repr

structure SerializedIdentity where
  mspid : String
  idBytes : List UInt8
  deriving DecidableEq, Repr

structure PrincipalDecoders where
  unmarshalMSPRole : List UInt8 → Except String MSPRole
  unmarshalOrganizationUnit : List UInt8 → Except String OrganizationUnit
  unmarshalSerializedIdentity : List UInt8 → Except String SerializedIdentity

structure ComparablePrincipal where
  principal : MSPPrincipal
  ou : Option OrganizationUnit
  role : Option MSPRole
  mspID : String
  idBytes : List UInt8
  deriving DecidableEq, Repr

namespace ComparablePrincipal

def equalRoles (cp cp2 : ComparablePrincipal) : Bool :=
  match cp.role, cp2.role with
  | none, none => true
  | some role, some role2 => role.mspIdentifier == role2.mspIdentifier && role.role == role2.role
  | _, _ => false

def equalOUs (cp cp2 : ComparablePrincipal) : Bool :=
  match cp.ou, cp2.ou with
  | none, none => true
  | some ou, some ou2 =>
    ou.organizationalUnitIdentifier == ou2.organizationalUnitIdentifier &&
      ou.mspIdentifier == ou2.mspIdentifier && ou.certifiersIdentifier == ou2.certifiersIdentifier
  | _, _ => false

def equalPrincipals (cp cp2 : ComparablePrincipal) : Bool :=
  cp.principal.principalClassification == cp2.principal.principalClassification &&
    cp.principal.principal == cp2.principal.principal

def equal (cp cp2 : ComparablePrincipal) : Bool :=
  cp.mspID == cp2.mspID && cp.equalPrincipals cp2 && cp.equalRoles cp2 && cp.equalOUs cp2

def isA (this other : ComparablePrincipal) : Bool :=
  if this.mspID != other.mspID then false
  else if other.role.any (·.role == mspRoleMember) then true
  else
    match this.ou, other.ou with
    | some ou, some otherOU =>
      ou.organizationalUnitIdentifier == otherOU.organizationalUnitIdentifier &&
        ou.certifiersIdentifier == otherOU.certifiersIdentifier
    | _, _ =>
      match this.role, other.role with
      | some role, some otherRole => role.role == otherRole.role
      | _, _ =>
        if this.principal.principalClassification = principalClassificationIdentity then
          this.idBytes == other.idBytes && this.mspID == other.mspID
        else false

variable (decoders : PrincipalDecoders)

def toRole (cp : ComparablePrincipal) : Option ComparablePrincipal :=
  match decoders.unmarshalMSPRole cp.principal.principal with
  | .error _ => none
  | .ok mspRole => some { cp with mspID := mspRole.mspIdentifier, role := some mspRole }

def toOURole (cp : ComparablePrincipal) : Option ComparablePrincipal :=
  match decoders.unmarshalOrganizationUnit cp.principal.principal with
  | .error _ => none
  | .ok ouRole => some { cp with mspID := ouRole.mspIdentifier, ou := some ouRole }

def toIdentity (cp : ComparablePrincipal) : Option ComparablePrincipal :=
  match decoders.unmarshalSerializedIdentity cp.principal.principal with
  | .error _ => none
  | .ok sID => some { cp with mspID := sID.mspid, idBytes := sID.idBytes }

end ComparablePrincipal

section Compare

variable (decoders : PrincipalDecoders)

def newComparablePrincipal (principal : MSPPrincipal) : Option ComparablePrincipal :=
  let cp : ComparablePrincipal := ⟨principal, none, none, "", []⟩
  if principal.principalClassification = principalClassificationRole then cp.toRole decoders
  else if principal.principalClassification = principalClassificationOrganizationUnit then
    cp.toOURole decoders
  else if principal.principalClassification = principalClassificationIdentity then
    cp.toIdentity decoders
  else none

/-- `NewComparablePrincipalSet`: `nil`, the empty set, as soon as a principal does not convert. -/
def newComparablePrincipalSet (set : List MSPPrincipal) : List ComparablePrincipal :=
  (set.mapM (newComparablePrincipal decoders)).getD []

end Compare

/-- `ComparablePrincipalSet.ToPrincipalSet`. -/
def toPrincipalSet (cps : List ComparablePrincipal) : List MSPPrincipal :=
  cps.map (·.principal)

/-- `ComparablePrincipalSet.Contains`. -/
def contains (cps : List ComparablePrincipal) (s : ComparablePrincipal) : Bool :=
  cps.any (·.isA s)

/-- `ComparablePrincipalSet.IsContainedIn`. -/
def isContainedIn (cps set : List ComparablePrincipal) : Bool :=
  cps.all (contains set ·)

/-- `ComparablePrincipalSet.IsSubset`. -/
def isSubset (cps sets : List ComparablePrincipal) : Bool :=
  cps.all fun p1 => sets.any (p1.equal ·)

def computeContainedInMapping (s1 s2 : List (List ComparablePrincipal)) : GoMap ℕ (List ℕ) :=
  s1.zipIdx.foldl (fun mapping (ps1, i) =>
    s2.zipIdx.foldl (fun mapping (ps2, j) =>
      if !isContainedIn ps1 ps2 then mapping
      else mapping.insert i ((mapping.get? i).getD [] ++ [j])) mapping) GoMap.empty

/-- `intMapping.invert`. The order of its `range` is left as `entries`: the inverted mapping is
only read by `excludeIndices`, which asks whether an index is one of its keys. -/
def invert (im : GoMap ℕ (List ℕ)) : GoMap ℕ (List ℕ) :=
  im.entries.foldl (fun res (i, js) =>
    js.foldl (fun res j => res.insert j ((res.get? j).getD [] ++ [i])) res) GoMap.empty

/-- `ComparablePrincipalSets.ExcludeIndices`. -/
def excludeIndices {α : Type} (cps : List α) (mapping : GoMap ℕ (List ℕ)) : List α :=
  (cps.zipIdx.filter fun (_, i) => !mapping.contains i).map Prod.fst

structure ComparablePrincipalSetPair where
  contained : List ComparablePrincipal
  containing : List ComparablePrincipal
  deriving DecidableEq, Repr

/-- `ComparablePrincipalSets.OfMapping`, its `range` over the mapping in the order `order`. -/
def ofMapping (order : GoMap.RangeOrder ℕ (List ℕ)) (cps : List (List ComparablePrincipal))
    (mapping : GoMap ℕ (List ℕ)) (sets2 : List (List ComparablePrincipal)) :
    List ComparablePrincipalSetPair :=
  (order.visit mapping.entries).flatMap fun (i, js) => js.map fun j => ⟨cps[i]!, sets2[j]!⟩

def cartesianProduct (s1 s2 : List (List ComparablePrincipal)) :
    List ComparablePrincipalSetPair :=
  s1.flatMap fun x => s2.map fun y => ⟨x, y⟩

def principalsToAdd (containing : List ComparablePrincipal) (used : List ℕ) :
    List ComparablePrincipal → List ComparablePrincipal
  | [] => []
  | principal :: rest =>
    match containing.zipIdx.find? fun (coveringPrincipal, i) =>
        !used.contains i && coveringPrincipal.isA principal with
    | some (_, i) => principalsToAdd containing (i :: used) rest
    | none => principal :: principalsToAdd containing used rest

/-- `comparablePrincipalSetPair.MergeWithPlurality`. -/
def ComparablePrincipalSetPair.mergeWithPlurality (pair : ComparablePrincipalSetPair) :
    List ComparablePrincipal :=
  pair.containing ++ principalsToAdd pair.containing [] pair.contained

/-- `comparablePrincipalSetPairs.ToMergedPrincipalSets`. -/
def toMergedPrincipalSets (pairs : List ComparablePrincipalSetPair) :
    List (List ComparablePrincipal) :=
  pairs.map (·.mergeWithPlurality)

def isContaining (cps : List (List ComparablePrincipal)) (s1 : List ComparablePrincipal)
    (i : ℕ) : Bool :=
  cps.zipIdx.foldl (fun isContaining (s2, j) =>
    if i = j then isContaining
    else
      let isContaining := if isSubset s2 s1 then true else isContaining
      if isSubset s1 s2 && decide (i < j) then false else isContaining) false

/-- `ComparablePrincipalSets.reduce`: one pass of `Reduce`. -/
def reducePass (cps : List (List ComparablePrincipal)) : List (List ComparablePrincipal) :=
  (cps.zipIdx.filter fun (s1, i) => !isContaining cps s1 i).map Prod.fst

theorem reducePass_sublist (cps : List (List ComparablePrincipal)) :
    (reducePass cps).Sublist cps := by
  have hMap : (cps.zipIdx.map Prod.fst) = cps := by
    rw [← List.unzip_fst, List.unzip_zipIdx_eq_prod, Prod.fst]
  conv => rhs; rw [← hMap]
  exact List.filter_sublist.map Prod.fst

/-- `ComparablePrincipalSets.Reduce`: passes of `reduce` until one drops nothing. -/
def reduce (current : List (List ComparablePrincipal)) : List (List ComparablePrincipal) :=
  let reduced := reducePass current
  if current.length = reduced.length then reduced else reduce reduced
termination_by current.length
decreasing_by
  exact lt_of_le_of_ne (reducePass_sublist current).length_le (Ne.symm ‹_›)

/-- `Merge`, its two `OfMapping` loops visiting their mappings in the orders `order₁` and
`order₂`, which set the order of the merged sets and so which of two equal sets `Reduce`
keeps. -/
def merge (order₁ order₂ : GoMap.RangeOrder ℕ (List ℕ)) (s1 s2 : List (List ComparablePrincipal)) :
    List (List ComparablePrincipal) :=
  let setsIn1ToTheContainingSetsIn2 := computeContainedInMapping s1 s2
  let setsIn1ThatAreIn2 := ofMapping order₁ s1 setsIn1ToTheContainingSetsIn2 s2
  let s1 := excludeIndices s1 setsIn1ToTheContainingSetsIn2
  let setsIn2ToTheContainingSetsIn1 := computeContainedInMapping s2 s1
  let setsIn2ThatAreIn1 := ofMapping order₂ s2 setsIn2ToTheContainingSetsIn1 s1
  let s2 := excludeIndices s2 setsIn2ToTheContainingSetsIn1
  let res := toMergedPrincipalSets setsIn1ThatAreIn2 ++ toMergedPrincipalSets setsIn2ThatAreIn1
  let s1 := excludeIndices s1 (invert setsIn2ToTheContainingSetsIn1)
  let s2 := excludeIndices s2 (invert setsIn1ToTheContainingSetsIn2)
  if s1.length == 0 || s2.length == 0 then reduce res
  else reduce (res ++ toMergedPrincipalSets (cartesianProduct s1 s2))

/-- `ComparablePrincipalSets.ToPrincipalSets`. -/
def toPrincipalSets (cps : List (List ComparablePrincipal)) : List (List MSPPrincipal) :=
  cps.map toPrincipalSet

end FabricPeer.Policies.Inquire
