import FabricPeer.Policies.Cauthdsl
import FabricPeer.Lib.Fault
import FabricPeer.Lib.GoMap

/-! # Implicit meta policies and their conversion

`common/policies/implicitmeta.go` evaluates an implicit meta policy by evaluating each of its
sub-policies on all the identities and counting those satisfied. `convert.go` turns it into one
signature policy: an `NOutOf` of the threshold over the sub-policies' rules, their principals
merged, a principal met twice kept once and the `SignedBy` of later rules remapped to it.

The two do not agree. The converted rules are evaluated one after the other on one set of used
identities, so an identity can serve only one of them: two sub-policies satisfied by the same
identity count twice for the implicit meta policy and once for its conversion.
-/

namespace FabricPeer.Policies

open Threshold GoRun

set_option autoImplicit false

inductive Policy where
  | signature (policy : CauthdslPolicy)
  | implicitMeta (threshold : Int) (subPolicies : List Policy) (subPolicyName : String)

def principalClassificationString : Nat → String
  | 0 => "ROLE"
  | 1 => "ORGANIZATION_UNIT"
  | 2 => "IDENTITY"
  | 3 => "ANONYMITY"
  | 4 => "COMBINED"
  | n => toString n

def principalKey (id : MSPPrincipal) : List Char :=
  (principalClassificationString id.principalClassification).toList ++
    id.principal.map fun b => Char.ofNat b.toNat

mutual

def remap (idRemap : GoMap Int Int) : SignaturePolicy → Run SignaturePolicy
  | .nOutOf n rules => do
    let rules ← remapRules idRemap rules
    pure (.nOutOf n rules)
  | .signedBy signedBy =>
    match idRemap.get? signedBy with
    | some newID => pure (.signedBy newID)
    | none => .error (.panic "programming error")

def remapRules (idRemap : GoMap Int Int) : List SignaturePolicy → Run (List SignaturePolicy)
  | [] => pure []
  | rule :: rules => do
    let rule ← remap idRemap rule
    let rules ← remapRules idRemap rules
    pure (rule :: rules)

end

def remapIdentities : List MSPPrincipal → Nat → List MSPPrincipal × GoMap (List Char) Nat ×
    GoMap Int Int → List MSPPrincipal × GoMap (List Char) Nat × GoMap Int Int
  | [], _, acc => acc
  | id :: ids, i, (IDs, idMap, idRemap) =>
    match idMap.get? (principalKey id) with
    | some j => remapIdentities ids (i + 1) (IDs, idMap, idRemap.insert i j)
    | none => remapIdentities ids (i + 1)
        (IDs ++ [id], idMap.insert (principalKey id) IDs.length, idRemap.insert i IDs.length)

/-- `merge(this, that)`: `this` with the principals of `that` it lacks and the rule of `that`,
remapped, as one more rule of its `NOutOf`. -/
def merge (this that : SignaturePolicyEnvelope) : Run SignaturePolicyEnvelope := do
  let idMap := (this.identities.zipIdx.foldl fun idMap (id, i) => idMap.insert (principalKey id) i)
    GoMap.empty
  let (IDs, _, idRemap) := remapIdentities that.identities 0 (this.identities, idMap, GoMap.empty)
  let newEntry ← remap idRemap that.rule
  match this.rule with
  | .nOutOf n existingRules => pure ⟨this.version, .nOutOf n (existingRules ++ [newEntry]), IDs⟩
  | .signedBy _ => .error (.panic "interface conversion: the rule is not an NOutOf")

def withMessage {α : Type} (msg : String) : Run α → Run α
  | .error (.error err) => .error (.error (msg ++ ": " ++ err))
  | r => r

mutual

/-- `Convert` of a policy: a signature policy's own envelope, or the conversion of an implicit
meta policy. -/
def Policy.convert : Policy → Run SignaturePolicyEnvelope
  | .signature policy => pure policy.signaturePolicyEnvelope
  | .implicitMeta threshold subPolicies subPolicyName =>
    convertSubPolicies subPolicyName subPolicies 0 ⟨0, .nOutOf threshold [], []⟩

def convertSubPolicies (subPolicyName : String) :
    List Policy → Nat → SignaturePolicyEnvelope → Run SignaturePolicyEnvelope
  | [], _, converted => pure converted
  | subPolicy :: subPolicies, i, converted => do
    let spe ← withMessage ("failed to convert subpolicy number " ++ toString i ++ " of policy " ++
      subPolicyName) subPolicy.convert
    let converted ← merge converted spe
    convertSubPolicies subPolicyName subPolicies (i + 1) converted

end

section Evaluation

variable {ι : Type} (satisfiesPrincipal : ι → MSPPrincipal → Bool) (identities : List ι)

def implicitPolicyEvaluationFailed (satisfied threshold : Int) (subPolicyName : String) : String :=
  "implicit policy evaluation failed - " ++ toString satisfied ++
    " sub-policies were satisfied, but this policy requires " ++ toString threshold ++
    " of the \x27" ++ subPolicyName ++ "\x27 sub-policies to be satisfied"

mutual

def Policy.evaluateIdentities : Policy → Except String Unit
  | .signature policy => Policies.evaluateIdentities satisfiesPrincipal policy.evaluator identities
  | .implicitMeta threshold subPolicies subPolicyName =>
    match evaluateSubPolicies subPolicies threshold with
    | none => .ok ()
    | some remaining =>
      if remaining = 0 then .ok ()
      else .error (implicitPolicyEvaluationFailed (threshold - remaining) threshold subPolicyName)

def evaluateSubPolicies : List Policy → Int → Option Int
  | [], remaining => some remaining
  | policy :: policies, remaining =>
    match policy.evaluateIdentities with
    | .ok () => if remaining - 1 = 0 then none else evaluateSubPolicies policies (remaining - 1)
    | .error _ => evaluateSubPolicies policies remaining

end

end Evaluation

/-! ## The conversion counts a shared identity once -/

/-- The policy `NewPolicy` builds from the envelope `SignedBy(0)` over one principal. -/
def signedByPolicy (principal : MSPPrincipal) : CauthdslPolicy :=
  ⟨⟨0, .signedBy 0, [principal]⟩, .leaf principal, rfl⟩

section Shared

variable {ι : Type} (satisfiesPrincipal : ι → MSPPrincipal → Bool)

theorem convert_signedByPolicy_twice (principal : MSPPrincipal) (subPolicyName : String) :
    (Policy.implicitMeta 2 [.signature (signedByPolicy principal),
      .signature (signedByPolicy principal)] subPolicyName).convert =
        .ok ⟨0, .nOutOf 2 [.signedBy 0, .signedBy 0], [principal]⟩ := by
  simp [Policy.convert, convertSubPolicies, withMessage, signedByPolicy, merge, remapIdentities,
    remap, GoMap.get?_insert_self, bind, Except.bind, pure, Except.pure]

/-- An implicit meta policy asking for both of two sub-policies of one principal, and an identity
of that principal: the implicit meta policy accepts the identity, which satisfies each
sub-policy, and the signature policy it converts to rejects it, since its first rule takes the
identity and leaves none for the second. -/
theorem convert_rejects_identity_shared_by_subPolicies (principal : MSPPrincipal)
    (subPolicyName : String) (x : ι) (hx : satisfiesPrincipal x principal = true) :
    (Policy.implicitMeta 2 [.signature (signedByPolicy principal),
      .signature (signedByPolicy principal)] subPolicyName).evaluateIdentities
        satisfiesPrincipal [x] = .ok () ∧
    ∃ converted policy,
      (Policy.implicitMeta 2 [.signature (signedByPolicy principal),
        .signature (signedByPolicy principal)] subPolicyName).convert = .ok converted ∧
      newPolicy converted = .ok policy ∧
      Policies.evaluateIdentities satisfiesPrincipal policy.evaluator [x] =
        .error "signature set did not satisfy policy" := by
  refine ⟨?implicit, _, ⟨_, .gate 2 [.leaf principal, .leaf principal], rfl⟩,
    convert_signedByPolicy_twice principal subPolicyName, rfl, ?converted⟩
  case implicit =>
    simp [Policy.evaluateIdentities, evaluateSubPolicies, signedByPolicy,
      Policies.evaluateIdentities, evaluate, firstUnused, hx]
  case converted =>
    simp [Policies.evaluateIdentities, evaluate, evaluateRules, firstUnused, hx]

theorem convert_rejects_member_of_both_orgs :
    (Policy.implicitMeta 2 [.signature (signedByPolicy ⟨0, [1]⟩),
      .signature (signedByPolicy ⟨0, [1]⟩)] "Writers").evaluateIdentities
        (fun (_ : Unit) (_ : MSPPrincipal) => true) [()] = .ok () ∧
    ∃ converted policy,
      (Policy.implicitMeta 2 [.signature (signedByPolicy ⟨0, [1]⟩),
        .signature (signedByPolicy ⟨0, [1]⟩)] "Writers").convert = .ok converted ∧
      newPolicy converted = .ok policy ∧
      Policies.evaluateIdentities (fun (_ : Unit) (_ : MSPPrincipal) => true) policy.evaluator [()] =
        .error "signature set did not satisfy policy" :=
  convert_rejects_identity_shared_by_subPolicies (fun (_ : Unit) (_ : MSPPrincipal) => true)
    ⟨0, [1]⟩ "Writers" () rfl

end Shared

end FabricPeer.Policies
