import FabricPeer.Graph.TreeSpec
import FabricPeer.Policies.SatisfiedBy

/-! # When `SatisfiedBy` returns, and how it fails

The tree of a policy has a vertex for each rule that occurs in it (`exists_occurs_of_reaches`,
`reaches_of_occurs`). So `SatisfiedBy` returns exactly when no `NOutOf` of the policy, at any
depth, has a negative `N` and a rule (`satisfiedBy_eq_none_iff`): `choose` then recurses without
end, and the Go process stops when its stack overflows. When it returns, it ends in a fault only
by indexing the identities with a negative `SignedBy` of the policy (`satisfiedBy_eq_error`): the
bound check before the index lets a negative index through.
-/

namespace FabricPeer.Policies

open FabricPeer.Graph GoRun

set_option autoImplicit false

/-- `Occurs q p`: `q` is the rule `p` or one of its rules, at any depth. -/
inductive Occurs (q : SignaturePolicy) : SignaturePolicy → Prop
  | here : Occurs q q
  | rule {n : Int} {rules : List SignaturePolicy} {rule : SignaturePolicy}
      (member : rule ∈ rules) (inside : Occurs q rule) : Occurs q (.nOutOf n rules)

section PolicyTree

theorem computeRuleTrees_eq_nil_iff (id : String) (i : Nat) (rules : List SignaturePolicy) :
    computeRuleTrees id i rules = [] ↔ rules = [] := by
  cases rules <;> simp [computeRuleTrees]

@[simp] theorem computePolicyTree_data (id : String) (p : SignaturePolicy) :
    (computePolicyTree id p).data = p := by
  cases p <;> rfl

theorem computePolicyTree_signedBy_descendants (id : String) (signedBy : Int) :
    (computePolicyTree id (.signedBy signedBy)).descendants = [] := rfl

theorem computePolicyTree_nOutOf (id : String) (n : Int) (rules : List SignaturePolicy) :
    computePolicyTree id (.nOutOf n rules) =
      ⟨id, .nOutOf n rules, computeRuleTrees id 0 rules, n⟩ := by
  simp [computePolicyTree]

theorem exists_of_mem_computeRuleTrees {id : String} {c : TreeVertex SignaturePolicy} :
    ∀ {i : Nat} {rules : List SignaturePolicy}, c ∈ computeRuleTrees id i rules →
      ∃ id' rule, rule ∈ rules ∧ c = computePolicyTree id' rule
  | _, [], h => nomatch h
  | _, rule :: _, h => by
    rcases List.mem_cons.1 h with rfl | h
    · exact ⟨_, rule, List.mem_cons_self, rfl⟩
    · obtain ⟨id', rule', hRule, rfl⟩ := exists_of_mem_computeRuleTrees h
      exact ⟨id', rule', List.mem_cons_of_mem _ hRule, rfl⟩

theorem exists_mem_computeRuleTrees (id : String) {rule : SignaturePolicy} :
    ∀ (i : Nat) {rules : List SignaturePolicy}, rule ∈ rules →
      ∃ id', computePolicyTree id' rule ∈ computeRuleTrees id i rules
  | _, [], h => nomatch h
  | i, _ :: _, h => by
    rcases List.mem_cons.1 h with rfl | h
    · exact ⟨_, List.mem_cons_self⟩
    · obtain ⟨id', hMem⟩ := exists_mem_computeRuleTrees id (i + 1) h
      exact ⟨id', List.mem_cons_of_mem _ hMem⟩

theorem exists_occurs_of_reaches {id : String} {p : SignaturePolicy}
    {x : TreeVertex SignaturePolicy} (h : (computePolicyTree id p).Reaches x) :
    ∃ id' q, Occurs q p ∧ x = computePolicyTree id' q := by
  have hPath : ∀ a, Relation.ReflTransGen
      (fun a b : TreeVertex SignaturePolicy => b ∈ a.descendants) a x →
      ∀ id p, a = computePolicyTree id p → ∃ id' q, Occurs q p ∧ x = computePolicyTree id' q := by
    intro a ha
    induction ha using Relation.ReflTransGen.head_induction_on with
    | refl =>
      rintro id p rfl
      exact ⟨id, p, .here, rfl⟩
    | head hac _ ih =>
      rintro id p rfl
      cases p with
      | signedBy signedBy => simp [computePolicyTree_signedBy_descendants] at hac
      | nOutOf n rules =>
        rw [computePolicyTree_nOutOf] at hac
        obtain ⟨id', rule, hRule, rfl⟩ := exists_of_mem_computeRuleTrees hac
        obtain ⟨id'', q, hq, rfl⟩ := ih id' rule rfl
        exact ⟨id'', q, .rule hRule hq, rfl⟩
  exact hPath _ h id p rfl

theorem reaches_of_occurs {q p : SignaturePolicy} (h : Occurs q p) (id : String) :
    ∃ id', (computePolicyTree id p).Reaches (computePolicyTree id' q) := by
  induction h generalizing id with
  | here => exact ⟨id, Relation.ReflTransGen.refl⟩
  | @rule n rules rule member _ ih =>
    obtain ⟨id', hMem⟩ := exists_mem_computeRuleTrees id 0 member
    obtain ⟨id'', hReach⟩ := ih id'
    refine ⟨id'', Relation.ReflTransGen.head ?_ hReach⟩
    rw [computePolicyTree_nOutOf]
    exact hMem

end PolicyTree

/-- `SatisfiedBy` does not return exactly when an `NOutOf` with a negative `N` and at least one
rule occurs in the policy: the identities and the random victims play no part. -/
theorem satisfiedBy_eq_none_iff (intn : String → Nat → Nat) (sigPol : SignaturePolicyEnvelope) :
    satisfiedBy intn sigPol = none ↔
      ∃ n rules, Occurs (.nOutOf n rules) sigPol.rule ∧ n < 0 ∧ rules ≠ [] := by
  have hSatisfied : satisfiedBy intn sigPol =
      ((computePolicyTree (toString 0) sigPol.rule).permute intn combinationsUpperBound).bind
        fun perms => some (principalSetsOf sigPol.identities perms []) := rfl
  have hNone : satisfiedBy intn sigPol = none ↔
      (computePolicyTree (toString 0) sigPol.rule).permute intn combinationsUpperBound = none := by
    rw [hSatisfied]
    cases (computePolicyTree (toString 0) sigPol.rule).permute intn combinationsUpperBound <;> simp
  rw [hNone, permute_eq_none_iff]
  constructor
  · rintro ⟨v, hv, hDescendants, hThreshold⟩
    obtain ⟨id', q, hq, rfl⟩ := exists_occurs_of_reaches hv
    cases q with
    | signedBy signedBy =>
      exact absurd (computePolicyTree_signedBy_descendants id' signedBy) hDescendants
    | nOutOf n rules =>
      rw [computePolicyTree_nOutOf] at hDescendants hThreshold
      exact ⟨n, rules, hq, hThreshold,
        (computeRuleTrees_eq_nil_iff id' 0 rules).not.1 hDescendants⟩
  · rintro ⟨n, rules, hOccurs, hn, hRules⟩
    obtain ⟨id', hReach⟩ := reaches_of_occurs hOccurs (toString 0)
    refine ⟨_, hReach, ?_, ?_⟩
    · rw [computePolicyTree_nOutOf]
      exact (computeRuleTrees_eq_nil_iff id' 0 rules).not.2 hRules
    · rw [computePolicyTree_nOutOf]
      exact hn

section Faults

variable {principals : List MSPPrincipal} {e : Fault}

theorem exists_negative_of_principalsOfLeaves_eq_error :
    ∀ {vs : List (TreeVertex SignaturePolicy)} {principalSet : List MSPPrincipal},
      principalsOfLeaves principals vs principalSet = .error e →
      ∃ v ∈ vs, ∃ signedBy, v.data = .signedBy signedBy ∧ signedBy < 0 ∧
        e = .indexOutOfRange signedBy principals.length
  | [], _, h => nomatch h
  | v :: vs, principalSet, h => by
    simp only [principalsOfLeaves] at h
    split_ifs at h with hLeaf
    · obtain ⟨w, hw, rest⟩ := exists_negative_of_principalsOfLeaves_eq_error h
      exact ⟨w, List.mem_cons_of_mem _ hw, rest⟩
    split at h
    · rename_i signedBy hData
      split_ifs at h with hBound
      · cases h
      cases hIndex : index principals signedBy with
      | error e' =>
        rw [hIndex, bind_error] at h
        cases h
        obtain ⟨rfl, hOut⟩ := index_eq_error hIndex
        refine ⟨v, List.mem_cons_self, signedBy, hData, ?_, rfl⟩
        omega
      | ok principal =>
        rw [hIndex, bind_ok] at h
        obtain ⟨w, hw, rest⟩ := exists_negative_of_principalsOfLeaves_eq_error h
        exact ⟨w, List.mem_cons_of_mem _ hw, rest⟩
    · cases h

theorem exists_of_principalSetsOf_eq_error :
    ∀ {perms : List (TreeVertex SignaturePolicy)} {res : List (List MSPPrincipal)},
      principalSetsOf principals perms res = .error e →
      ∃ perm ∈ perms, principalsOfTree perm principals = .error e
  | [], _, h => nomatch h
  | perm :: perms, res, h => by
    simp only [principalSetsOf] at h
    cases hTree : principalsOfTree perm principals with
    | error e' =>
      rw [hTree, bind_error] at h
      cases h
      exact ⟨perm, List.mem_cons_self, hTree⟩
    | ok principalSet =>
      rw [hTree, bind_ok] at h
      split_ifs at h
      · cases h
      obtain ⟨perm', hPerm', rest⟩ := exists_of_principalSetsOf_eq_error h
      exact ⟨perm', List.mem_cons_of_mem _ hPerm', rest⟩

end Faults

/-- `SatisfiedBy` ends in a fault only by indexing the identities with a negative `SignedBy`
that occurs in the policy. -/
theorem satisfiedBy_eq_error {intn : String → Nat → Nat} {sigPol : SignaturePolicyEnvelope}
    {e : Fault} (h : satisfiedBy intn sigPol = some (.error e)) :
    ∃ signedBy, Occurs (.signedBy signedBy) sigPol.rule ∧ signedBy < 0 ∧
      e = .indexOutOfRange signedBy sigPol.identities.length := by
  unfold satisfiedBy at h
  rw [Option.bind_eq_bind, Option.bind_eq_some_iff] at h
  obtain ⟨perms, hPermute, hSets⟩ := h
  obtain ⟨perm, hPerm, hTree⟩ := exists_of_principalSetsOf_eq_error (Option.some.inj hSets)
  obtain ⟨v, hv, signedBy, hData, hNeg, rfl⟩ := exists_negative_of_principalsOfLeaves_eq_error hTree
  obtain ⟨y, hy, -, hyData⟩ :=
    permute_drawnFrom intn combinationsUpperBound hPermute perm hPerm v ((mem_bfs perm v).1 hv)
  obtain ⟨id', q, hq, rfl⟩ := exists_occurs_of_reaches hy
  rw [computePolicyTree_data, hData] at hyData
  exact ⟨signedBy, hyData ▸ hq, hNeg, rfl⟩

def signedByNegative : SignaturePolicyEnvelope := ⟨0, .signedBy (-1), [⟨0, []⟩]⟩

theorem satisfiedBy_eq_error_signedByNegative :
    satisfiedBy (fun _ _ => 0) signedByNegative = some (.error (.indexOutOfRange (-1) 1)) ∧
      ∃ signedBy, Occurs (.signedBy signedBy) signedByNegative.rule ∧ signedBy < 0 ∧
        Fault.indexOutOfRange (-1) 1 = .indexOutOfRange signedBy signedByNegative.identities.length :=
  have hRun : satisfiedBy (fun _ _ => 0) signedByNegative =
      some (.error (.indexOutOfRange (-1) 1)) := by decide +kernel
  ⟨hRun, satisfiedBy_eq_error hRun⟩

end FabricPeer.Policies
