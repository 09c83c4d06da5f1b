import FabricPeer.Discovery.EndorsementSpec
import FabricPeer.Policies.InquireSpec
import FabricPeer.Policies.SatisfiedBy

/-! # The principal sets of discovery cover every policy inquired

`computePrincipalSets` merges the principal sets of each policy of a chaincode interest into one
family. Whatever the merge, provided it merges two families of comparable principals into sets
that each cover a set of both, for a covering relation that is a preorder on the comparable
principals (`MergeCovers`), every set of the family covers a set satisfying each policy
inquired: the chaincode's unless it is disregarded, the collections', and the key-level
policies (`computePrincipalSets_covers`).

The merge of `common/policies/inquire` is such a merge when principals are compared by IsA
through `NewComparablePrincipal` (`mergeCovers_inquireInquiry`). Discovery with it therefore
reports only principal sets that cover, principal by principal, a satisfying set of every
policy of the interest (`computePrincipalSets_inquireInquiry_covers`).
-/

namespace FabricPeer.Discovery

open GoRun ListOrder

set_option autoImplicit false

section Contract

variable {P Pol : Type} (inquiry : PolicyInquiry P Pol) (R : P → P → Prop)

def AllComparable (sets : List (List P)) : Prop :=
  ∀ x ∈ sets, ∀ p ∈ x, inquiry.isComparable p = true

structure MergeCovers : Prop where
  refl : ∀ a, inquiry.isComparable a = true → R a a
  trans : ∀ a b c, inquiry.isComparable a = true → inquiry.isComparable b = true →
    inquiry.isComparable c = true → R a b → R b c → R a c
  comparable : ∀ s1 s2, AllComparable inquiry s1 → AllComparable inquiry s2 →
    AllComparable inquiry (inquiry.merge s1 s2)
  covers : ∀ s1 s2, AllComparable inquiry s1 → AllComparable inquiry s2 →
    ∀ r ∈ inquiry.merge s1 s2, (∃ x ∈ s1, Covers R r x) ∧ ∃ y ∈ s2, Covers R r y
  ne_nil : ∀ s1 s2, s1 ≠ [] → s2 ≠ [] → inquiry.merge s1 s2 ≠ []

variable {inquiry R}

theorem MergeCovers.covers_trans (hMerge : MergeCovers inquiry R) {r y x : List P}
    (hr : ∀ p ∈ r, inquiry.isComparable p = true) (hy : ∀ p ∈ y, inquiry.isComparable p = true)
    (hx : ∀ p ∈ x, inquiry.isComparable p = true) (hry : Covers R r y) (hyx : Covers R y x) :
    Covers R r x :=
  hry.trans (fun a ha b hb c hc => hMerge.trans a b c (hr a ha) (hy b hb) (hx c hc)) hyx

theorem foldl_merge_covers (hMerge : MergeCovers inquiry R) :
    ∀ (cpss : List (List (List P))) (acc : List (List P)), AllComparable inquiry acc →
      (∀ cps ∈ cpss, AllComparable inquiry cps) →
      AllComparable inquiry (cpss.foldl inquiry.merge acc) ∧
        ∀ r ∈ cpss.foldl inquiry.merge acc, ∀ cps ∈ acc :: cpss, ∃ x ∈ cps, Covers R r x
  | [], acc, hAcc, _ =>
    ⟨hAcc, fun r hr cps hcps => by
      rw [List.mem_singleton.1 hcps]
      exact ⟨r, hr, covers_self fun a ha => hMerge.refl a (hAcc r hr a ha)⟩⟩
  | cps :: rest, acc, hAcc, hAll => by
    have hCps := hAll cps List.mem_cons_self
    have hMerged := hMerge.comparable acc cps hAcc hCps
    obtain ⟨hComparable, hCovers⟩ := foldl_merge_covers hMerge rest (inquiry.merge acc cps) hMerged
      fun c hc => hAll c (List.mem_cons_of_mem _ hc)
    refine ⟨hComparable, fun r hr target hTarget => ?_⟩
    obtain ⟨m, hm, hrm⟩ := hCovers r hr _ List.mem_cons_self
    obtain ⟨⟨a, ha, hma⟩, ⟨y, hy, hmy⟩⟩ := hMerge.covers acc cps hAcc hCps m hm
    rcases List.mem_cons.1 hTarget with rfl | hTarget
    · exact ⟨a, ha, hMerge.covers_trans (hComparable r hr) (hMerged m hm) (hAcc a ha) hrm hma⟩
    rcases List.mem_cons.1 hTarget with rfl | hTarget
    · exact ⟨y, hy, hMerge.covers_trans (hComparable r hr) (hMerged m hm) (hCps y hy) hrm hmy⟩
    · exact hCovers r hr target (List.mem_cons_of_mem _ hTarget)

theorem foldl_merge_ne_nil (hMerge : MergeCovers inquiry R) :
    ∀ (cpss : List (List (List P))) (acc : List (List P)), acc ≠ [] → (∀ cps ∈ cpss, cps ≠ []) →
      cpss.foldl inquiry.merge acc ≠ []
  | [], _, hAcc, _ => hAcc
  | cps :: rest, acc, hAcc, hAll =>
    foldl_merge_ne_nil hMerge rest _ (hMerge.ne_nil acc cps hAcc (hAll cps List.mem_cons_self))
      fun c hc => hAll c (List.mem_cons_of_mem _ hc)

theorem mergePrincipalSets_covers (hMerge : MergeCovers inquiry R)
    {cpss : List (List (List P))} {res : List (List P)}
    (h : mergePrincipalSets inquiry cpss = .ok res) (hAll : ∀ cps ∈ cpss, AllComparable inquiry cps)
    (hNe : ∀ cps ∈ cpss, cps ≠ []) :
    res ≠ [] ∧ AllComparable inquiry res ∧ ∀ r ∈ res, ∀ cps ∈ cpss, ∃ x ∈ cps, Covers R r x := by
  cases cpss with
  | nil => cases h
  | cons cps rest =>
    cases h
    obtain ⟨hComparable, hCovers⟩ := foldl_merge_covers hMerge rest cps
      (hAll cps List.mem_cons_self) fun c hc => hAll c (List.mem_cons_of_mem _ hc)
    exact ⟨foldl_merge_ne_nil hMerge rest cps (hNe cps List.mem_cons_self)
      (fun c hc => hNe c (List.mem_cons_of_mem _ hc)), hComparable, hCovers⟩

end Contract

section Policies

variable {P Pol : Type} {inquiry : PolicyInquiry P Pol} {R : P → P → Prop}

theorem comparablePrincipalSets_spec {failed unsatisfiable : String} {policy : Pol}
    {cps : List (List P)} (h : comparablePrincipalSets inquiry failed unsatisfiable policy = .ok cps) :
    cps ≠ [] ∧ AllComparable inquiry cps ∧ ∀ s ∈ cps, s ∈ inquiry.satisfiedBy policy := by
  unfold comparablePrincipalSets at h
  obtain ⟨cmpsets, hMap, hRest⟩ := (bind_eq_ok _ _ _).1 h
  split at hRest
  · cases hRest
  · rename_i hNonempty
    cases hRest
    have hEach : ∀ s ∈ cps, s ∈ inquiry.satisfiedBy policy ∧
        ∀ p ∈ s, inquiry.isComparable p = true := by
      intro s hs
      obtain ⟨ps, hps, hConv⟩ := exists_of_mem_mapM hMap hs
      split at hConv
      · rename_i cps' hNew
        cases hConv
        unfold newComparablePrincipalSet at hNew
        split at hNew
        · rename_i hAll
          cases hNew
          simp only [Bool.and_eq_true, List.all_eq_true] at hAll
          exact ⟨hps, hAll.1⟩
        · cases hNew
      · cases hConv
    exact ⟨by simpa using hNonempty, fun s hs => (hEach s hs).2, fun s hs => (hEach s hs).1⟩

theorem computeStateBasedPrincipalSets_covers (hMerge : MergeCovers inquiry R)
    {chaincodes : List (ChaincodeCall Pol)} {sb : List (List P)}
    (h : computeStateBasedPrincipalSets inquiry chaincodes = .ok sb) :
    AllComparable inquiry sb ∧ ∀ policy ∈ chaincodes.flatMap (·.keyPolicies), sb ≠ [] ∧
      ∀ r ∈ sb, ∃ x ∈ inquiry.satisfiedBy policy, (∀ p ∈ x, inquiry.isComparable p = true) ∧
        Covers R r x := by
  unfold computeStateBasedPrincipalSets at h
  obtain ⟨stateBasedCPS, hMap, hRest⟩ := (bind_eq_ok _ _ _).1 h
  have hSpec : ∀ cps ∈ stateBasedCPS, cps ≠ [] ∧ AllComparable inquiry cps := by
    intro cps hcps
    obtain ⟨_, _, hcps'⟩ := exists_of_mem_mapM hMap hcps
    exact ⟨(comparablePrincipalSets_spec hcps').1, (comparablePrincipalSets_spec hcps').2.1⟩
  split at hRest
  · rename_i hEmpty
    cases hRest
    refine ⟨(fun x hx => nomatch hx), fun policy hPolicy => ?_⟩
    obtain ⟨b, hb, -⟩ := exists_mem_mapM_of_mem hMap hPolicy
    simp only [List.isEmpty_iff] at hEmpty
    simp [hEmpty] at hb
  · obtain ⟨hNe, hComparable, hCovers⟩ := mergePrincipalSets_covers hMerge hRest
      (fun cps hcps => (hSpec cps hcps).2) fun cps hcps => (hSpec cps hcps).1
    refine ⟨hComparable, fun policy hPolicy => ⟨hNe, fun r hr => ?_⟩⟩
    obtain ⟨cps, hcps, hcps'⟩ := exists_mem_mapM_of_mem hMap hPolicy
    obtain ⟨x, hx, hrx⟩ := hCovers r hr cps hcps
    have hSpecP := comparablePrincipalSets_spec hcps'
    exact ⟨x, hSpecP.2.2 x hx, hSpecP.2.1 x hx, hrx⟩

theorem computePrincipalSets_covers (hMerge : MergeCovers inquiry R)
    {chaincodes : List (ChaincodeCall Pol)} {sets : List (List P)}
    (h : computePrincipalSets inquiry chaincodes = .ok sets) :
    sets ≠ [] ∧ ∀ r ∈ sets,
      (∀ chaincode ∈ chaincodes, ∀ policies, policiesOfCall inquiry chaincode = .ok policies →
        ∀ policy ∈ policies, ∃ x ∈ inquiry.satisfiedBy policy, Covers R r x) ∧
      (∀ chaincode ∈ chaincodes, ∀ policy ∈ chaincode.keyPolicies,
        ∃ x ∈ inquiry.satisfiedBy policy, Covers R r x) := by
  unfold computePrincipalSets at h
  obtain ⟨policies, hPolicies, h⟩ := (bind_eq_ok _ _ _).1 h
  obtain ⟨cpss, hCpss, h⟩ := (bind_eq_ok _ _ _).1 h
  obtain ⟨sb, hSb, h⟩ := (bind_eq_ok _ _ _).1 h
  obtain ⟨hSbComparable, hSbCovers⟩ := computeStateBasedPrincipalSets_covers hMerge hSb
  have hSpec : ∀ cps ∈ cpss, cps ≠ [] ∧ AllComparable inquiry cps := by
    intro cps hcps
    obtain ⟨_, _, hcps'⟩ := exists_of_mem_mapM hCpss hcps
    exact ⟨(comparablePrincipalSets_spec hcps').1, (comparablePrincipalSets_spec hcps').2.1⟩
  set families := if sb.isEmpty then cpss else cpss ++ [sb] with hFamilies
  have hSub : cpss ⊆ families := by
    rw [hFamilies]
    split
    · exact List.Subset.refl _
    · exact List.subset_append_left _ _
  have hFamily : ∀ cps ∈ families, cps ≠ [] ∧ AllComparable inquiry cps := by
    intro cps hcps
    rw [hFamilies] at hcps
    split at hcps
    · exact hSpec cps hcps
    · rename_i hNonempty
      rcases List.mem_append.1 hcps with hcps | hcps
      · exact hSpec cps hcps
      · rw [List.mem_singleton.1 hcps]
        exact ⟨by simpa using hNonempty, hSbComparable⟩
  obtain ⟨hNe, hComparable, hCovers⟩ := mergePrincipalSets_covers hMerge h
    (fun cps hcps => (hFamily cps hcps).2) fun cps hcps => (hFamily cps hcps).1
  refine ⟨hNe, fun r hr => ⟨?_, ?_⟩⟩
  · intro chaincode hChaincode pols hPols policy hPolicy
    obtain ⟨pols', hPols', hCall⟩ := exists_mem_mapM_of_mem hPolicies hChaincode
    rw [hPols] at hCall
    cases hCall
    obtain ⟨cps, hcps, hcps'⟩ := exists_mem_mapM_of_mem hCpss
      (List.mem_flatten.2 ⟨pols, hPols', hPolicy⟩)
    obtain ⟨x, hx, hrx⟩ := hCovers r hr cps (hSub hcps)
    exact ⟨x, (comparablePrincipalSets_spec hcps').2.2 x hx, hrx⟩
  · intro chaincode hChaincode policy hPolicy
    have hKey : policy ∈ chaincodes.flatMap (·.keyPolicies) :=
      List.mem_flatMap.2 ⟨chaincode, hChaincode, hPolicy⟩
    obtain ⟨hSbNe, hSbSets⟩ := hSbCovers policy hKey
    have hSbMem : sb ∈ families := by
      rw [hFamilies, if_neg (by simpa using hSbNe)]
      exact List.mem_append_right _ (List.mem_singleton_self sb)
    obtain ⟨s, hs, hrs⟩ := hCovers r hr sb hSbMem
    obtain ⟨x, hx, hxComparable, hsx⟩ := hSbSets s hs
    exact ⟨x, hx, hMerge.covers_trans (hComparable r hr) (hSbComparable s hs) hxComparable hrs hsx⟩

end Policies

section Inquire

open Policies Policies.Inquire

variable {Pol : Type} (decoders : PrincipalDecoders) (order₁ order₂ : GoMap.RangeOrder ℕ (List ℕ))

/-- The inquiry of discovery with `common/policies/inquire`: a principal is comparable when
`NewComparablePrincipal` converts it, and two families merge by `Merge` on their comparable
principals, read back by `ToPrincipalSets`; the two orders are those of the `range` loops of
`OfMapping` in every call of `Merge`. -/
def inquireInquiry (policiesByChaincode : String → List String → List Pol)
    (satisfiedBy : Pol → List (List MSPPrincipal)) : PolicyInquiry MSPPrincipal Pol where
  policiesByChaincode := policiesByChaincode
  satisfiedBy := satisfiedBy
  isComparable principal := (newComparablePrincipal decoders principal).isSome
  merge s1 s2 := toPrincipalSets (Inquire.merge order₁ order₂ (s1.map (Inquire.newComparablePrincipalSet decoders))
    (s2.map (Inquire.newComparablePrincipalSet decoders)))

/-- IsA between two principals, through their comparable principals. -/
def PrincipalIsA (p q : MSPPrincipal) : Prop :=
  ∃ cp cq, newComparablePrincipal decoders p = some cp ∧
    newComparablePrincipal decoders q = some cq ∧ IsA cp cq

variable {decoders order₁ order₂}

theorem faithful_of_allComparable {policiesByChaincode : String → List String → List Pol}
    {satisfiedBy : Pol → List (List MSPPrincipal)} {s : List (List MSPPrincipal)}
    (hs : AllComparable (inquireInquiry decoders order₁ order₂ policiesByChaincode satisfiedBy) s) :
    ∀ x' ∈ s.map (Inquire.newComparablePrincipalSet decoders),
      Faithful decoders x' ∧ ∃ x ∈ s, toPrincipalSet x' = x := by
  intro x' hx'
  obtain ⟨x, hx, rfl⟩ := List.mem_map.1 hx'
  obtain ⟨hFaithful, hBack⟩ := newComparablePrincipalSet_of_isSome (hs x hx)
  exact ⟨hFaithful, x, hx, hBack⟩

theorem faithful_of_mem_merge {S1 S2 : List (List ComparablePrincipal)}
    (h1 : ∀ x ∈ S1, Faithful decoders x) (h2 : ∀ y ∈ S2, Faithful decoders y)
    {r : List ComparablePrincipal} (hr : r ∈ Inquire.merge order₁ order₂ S1 S2) : Faithful decoders r := by
  intro cp hcp
  rcases exists_mem_of_mem_merge hr hcp with ⟨x, hx, hcpx⟩ | ⟨y, hy, hcpy⟩
  · exact h1 x hx cp hcpx
  · exact h2 y hy cp hcpy

theorem mergeCovers_inquireInquiry (policiesByChaincode : String → List String → List Pol)
    (satisfiedBy : Pol → List (List MSPPrincipal)) :
    MergeCovers (inquireInquiry decoders order₁ order₂ policiesByChaincode satisfiedBy) (PrincipalIsA decoders) where
  refl a ha := by
    obtain ⟨ca, hca⟩ := Option.isSome_iff_exists.1 ha
    exact ⟨ca, ca, hca, hca, (decoded_of_newComparablePrincipal hca).isA_self⟩
  trans a b c _ _ _ hab hbc := by
    obtain ⟨ca, cb, hca, hcb, hIsA⟩ := hab
    obtain ⟨cb', cc, hcb', hcc, hIsA'⟩ := hbc
    rw [hcb, Option.some.injEq] at hcb'
    subst hcb'
    exact ⟨ca, cc, hca, hcc, (decoded_of_newComparablePrincipal hca).isA_trans
      (decoded_of_newComparablePrincipal hcb) (decoded_of_newComparablePrincipal hcc) hIsA hIsA'⟩
  comparable s1 s2 h1 h2 := by
    intro r hr p hp
    obtain ⟨r', hr', rfl⟩ := List.mem_map.1 hr
    obtain ⟨cp, hcp, rfl⟩ := List.mem_map.1 hp
    have hFaithful := faithful_of_mem_merge (fun x hx => (faithful_of_allComparable h1 x hx).1)
      (fun y hy => (faithful_of_allComparable h2 y hy).1) hr' cp hcp
    change (newComparablePrincipal decoders cp.principal).isSome = true
    rw [hFaithful]
    rfl
  covers s1 s2 h1 h2 := by
    intro r hr
    obtain ⟨r', hr', rfl⟩ := List.mem_map.1 hr
    have hF1 := faithful_of_allComparable h1
    have hF2 := faithful_of_allComparable h2
    have hFaithful := faithful_of_mem_merge (fun x hx => (hF1 x hx).1) (fun y hy => (hF2 y hy).1) hr'
    have hSound := merge_sound (fun x hx p hp => (decoded_of_faithful (hF1 x hx).1 hp).isA_self)
      (fun y hy p hp => (decoded_of_faithful (hF2 y hy).1 hp).isA_self) hr'
    have hBack : ∀ {S : List (List MSPPrincipal)} (x' : List ComparablePrincipal),
        Faithful decoders x' → (∃ x ∈ S, toPrincipalSet x' = x) → Covers IsA r' x' →
        ∃ x ∈ S, Covers (PrincipalIsA decoders) (toPrincipalSet r') x := by
      rintro S x' hx' ⟨x, hx, rfl⟩ hCovers
      refine ⟨_, hx, hCovers.map_of_mem _ _ fun a ha b hb hab => ?_⟩
      exact ⟨a, b, hFaithful a ha, hx' b hb, hab⟩
    obtain ⟨⟨x', hx', hrx⟩, ⟨y', hy', hry⟩⟩ := hSound
    exact ⟨hBack x' (hF1 x' hx').1 (hF1 x' hx').2 hrx, hBack y' (hF2 y' hy').1 (hF2 y' hy').2 hry⟩
  ne_nil s1 s2 h1 h2 := by
    have hMerged := @merge_ne_nil order₁ order₂ (s1.map (Inquire.newComparablePrincipalSet decoders))
      (s2.map (Inquire.newComparablePrincipalSet decoders)) (by simpa using h1) (by simpa using h2)
    simpa [inquireInquiry, toPrincipalSets] using hMerged

/-- Discovery with the merge of `common/policies/inquire`: every principal set it reports
covers, each principal of the policy's set met by a distinct principal of its own that IsA
it, a satisfying set of each policy of the interest; and it reports one at least. -/
theorem computePrincipalSets_inquireInquiry_covers
    {policiesByChaincode : String → List String → List Pol}
    {satisfiedBy : Pol → List (List MSPPrincipal)} {chaincodes : List (ChaincodeCall Pol)}
    {sets : List (List MSPPrincipal)}
    (h : computePrincipalSets (inquireInquiry decoders order₁ order₂ policiesByChaincode satisfiedBy) chaincodes =
      .ok sets) :
    sets ≠ [] ∧ ∀ r ∈ sets,
      (∀ chaincode ∈ chaincodes, ∀ policies,
        policiesOfCall (inquireInquiry decoders order₁ order₂ policiesByChaincode satisfiedBy) chaincode =
          .ok policies →
        ∀ policy ∈ policies, ∃ x ∈ satisfiedBy policy, Covers (PrincipalIsA decoders) r x) ∧
      (∀ chaincode ∈ chaincodes, ∀ policy ∈ chaincode.keyPolicies,
        ∃ x ∈ satisfiedBy policy, Covers (PrincipalIsA decoders) r x) :=
  computePrincipalSets_covers (mergeCovers_inquireInquiry policiesByChaincode satisfiedBy) h

/-- Decoders of role principals whose bytes are the role and the name of the MSP. -/
def roleDecoders : PrincipalDecoders where
  unmarshalMSPRole
    | role :: msp => .ok ⟨String.ofList (msp.map fun b => Char.ofNat b.toNat), role.toNat⟩
    | [] => .error "unexpected EOF"
  unmarshalOrganizationUnit _ := .error "not an organizational unit"
  unmarshalSerializedIdentity _ := .error "not an identity"

def twoPolicies : List (List (List MSPPrincipal)) :=
  [[[(rolePrincipal "A" 0).principal, (rolePrincipal "B" 0).principal]],
    [[(rolePrincipal "A" 3).principal]]]

theorem computePrincipalSets_inquireInquiry_twoPolicies :
    computePrincipalSets (inquireInquiry roleDecoders .ofEntries .ofEntries (fun _ _ => twoPolicies) id)
        [⟨"mycc", ["collection"], false, []⟩] =
      .ok [[(rolePrincipal "A" 3).principal, (rolePrincipal "B" 0).principal]] ∧
    [[(rolePrincipal "A" 3).principal, (rolePrincipal "B" 0).principal]] ≠ [] :=
  have h : computePrincipalSets (inquireInquiry roleDecoders .ofEntries .ofEntries (fun _ _ => twoPolicies) id)
      [⟨"mycc", ["collection"], false, []⟩] =
        .ok [[(rolePrincipal "A" 3).principal, (rolePrincipal "B" 0).principal]] := by
    decide +kernel
  ⟨h, (computePrincipalSets_inquireInquiry_covers h).1⟩

/-! ## Layouts that do not get the policy satisfied -/

def adminOfA : MSPPrincipal := (rolePrincipal "A" 1).principal

def memberOfA : MSPPrincipal := (rolePrincipal "A" 0).principal

/-- `AND(OR(A.admin, A.member), A.admin)`. -/
def adminOrMemberAndAdmin : SignaturePolicyEnvelope :=
  ⟨0, .nOutOf 2 [.nOutOf 1 [.signedBy 0, .signedBy 1], .signedBy 0], [adminOfA, memberOfA]⟩

/-- An identity of `A`: an admin (`true`), which also satisfies the member principal, or a
member. -/
def roleSatisfies (isAdmin : Bool) (principal : MSPPrincipal) : Bool :=
  principal == memberOfA || (isAdmin && principal == adminOfA)

def adminMemberDescriptor : EndorsementDescriptor MSPPrincipal Bool :=
  ⟨"mycc", [[(adminOfA, 1), (memberOfA, 1)]], [(adminOfA, [true]), (memberOfA, [true, false])]⟩

/-- Two interests for which discovery returns a layout that the endorsements it asks for cannot
satisfy. For a policy of a member and a peer of Org1 and one peer of Org1, the layout asks for
two endorsers and lists that peer for both. For `AND(OR(A.admin, A.member), A.admin)`, an admin
and a member of `A` fill the layout of the principal set `[A.admin, A.member]`, and the
evaluator rejects their two signatures in either order: the `OR` gate, satisfied by its first
rule, goes on with its second and takes the other signature, which the last `A.admin` then
lacks. -/
theorem computeEndorsementResponse_returns_unfillable_and_rejected_layouts :
    (computePrincipalSets examplePolicyInquiry [exampleChaincodeCall] =
        .ok exampleDiscoveryContext.principalsSets ∧
      computeEndorsementResponse exampleDiscoveryContext = .ok exampleDescriptor ∧
      ∃ layout ∈ exampleDescriptor.layouts,
        ¬ Allocation.Realizable (layoutGroups layout) (layoutQuota layout)
          (endorsersOf exampleDescriptor)) ∧
    (satisfiedBy (fun _ _ => 0) adminOrMemberAndAdmin =
        some (.ok [[adminOfA, adminOfA], [adminOfA, memberOfA]]) ∧
      computePrincipalSets (inquireInquiry roleDecoders .ofEntries .ofEntries
          (fun _ _ => [[[adminOfA, adminOfA], [adminOfA, memberOfA]]]) id)
          [⟨"mycc", [], false, []⟩] =
        .ok [[adminOfA, adminOfA], [adminOfA, memberOfA]] ∧
      computeEndorsementResponse ⟨"mycc", [[adminOfA, adminOfA], [adminOfA, memberOfA]],
        [true, false], roleSatisfies, fun _ => true⟩ = .ok adminMemberDescriptor ∧
      Allocation.Realizable (layoutGroups [(adminOfA, 1), (memberOfA, 1)])
        (layoutQuota [(adminOfA, 1), (memberOfA, 1)]) (endorsersOf adminMemberDescriptor) ∧
      compile adminOrMemberAndAdmin.identities adminOrMemberAndAdmin.rule =
        .ok (.gate 2 [.gate 1 [.leaf adminOfA, .leaf memberOfA], .leaf adminOfA]) ∧
      evaluateIdentities roleSatisfies
          (.gate 2 [.gate 1 [.leaf adminOfA, .leaf memberOfA], .leaf adminOfA]) [true, false] =
        .error "signature set did not satisfy policy" ∧
      evaluateIdentities roleSatisfies
          (.gate 2 [.gate 1 [.leaf adminOfA, .leaf memberOfA], .leaf adminOfA]) [false, true] =
        .error "signature set did not satisfy policy") := by
  refine ⟨⟨computePrincipalSets_single examplePolicyInquiry rfl rfl rfl (by decide) (by decide),
    rfl, _, List.mem_singleton_self _, ?_⟩, by decide +kernel, by decide +kernel, by decide,
    ?_, rfl, by decide, by decide⟩
  · intro hRealizable
    have hHall := Allocation.hallCondition_of_realizable hRealizable _ Finset.Subset.rfl
    revert hHall
    decide
  · refine Allocation.realizable_iff_hallCondition.2 ?_
    unfold Allocation.HallCondition
    decide

end Inquire

end FabricPeer.Discovery
