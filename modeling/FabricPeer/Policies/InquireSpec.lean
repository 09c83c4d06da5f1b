import FabricPeer.Policies.Inquire
import FabricPeer.Lib.ListOrder

/-! # What merging principal sets guarantees

A principal set `r` covers a principal set `x` when each principal of `x` is met by a principal
of `r` of its own that IsA it (`Covers IsA r x`): signatures of distinct identities satisfying
`r` then satisfy `x`, as far as IsA speaks for the MSP.

`Merge` is sound: every set it returns covers a set of each family merged
(`merge_sound`), and it returns some set when both families have one (`merge_ne_nil`).
`Reduce` returns sets of its input of which none contains another (`reduce_antichain`), and
every input set contains one of them (`exists_mem_reduce_isSubset`). The comparisons these
rest on behave as orders on the principals `NewComparablePrincipal` makes: IsA is reflexive
and transitive there (`Decoded.isA_self`, `Decoded.isA_trans`), and `Equal` is equality of
the decoded fields (`equal_eq_true_iff`).
-/

namespace FabricPeer.Policies.Inquire

open GoRun ListOrder

set_option autoImplicit false

/-- `IsA` as a relation. -/
def IsA (a b : ComparablePrincipal) : Prop := a.isA b = true

instance instDecidableIsA (a b : ComparablePrincipal) : Decidable (IsA a b) :=
  inferInstanceAs (Decidable (a.isA b = true))

section Principals

/-- The comparable principals that `NewComparablePrincipal` makes: a role, an OU role or an
identity, under the MSP of the decoded message. -/
inductive Decoded : ComparablePrincipal → Prop
  | role {principal : MSPPrincipal} (mspRole : MSPRole) :
      principal.principalClassification = principalClassificationRole →
      Decoded ⟨principal, none, some mspRole, mspRole.mspIdentifier, []⟩
  | ou {principal : MSPPrincipal} (ouRole : OrganizationUnit) :
      principal.principalClassification = principalClassificationOrganizationUnit →
      Decoded ⟨principal, some ouRole, none, ouRole.mspIdentifier, []⟩
  | identity {principal : MSPPrincipal} (sID : SerializedIdentity) :
      principal.principalClassification = principalClassificationIdentity →
      Decoded ⟨principal, none, none, sID.mspid, sID.idBytes⟩

theorem decoded_of_newComparablePrincipal {decoders : PrincipalDecoders}
    {principal : MSPPrincipal} {cp : ComparablePrincipal}
    (h : newComparablePrincipal decoders principal = some cp) : Decoded cp := by
  unfold newComparablePrincipal ComparablePrincipal.toRole ComparablePrincipal.toOURole
    ComparablePrincipal.toIdentity at h
  split_ifs at h with hRole hOU hIdentity <;> dsimp only at h <;> split at h <;> cases h
  · exact .role _ hRole
  · exact .ou _ hOU
  · exact .identity _ hIdentity

theorem principal_of_newComparablePrincipal {decoders : PrincipalDecoders}
    {principal : MSPPrincipal} {cp : ComparablePrincipal}
    (h : newComparablePrincipal decoders principal = some cp) : cp.principal = principal := by
  unfold newComparablePrincipal ComparablePrincipal.toRole ComparablePrincipal.toOURole
    ComparablePrincipal.toIdentity at h
  split_ifs at h <;> dsimp only at h <;> split at h <;> cases h <;> rfl

def Faithful (decoders : PrincipalDecoders) (cps : List ComparablePrincipal) : Prop :=
  ∀ cp ∈ cps, newComparablePrincipal decoders cp.principal = some cp

theorem newComparablePrincipalSet_of_isSome {decoders : PrincipalDecoders} {set : List MSPPrincipal}
    (h : ∀ p ∈ set, (newComparablePrincipal decoders p).isSome) :
    Faithful decoders (newComparablePrincipalSet decoders set) ∧
      toPrincipalSet (newComparablePrincipalSet decoders set) = set := by
  have hMapM : ∀ set : List MSPPrincipal, (∀ p ∈ set, (newComparablePrincipal decoders p).isSome) →
      ∃ cps, set.mapM (newComparablePrincipal decoders) = some cps ∧ Faithful decoders cps ∧
        toPrincipalSet cps = set := by
    intro set
    induction set with
    | nil => exact fun _ => ⟨[], rfl, (fun _ h => nomatch h), rfl⟩
    | cons p rest ih =>
      intro hAll
      obtain ⟨cp, hcp⟩ := Option.isSome_iff_exists.1 (hAll p List.mem_cons_self)
      obtain ⟨cps, hcps, hFaithful, hBack⟩ := ih fun q hq => hAll q (List.mem_cons_of_mem _ hq)
      refine ⟨cp :: cps, by simp [List.mapM_cons, hcp, hcps], ?_, ?_⟩
      · intro c hc
        rcases List.mem_cons.1 hc with rfl | hTail
        · rw [principal_of_newComparablePrincipal hcp, hcp]
        · exact hFaithful c hTail
      · simp only [toPrincipalSet, List.map_cons] at hBack ⊢
        rw [principal_of_newComparablePrincipal hcp, hBack]
  obtain ⟨cps, hcps, hFaithful, hBack⟩ := hMapM set h
  simp only [newComparablePrincipalSet, hcps, Option.getD_some]
  exact ⟨hFaithful, hBack⟩

theorem decoded_of_faithful {decoders : PrincipalDecoders} {cps : List ComparablePrincipal}
    (h : Faithful decoders cps) {cp : ComparablePrincipal} (hcp : cp ∈ cps) : Decoded cp :=
  decoded_of_newComparablePrincipal (h cp hcp)

theorem Decoded.isA_self {cp : ComparablePrincipal} (h : Decoded cp) : IsA cp cp := by
  cases h with
  | role mspRole _ => simp [IsA, ComparablePrincipal.isA]
  | ou ouRole _ => simp [IsA, ComparablePrincipal.isA]
  | identity sID hIdentity => simp [IsA, ComparablePrincipal.isA, hIdentity]

def IsMember (cp : ComparablePrincipal) : Prop := cp.role.any (·.role == mspRoleMember) = true

def Matches (a b : ComparablePrincipal) : Prop :=
  (∃ r r', a.role = some r ∧ b.role = some r' ∧ r.role = r'.role) ∨
    (∃ o o', a.ou = some o ∧ b.ou = some o' ∧
      o.organizationalUnitIdentifier = o'.organizationalUnitIdentifier ∧
      o.certifiersIdentifier = o'.certifiersIdentifier) ∨
    (a.role = none ∧ a.ou = none ∧ a.idBytes = b.idBytes)

theorem mspID_eq_of_isA {a b : ComparablePrincipal} (h : IsA a b) : a.mspID = b.mspID := by
  by_contra hNe
  simp [IsA, ComparablePrincipal.isA, hNe] at h

theorem isA_of_isMember {a b : ComparablePrincipal} (hMsp : a.mspID = b.mspID)
    (hMember : IsMember b) : IsA a b := by
  simp only [IsMember] at hMember
  simp [IsA, ComparablePrincipal.isA, hMsp, hMember]

theorem Decoded.ou_eq_none_of_role {cp : ComparablePrincipal} {r : MSPRole} (h : Decoded cp)
    (hRole : cp.role = some r) : cp.ou = none ∧ cp.idBytes = [] := by
  cases h <;> simp_all

theorem Decoded.role_eq_none_of_ou {cp : ComparablePrincipal} {o : OrganizationUnit}
    (h : Decoded cp) (hOU : cp.ou = some o) : cp.role = none ∧ cp.idBytes = [] := by
  cases h <;> simp_all

theorem Decoded.isA_iff_of_not_isMember {a b : ComparablePrincipal} (ha : Decoded a)
    (hb : Decoded b) (hMember : ¬IsMember b) : IsA a b ↔ a.mspID = b.mspID ∧ Matches a b := by
  simp only [IsMember] at hMember
  cases ha <;> cases hb <;>
    simp_all [IsA, ComparablePrincipal.isA, Matches, principalClassificationIdentity,
      principalClassificationRole, principalClassificationOrganizationUnit]

theorem Decoded.matches_trans {a b c : ComparablePrincipal} (hb : Decoded b) (hc : Decoded c)
    (hab : Matches a b) (hbc : Matches b c) : Matches a c := by
  rcases hab with ⟨r, r', har, hbr, hRole⟩ | ⟨o, o', hao, hbo, hId, hCert⟩ | ⟨haRole, haOU, hBytes⟩
  · rcases hbc with ⟨s, s', hbs, hcs, hRole'⟩ | ⟨p, _, hbp, _⟩ | ⟨hbRole, _⟩
    · cases hbr.symm.trans hbs
      exact .inl ⟨r, s', har, hcs, hRole.trans hRole'⟩
    · simp [(hb.ou_eq_none_of_role hbr).1] at hbp
    · simp [hbRole] at hbr
  · rcases hbc with ⟨s, _, hbs, _⟩ | ⟨p, p', hbp, hcp, hId', hCert'⟩ | ⟨_, hbOU, _⟩
    · simp [(hb.ou_eq_none_of_role hbs).1] at hbo
    · cases hbo.symm.trans hbp
      exact .inr (.inl ⟨o, p', hao, hcp, hId.trans hId', hCert.trans hCert'⟩)
    · simp [hbOU] at hbo
  · refine .inr (.inr ⟨haRole, haOU, hBytes.trans ?_⟩)
    rcases hbc with ⟨s, s', hbs, hcs, _⟩ | ⟨p, p', hbp, hcp, _⟩ | ⟨_, _, hbc⟩
    · rw [(hb.ou_eq_none_of_role hbs).2, (hc.ou_eq_none_of_role hcs).2]
    · rw [(hb.role_eq_none_of_ou hbp).2, (hc.role_eq_none_of_ou hcp).2]
    · exact hbc

theorem Decoded.isMember_of_isA {b c : ComparablePrincipal} (hb : Decoded b) (hc : Decoded c)
    (hbc : IsA b c) (hbMember : IsMember b) : IsMember c := by
  by_contra hcMember
  obtain ⟨r, hbr, hr⟩ : ∃ r, b.role = some r ∧ r.role = mspRoleMember := by
    unfold IsMember at hbMember
    cases hRole : b.role with
    | none => simp [hRole] at hbMember
    | some r => exact ⟨r, rfl, by simpa [hRole] using hbMember⟩
  rcases ((hb.isA_iff_of_not_isMember hc hcMember).1 hbc).2 with
    ⟨r₁, r₂, hb₁, hc₂, hRole⟩ | ⟨o, _, hbo, _⟩ | ⟨hbRole, _⟩
  · cases hbr.symm.trans hb₁
    exact hcMember (by simp [IsMember, hc₂, ← hRole, hr])
  · simp [(hb.role_eq_none_of_ou hbo).1] at hbr
  · simp [hbRole] at hbr

/-- IsA chains: a member role is met by anything of its MSP, which a member role only IsA, and
below it the compared fields are equal along the chain. -/
theorem Decoded.isA_trans {a b c : ComparablePrincipal} (ha : Decoded a) (hb : Decoded b)
    (hc : Decoded c) (hab : IsA a b) (hbc : IsA b c) : IsA a c := by
  have hMsp : a.mspID = c.mspID := (mspID_eq_of_isA hab).trans (mspID_eq_of_isA hbc)
  by_cases hcMember : IsMember c
  · exact isA_of_isMember hMsp hcMember
  have hbMember : ¬IsMember b := fun hbMember => hcMember (hb.isMember_of_isA hc hbc hbMember)
  obtain ⟨-, hMatches⟩ := (ha.isA_iff_of_not_isMember hb hbMember).1 hab
  obtain ⟨-, hMatches'⟩ := (hb.isA_iff_of_not_isMember hc hcMember).1 hbc
  exact (ha.isA_iff_of_not_isMember hc hcMember).2 ⟨hMsp, hb.matches_trans hc hMatches hMatches'⟩

def rolePrincipal (msp : String) (role : ℕ) : ComparablePrincipal :=
  ⟨⟨principalClassificationRole, role.toUInt8 :: msp.toList.map (·.toNat.toUInt8)⟩, none,
    some ⟨msp, role⟩, msp, []⟩

theorem decoded_rolePrincipal (msp : String) (role : ℕ) : Decoded (rolePrincipal msp role) :=
  .role ⟨msp, role⟩ rfl

theorem isA_trans_peer_peer_member : IsA (rolePrincipal "A" 3) (rolePrincipal "A" 0) :=
  (decoded_rolePrincipal "A" 3).isA_trans (decoded_rolePrincipal "A" 3)
    (decoded_rolePrincipal "A" 0) (by decide) (by decide)

theorem equalPrincipals_eq_true_iff {cp cp2 : ComparablePrincipal} :
    cp.equalPrincipals cp2 = true ↔ cp.principal = cp2.principal := by
  obtain ⟨⟨c, p⟩, _⟩ := cp
  obtain ⟨⟨c2, p2⟩, _⟩ := cp2
  simp [ComparablePrincipal.equalPrincipals]

theorem equalRoles_eq_true_iff {cp cp2 : ComparablePrincipal} :
    cp.equalRoles cp2 = true ↔ cp.role = cp2.role := by
  unfold ComparablePrincipal.equalRoles
  rcases cp.role with _ | ⟨_, _⟩ <;> rcases cp2.role with _ | ⟨_, _⟩ <;> simp

theorem equalOUs_eq_true_iff {cp cp2 : ComparablePrincipal} :
    cp.equalOUs cp2 = true ↔ cp.ou = cp2.ou := by
  unfold ComparablePrincipal.equalOUs
  rcases cp.ou with _ | ⟨_, _, _⟩ <;> rcases cp2.ou with _ | ⟨_, _, _⟩ <;> simp
  tauto

theorem equal_eq_true_iff {cp cp2 : ComparablePrincipal} :
    cp.equal cp2 = true ↔
      cp.mspID = cp2.mspID ∧ cp.principal = cp2.principal ∧ cp.role = cp2.role ∧ cp.ou = cp2.ou := by
  simp only [ComparablePrincipal.equal, Bool.and_eq_true, beq_iff_eq, equalPrincipals_eq_true_iff,
    equalRoles_eq_true_iff, equalOUs_eq_true_iff, and_assoc]

theorem isSubset_eq_true_iff {cps sets : List ComparablePrincipal} :
    isSubset cps sets = true ↔ ∀ p1 ∈ cps, ∃ p2 ∈ sets, p1.equal p2 = true := by
  simp [isSubset]

theorem isSubset_self (cps : List ComparablePrincipal) : isSubset cps cps = true :=
  isSubset_eq_true_iff.2 fun p1 hp1 => ⟨p1, hp1, equal_eq_true_iff.2 ⟨rfl, rfl, rfl, rfl⟩⟩

theorem isSubset_trans {a b c : List ComparablePrincipal} (hab : isSubset a b = true)
    (hbc : isSubset b c = true) : isSubset a c = true := by
  rw [isSubset_eq_true_iff] at *
  intro p1 hp1
  obtain ⟨p2, hp2, h12⟩ := hab p1 hp1
  obtain ⟨p3, hp3, h23⟩ := hbc p2 hp2
  rw [equal_eq_true_iff] at h12 h23
  exact ⟨p3, hp3, equal_eq_true_iff.2
    ⟨h12.1.trans h23.1, h12.2.1.trans h23.2.1, h12.2.2.1.trans h23.2.2.1,
      h12.2.2.2.trans h23.2.2.2⟩⟩

end Principals

section Plurality

def available (containing : List ComparablePrincipal) (used : List ℕ) :
    List ComparablePrincipal :=
  (containing.zipIdx.filter fun e => !used.contains e.2).map Prod.fst

theorem available_nil (containing : List ComparablePrincipal) :
    available containing [] = containing := by
  simp [available, List.zipIdx_map_fst]

theorem nodup_zipIdx {α : Type} (l : List α) : l.zipIdx.Nodup := by
  apply List.Nodup.of_map Prod.snd
  rw [List.zipIdx_map_snd]
  exact List.nodup_range' ..

theorem available_perm_cons {containing : List ComparablePrincipal} {used : List ℕ}
    {cov : ComparablePrincipal} {i : ℕ} (hMem : (cov, i) ∈ containing.zipIdx)
    (hUnused : used.contains i = false) :
    (available containing used).Perm (cov :: available containing (i :: used)) := by
  have hNodup : (containing.zipIdx.filter fun e => !used.contains e.2).Nodup :=
    (nodup_zipIdx containing).filter _
  have hMemF : (cov, i) ∈ containing.zipIdx.filter fun e => !used.contains e.2 :=
    List.mem_filter.2 ⟨hMem, by simpa using hUnused⟩
  have hErase : (containing.zipIdx.filter fun e => !used.contains e.2).erase (cov, i) =
      containing.zipIdx.filter fun e => !(i :: used).contains e.2 := by
    rw [hNodup.erase_eq_filter, List.filter_filter]
    apply List.filter_congr
    intro e he
    have hSame : e.2 = i → e = (cov, i) := by
      intro hIdx
      have h₁ := List.mem_zipIdx_iff_getElem?.1 he
      have h₂ := List.mk_mem_zipIdx_iff_getElem?.1 hMem
      rw [hIdx, h₂] at h₁
      exact Prod.ext (Option.some.inj h₁).symm hIdx
    by_cases hIdx : e.2 = i
    · simp [hSame hIdx]
    · have hNe : e ≠ (cov, i) := fun hEq => hIdx (by rw [hEq])
      simp [hNe, hIdx]
  have hPerm := (List.perm_cons_erase hMemF).map Prod.fst
  rw [hErase] at hPerm
  exact hPerm

theorem covers_available_principalsToAdd {containing : List ComparablePrincipal} :
    ∀ (contained : List ComparablePrincipal), (∀ p ∈ contained, IsA p p) →
      ∀ used, Covers IsA (available containing used ++ principalsToAdd containing used contained)
        contained
  | [], _, _ => covers_nil _
  | principal :: rest, hSelf, used => by
    have hRest := @covers_available_principalsToAdd containing rest
      (fun p hp => hSelf p (List.mem_cons_of_mem _ hp))
    rw [principalsToAdd]
    split
    · rename_i coveringPrincipal i hFind
      have hMem := List.mem_of_find?_eq_some hFind
      have hFound := List.find?_some hFind
      simp only [Bool.and_eq_true, Bool.not_eq_eq_eq_not, Bool.not_true] at hFound
      have hPerm := (available_perm_cons hMem hFound.1).append_right
        (principalsToAdd containing (i :: used) rest)
      have hIsA : IsA coveringPrincipal principal := hFound.2
      exact ((hRest (i :: used)).cons hIsA).subperm hPerm.symm.subperm
    · exact ((hRest used).cons (hSelf principal List.mem_cons_self)).subperm
        List.perm_middle.symm.subperm

theorem covers_mergeWithPlurality_contained (pair : ComparablePrincipalSetPair)
    (hSelf : ∀ p ∈ pair.contained, IsA p p) :
    Covers IsA pair.mergeWithPlurality pair.contained := by
  have hCovers := @covers_available_principalsToAdd pair.containing pair.contained hSelf []
  rwa [available_nil] at hCovers

theorem covers_mergeWithPlurality_containing (pair : ComparablePrincipalSetPair)
    (hSelf : ∀ p ∈ pair.containing, IsA p p) :
    Covers IsA pair.mergeWithPlurality pair.containing :=
  (covers_self hSelf).subperm (List.sublist_append_left _ _).subperm

theorem mem_mergeWithPlurality {pair : ComparablePrincipalSetPair} {p : ComparablePrincipal}
    (hp : p ∈ pair.mergeWithPlurality) : p ∈ pair.containing ∨ p ∈ pair.contained := by
  have hAdd : ∀ used (contained : List ComparablePrincipal),
      principalsToAdd pair.containing used contained ⊆ contained := by
    intro used contained
    induction contained generalizing used with
    | nil => exact List.nil_subset _
    | cons principal rest ih =>
      rw [principalsToAdd]
      split
      · exact fun p hp => List.mem_cons_of_mem _ (ih _ hp)
      · exact List.cons_subset_cons _ (ih used)
  rcases List.mem_append.1 hp with h | h
  · exact .inl h
  · exact .inr (hAdd [] pair.contained h)

end Plurality

section Mappings

def MappingInto (m : GoMap ℕ (List ℕ)) (n₁ n₂ : ℕ) : Prop :=
  ∀ i js, m.get? i = some js → i < n₁ ∧ js ≠ [] ∧ ∀ j ∈ js, j < n₂

theorem mappingInto_computeContainedInMapping (s1 s2 : List (List ComparablePrincipal)) :
    MappingInto (computeContainedInMapping s1 s2) s1.length s2.length := by
  unfold computeContainedInMapping
  apply List.foldlRecOn (motive := fun m => MappingInto m s1.length s2.length)
  · intro i js h
    simp at h
  · rintro m hm ⟨ps1, i⟩ hi
    have hiLt := List.snd_lt_of_mem_zipIdx hi
    apply List.foldlRecOn (motive := fun m => MappingInto m s1.length s2.length) _ _ hm
    rintro m' hm' ⟨ps2, j⟩ hj
    have hjLt := List.snd_lt_of_mem_zipIdx hj
    dsimp only
    split
    · exact hm'
    · intro k js hk
      rw [GoMap.get?_insert] at hk
      split_ifs at hk with hki
      · cases hk
        subst hki
        refine ⟨by simpa using hiLt, by simp, fun j' hj' => ?_⟩
        rcases List.mem_append.1 hj' with hOld | hNew
        · cases hOld' : m'.get? k with
          | none => simp [hOld'] at hOld
          | some js' =>
            rw [hOld', Option.getD_some] at hOld
            exact (hm' k js' hOld').2.2 j' hOld
        · simp only [List.mem_singleton] at hNew
          simpa [hNew] using hjLt
      · exact hm' k js hk

theorem mem_ofMapping {order : GoMap.RangeOrder ℕ (List ℕ)}
    {cps sets2 : List (List ComparablePrincipal)} {m : GoMap ℕ (List ℕ)}
    (hm : MappingInto m cps.length sets2.length) {pair : ComparablePrincipalSetPair}
    (h : pair ∈ ofMapping order cps m sets2) : pair.contained ∈ cps ∧ pair.containing ∈ sets2 := by
  simp only [ofMapping, List.mem_flatMap, List.mem_map] at h
  obtain ⟨⟨i, js⟩, he, j, hj, rfl⟩ := h
  obtain ⟨hi, -, hjs⟩ := hm i js (GoMap.get?_of_mem_entries _ ((order.perm _).subset he))
  have hj' := hjs j hj
  simp only [getElem!_pos cps i hi, getElem!_pos sets2 j hj']
  exact ⟨List.getElem_mem hi, List.getElem_mem hj'⟩

theorem ofMapping_ne_nil {order : GoMap.RangeOrder ℕ (List ℕ)}
    {cps sets2 : List (List ComparablePrincipal)} {m : GoMap ℕ (List ℕ)}
    (hm : MappingInto m cps.length sets2.length) (hEntries : m.entries ≠ []) :
    ofMapping order cps m sets2 ≠ [] := by
  obtain ⟨⟨i, js⟩, he⟩ := List.exists_mem_of_ne_nil _ hEntries
  obtain ⟨-, hjs, -⟩ := hm i js (GoMap.get?_of_mem_entries _ he)
  obtain ⟨j, hj⟩ := List.exists_mem_of_ne_nil _ hjs
  exact List.ne_nil_of_mem (List.mem_flatMap.2
    ⟨(i, js), (order.perm _).symm.subset he, List.mem_map.2 ⟨j, hj, rfl⟩⟩)

theorem excludeIndices_sublist {α : Type} (cps : List α) (m : GoMap ℕ (List ℕ)) :
    (excludeIndices cps m).Sublist cps := by
  conv => rhs; rw [← List.zipIdx_map_fst 0 cps]
  exact List.filter_sublist.map Prod.fst

theorem excludeIndices_of_entries_eq_nil {α : Type} (cps : List α) {m : GoMap ℕ (List ℕ)}
    (hEntries : m.entries = []) : excludeIndices cps m = cps := by
  have hNone : ∀ i, m.contains i = false := by
    intro i
    rw [GoMap.contains_eq_isSome, Option.isSome_eq_false_iff, Option.isNone_iff_eq_none]
    cases hGet : m.get? i with
    | none => rfl
    | some v =>
      have hMem := (GoMap.mem_entries m (i, v)).2 hGet
      simp [hEntries] at hMem
  simp [excludeIndices, hNone, List.zipIdx_map_fst]

theorem invert_of_entries_eq_nil {m : GoMap ℕ (List ℕ)} (hEntries : m.entries = []) :
    (invert m).entries = [] := by
  simp only [invert, hEntries, List.foldl_nil]
  rfl

theorem mem_cartesianProduct {s1 s2 : List (List ComparablePrincipal)}
    {pair : ComparablePrincipalSetPair} (h : pair ∈ cartesianProduct s1 s2) :
    pair.contained ∈ s1 ∧ pair.containing ∈ s2 := by
  simp only [cartesianProduct, List.mem_flatMap, List.mem_map] at h
  obtain ⟨x, hx, y, hy, rfl⟩ := h
  exact ⟨hx, hy⟩

theorem cartesianProduct_ne_nil {s1 s2 : List (List ComparablePrincipal)} (h1 : s1 ≠ [])
    (h2 : s2 ≠ []) : cartesianProduct s1 s2 ≠ [] := by
  obtain ⟨x, hx⟩ := List.exists_mem_of_ne_nil _ h1
  obtain ⟨y, hy⟩ := List.exists_mem_of_ne_nil _ h2
  exact List.ne_nil_of_mem (List.mem_flatMap.2 ⟨x, hx, List.mem_map.2 ⟨y, hy, rfl⟩⟩)

end Mappings

section Flag

variable {β : Type} (set reset : β → Bool)

def flagStep (acc : Bool) (b : β) : Bool :=
  if reset b then false else if set b then true else acc

theorem foldl_flagStep_of_forall_not_reset :
    ∀ {l : List β} {acc : Bool}, (∀ b ∈ l, reset b = false) →
      l.foldl (flagStep set reset) acc = (acc || l.any set)
  | [], acc, _ => by simp
  | b :: l, acc, h => by
    rw [List.foldl_cons, foldl_flagStep_of_forall_not_reset fun c hc => h c (List.mem_cons_of_mem _ hc)]
    cases hSet : set b <;> simp [flagStep, h b List.mem_cons_self, hSet]

theorem exists_reset_of_foldl_flagStep_eq_false {l : List β}
    (hFalse : l.foldl (flagStep set reset) false = false) (hSet : ∃ b ∈ l, set b = true) :
    ∃ b ∈ l, reset b = true := by
  by_contra hNone
  simp only [not_exists, not_and, Bool.not_eq_true] at hNone
  rw [foldl_flagStep_of_forall_not_reset set reset hNone] at hFalse
  obtain ⟨b, hb, hSetB⟩ := hSet
  simp [List.any_eq_true.2 ⟨b, hb, hSetB⟩] at hFalse

theorem foldl_flagStep_eq_false :
    ∀ {l : List β}, (∀ b ∈ l, set b = true → reset b = true) →
      l.foldl (flagStep set reset) false = false
  | [], _ => rfl
  | b :: l, h => by
    have hStep : flagStep set reset false b = false := by
      unfold flagStep
      cases hSet : set b
      · simp
      · simp [h b List.mem_cons_self hSet]
    rw [List.foldl_cons, hStep]
    exact foldl_flagStep_eq_false fun c hc => h c (List.mem_cons_of_mem _ hc)

end Flag

section Reduce

theorem isContaining_eq_foldl (cps : List (List ComparablePrincipal))
    (s1 : List ComparablePrincipal) (i : ℕ) :
    isContaining cps s1 i = cps.zipIdx.foldl
      (flagStep (fun e => decide (i ≠ e.2) && isSubset e.1 s1)
        (fun e => decide (i ≠ e.2) && isSubset s1 e.1 && decide (i < e.2))) false := by
  unfold isContaining
  congr 1
  funext acc e
  obtain ⟨s2, j⟩ := e
  by_cases hij : i = j
  · simp [flagStep, hij]
  · unfold flagStep
    cases isSubset s2 s1 <;> cases isSubset s1 s2 <;> by_cases hLt : i < j <;> simp [hij, hLt]

theorem mem_reducePass {cps : List (List ComparablePrincipal)} {i : ℕ} (hi : i < cps.length)
    (hKept : isContaining cps cps[i] i = false) : cps[i] ∈ reducePass cps := by
  refine List.mem_map.2 ⟨(cps[i], i), List.mem_filter.2 ⟨?_, by simp [hKept]⟩, rfl⟩
  exact List.mk_mem_zipIdx_iff_getElem?.2 (List.getElem?_eq_getElem hi)

theorem isContaining_eq_false_of_reducePass_eq {cps : List (List ComparablePrincipal)}
    (hFix : reducePass cps = cps) (i : ℕ) (hi : i < cps.length) :
    isContaining cps cps[i] i = false := by
  have hLen : (cps.zipIdx.filter fun e => !isContaining cps e.1 e.2).length =
      cps.zipIdx.length := by
    have := congrArg List.length hFix
    simpa [reducePass] using this
  have hAll := List.filter_eq_self.1 (List.filter_sublist.eq_of_length hLen)
  have hMem : (cps[i], i) ∈ cps.zipIdx :=
    List.mk_mem_zipIdx_iff_getElem?.2 (List.getElem?_eq_getElem hi)
  simpa using hAll _ hMem

theorem isSubset_eq_false_of_kept {cps : List (List ComparablePrincipal)}
    (hKept : ∀ k (hk : k < cps.length), isContaining cps cps[k] k = false) (k : ℕ)
    (hk : k < cps.length) (j : ℕ) (hj : j < cps.length) (hjk : j ≠ k) :
    isSubset cps[j] cps[k] = false := by
  by_contra hSub
  rw [Bool.not_eq_false] at hSub
  have hFlag := hKept k hk
  rw [isContaining_eq_foldl] at hFlag
  obtain ⟨⟨s3, m⟩, hm, hReset⟩ := exists_reset_of_foldl_flagStep_eq_false _ _ hFlag
    ⟨(cps[j], j), List.mk_mem_zipIdx_iff_getElem?.2 (List.getElem?_eq_getElem hj),
      by simp [Ne.symm hjk, hSub]⟩
  simp only [Bool.and_eq_true, decide_eq_true_eq] at hReset
  obtain ⟨⟨-, hkm⟩, hLt⟩ := hReset
  have hmLt : m < cps.length := by simpa using List.snd_lt_of_mem_zipIdx hm
  have hs3 : s3 = cps[m] := by
    have := List.mk_mem_zipIdx_iff_getElem?.1 hm
    rw [List.getElem?_eq_getElem hmLt] at this
    exact (Option.some.inj this).symm
  have hNot := isSubset_eq_false_of_kept hKept m hmLt k hk (Nat.ne_of_lt hLt)
  rw [← hs3, hkm] at hNot
  exact absurd hNot (by decide)
termination_by cps.length - k

theorem reduce_sublist (cps : List (List ComparablePrincipal)) : (reduce cps).Sublist cps := by
  fun_induction reduce cps with
  | case1 current _ _ => exact reducePass_sublist current
  | case2 current _ _ ih => exact ih.trans (reducePass_sublist current)

theorem reducePass_reduce (cps : List (List ComparablePrincipal)) :
    reducePass (reduce cps) = reduce cps := by
  fun_induction reduce cps with
  | case1 current _ hLen =>
    have hEq := (reducePass_sublist current).eq_of_length hLen.symm
    show reducePass (reducePass current) = reducePass current
    rw [hEq, hEq]
  | case2 current _ _ ih => exact ih

theorem reduce_antichain (cps : List (List ComparablePrincipal)) (i j : ℕ)
    (hi : i < (reduce cps).length) (hj : j < (reduce cps).length) (hij : i ≠ j) :
    isSubset (reduce cps)[j] (reduce cps)[i] = false :=
  isSubset_eq_false_of_kept (isContaining_eq_false_of_reducePass_eq (reducePass_reduce cps))
    i hi j hj (Ne.symm hij)

def nestedSets : List (List ComparablePrincipal) :=
  [[rolePrincipal "A" 0, rolePrincipal "B" 0], [rolePrincipal "A" 0], [rolePrincipal "C" 0]]

theorem reduce_antichain_nestedSets :
    ∃ (h0 : 0 < (reduce nestedSets).length) (h1 : 1 < (reduce nestedSets).length),
      isSubset ((reduce nestedSets).get ⟨1, h1⟩) ((reduce nestedSets).get ⟨0, h0⟩) = false :=
  ⟨by decide +kernel, by decide +kernel, reduce_antichain nestedSets 0 1 _ _ (by decide)⟩

theorem exists_mem_reducePass_isSubset {cps : List (List ComparablePrincipal)}
    {s : List ComparablePrincipal} (hs : s ∈ cps) :
    ∃ r ∈ reducePass cps, isSubset r s = true := by
  obtain ⟨⟨j, hj⟩, hjs, hMin⟩ := @exists_first_minimal_below _ (fun a b => isSubset a b = true)
    isSubset_self (fun _ _ _ => isSubset_trans) cps s hs
  refine ⟨cps[j], mem_reducePass hj ?_, hjs⟩
  rw [isContaining_eq_foldl]
  apply foldl_flagStep_eq_false
  rintro ⟨s2, k⟩ hk hSet
  simp only [Bool.and_eq_true, decide_eq_true_eq] at hSet ⊢
  have hkLt : k < cps.length := by simpa using List.snd_lt_of_mem_zipIdx hk
  have hs2 : s2 = cps[k] := by
    have := List.mk_mem_zipIdx_iff_getElem?.1 hk
    rw [List.getElem?_eq_getElem hkLt] at this
    exact (Option.some.inj this).symm
  subst hs2
  obtain ⟨hBack, hLe⟩ := hMin ⟨k, hkLt⟩ hSet.2
  exact ⟨⟨hSet.1, hBack⟩, lt_of_le_of_ne (Fin.le_def.1 hLe) hSet.1⟩

theorem exists_mem_reduce_isSubset {cps : List (List ComparablePrincipal)}
    {s : List ComparablePrincipal} (hs : s ∈ cps) :
    ∃ r ∈ reduce cps, isSubset r s = true := by
  fun_induction reduce cps generalizing s with
  | case1 => exact exists_mem_reducePass_isSubset hs
  | case2 =>
    rename_i ih
    obtain ⟨r, hr, hrs⟩ := exists_mem_reducePass_isSubset hs
    obtain ⟨r', hr', hr'r⟩ := ih hr
    exact ⟨r', hr', isSubset_trans hr'r hrs⟩

theorem exists_mem_reduce_isSubset_nestedSets :
    [rolePrincipal "A" 0, rolePrincipal "B" 0] ∈ nestedSets ∧
      ∃ r ∈ reduce nestedSets, isSubset r [rolePrincipal "A" 0, rolePrincipal "B" 0] = true :=
  ⟨by decide, exists_mem_reduce_isSubset (by decide)⟩

theorem reduce_ne_nil {cps : List (List ComparablePrincipal)} (h : cps ≠ []) :
    reduce cps ≠ [] := by
  obtain ⟨s, hs⟩ := List.exists_mem_of_ne_nil _ h
  obtain ⟨r, hr, -⟩ := exists_mem_reduce_isSubset hs
  exact List.ne_nil_of_mem hr

end Reduce

section Merge

variable {order₁ order₂ : GoMap.RangeOrder ℕ (List ℕ)}

theorem exists_pair_of_mem_merge {s1 s2 : List (List ComparablePrincipal)}
    {r : List ComparablePrincipal} (hr : r ∈ merge order₁ order₂ s1 s2) :
    ∃ pair : ComparablePrincipalSetPair, pair.mergeWithPlurality = r ∧
      ((pair.contained ∈ s1 ∧ pair.containing ∈ s2) ∨
        (pair.contained ∈ s2 ∧ pair.containing ∈ s1)) := by
  have hm12 := mappingInto_computeContainedInMapping s1 s2
  have hm21 := mappingInto_computeContainedInMapping s2
    (excludeIndices s1 (computeContainedInMapping s1 s2))
  have hSub1 := excludeIndices_sublist s1 (computeContainedInMapping s1 s2)
  have hSub2 := excludeIndices_sublist s2
    (computeContainedInMapping s2 (excludeIndices s1 (computeContainedInMapping s1 s2)))
  have hMapped : r ∈ toMergedPrincipalSets (ofMapping order₁ s1 (computeContainedInMapping s1 s2) s2) ++
      toMergedPrincipalSets (ofMapping order₂ s2 (computeContainedInMapping s2
        (excludeIndices s1 (computeContainedInMapping s1 s2)))
        (excludeIndices s1 (computeContainedInMapping s1 s2))) →
      ∃ pair : ComparablePrincipalSetPair, pair.mergeWithPlurality = r ∧
        ((pair.contained ∈ s1 ∧ pair.containing ∈ s2) ∨
          (pair.contained ∈ s2 ∧ pair.containing ∈ s1)) := by
    intro h
    simp only [toMergedPrincipalSets, List.mem_append, List.mem_map] at h
    rcases h with ⟨pair, hPair, rfl⟩ | ⟨pair, hPair, rfl⟩
    · exact ⟨pair, rfl, .inl (mem_ofMapping hm12 hPair)⟩
    · obtain ⟨h2, h1⟩ := mem_ofMapping hm21 hPair
      exact ⟨pair, rfl, .inr ⟨h2, hSub1.subset h1⟩⟩
  dsimp only [merge] at hr
  split at hr
  · exact hMapped ((reduce_sublist _).subset hr)
  · rcases List.mem_append.1 ((reduce_sublist _).subset hr) with h | h
    · exact hMapped h
    · simp only [toMergedPrincipalSets, List.mem_map] at h
      obtain ⟨pair, hPair, rfl⟩ := h
      obtain ⟨h1, h2⟩ := mem_cartesianProduct hPair
      exact ⟨pair, rfl, .inl ⟨(excludeIndices_sublist _ _).trans hSub1 |>.subset h1,
        (excludeIndices_sublist _ _).trans hSub2 |>.subset h2⟩⟩

def exampleFamilies : List (List ComparablePrincipal) × List (List ComparablePrincipal) :=
  ([[rolePrincipal "A" 0, rolePrincipal "B" 0, rolePrincipal "B" 0],
      [rolePrincipal "C" 3, rolePrincipal "D" 3]],
    [[rolePrincipal "A" 3, rolePrincipal "B" 3], [rolePrincipal "C" 0, rolePrincipal "D" 0]])

def examplePeersAndMember : List ComparablePrincipal :=
  [rolePrincipal "A" 3, rolePrincipal "B" 3, rolePrincipal "B" 0]

theorem mem_merge_exampleFamilies :
    examplePeersAndMember ∈
      merge .ofEntries .ofEntries exampleFamilies.1 exampleFamilies.2 := by
  decide +kernel

/-- `Merge` makes up no principal: each principal of its sets is one of a set merged. -/
theorem exists_mem_of_mem_merge {s1 s2 : List (List ComparablePrincipal)}
    {r : List ComparablePrincipal} (hr : r ∈ merge order₁ order₂ s1 s2) {p : ComparablePrincipal}
    (hp : p ∈ r) :
    (∃ x ∈ s1, p ∈ x) ∨ ∃ y ∈ s2, p ∈ y := by
  obtain ⟨pair, rfl, ⟨h1, h2⟩ | ⟨h2, h1⟩⟩ := exists_pair_of_mem_merge hr <;>
    rcases mem_mergeWithPlurality hp with h | h
  · exact .inr ⟨_, h2, h⟩
  · exact .inl ⟨_, h1, h⟩
  · exact .inl ⟨_, h1, h⟩
  · exact .inr ⟨_, h2, h⟩

theorem exists_mem_of_mem_merge_exampleFamilies :
    (∃ x ∈ exampleFamilies.1, rolePrincipal "B" 0 ∈ x) ∨
      ∃ y ∈ exampleFamilies.2, rolePrincipal "B" 0 ∈ y :=
  exists_mem_of_mem_merge mem_merge_exampleFamilies (by decide)

/-- `Merge` is sound: each set it returns covers a set of the first family and a set of the
second, when IsA is reflexive on their principals. -/
theorem merge_sound {s1 s2 : List (List ComparablePrincipal)}
    (hSelf1 : ∀ x ∈ s1, ∀ p ∈ x, IsA p p) (hSelf2 : ∀ y ∈ s2, ∀ p ∈ y, IsA p p)
    {r : List ComparablePrincipal} (hr : r ∈ merge order₁ order₂ s1 s2) :
    (∃ x ∈ s1, Covers IsA r x) ∧ ∃ y ∈ s2, Covers IsA r y := by
  obtain ⟨pair, rfl, ⟨h1, h2⟩ | ⟨h2, h1⟩⟩ := exists_pair_of_mem_merge hr
  · exact ⟨⟨_, h1, covers_mergeWithPlurality_contained pair (hSelf1 _ h1)⟩,
      ⟨_, h2, covers_mergeWithPlurality_containing pair (hSelf2 _ h2)⟩⟩
  · exact ⟨⟨_, h1, covers_mergeWithPlurality_containing pair (hSelf1 _ h1)⟩,
      ⟨_, h2, covers_mergeWithPlurality_contained pair (hSelf2 _ h2)⟩⟩

theorem merge_sound_exampleFamilies :
    (∃ x ∈ exampleFamilies.1, Covers IsA examplePeersAndMember x) ∧
      ∃ y ∈ exampleFamilies.2, Covers IsA examplePeersAndMember y :=
  merge_sound (by decide) (by decide) mem_merge_exampleFamilies

/-- `Merge` of two families that have a set each has a set. -/
theorem merge_ne_nil {s1 s2 : List (List ComparablePrincipal)} (h1 : s1 ≠ []) (h2 : s2 ≠ []) :
    merge order₁ order₂ s1 s2 ≠ [] := by
  have hm12 := mappingInto_computeContainedInMapping s1 s2
  have hm21 := mappingInto_computeContainedInMapping s2
    (excludeIndices s1 (computeContainedInMapping s1 s2))
  dsimp only [merge]
  split
  · rename_i hEmpty
    apply reduce_ne_nil
    by_cases hE12 : (computeContainedInMapping s1 s2).entries = []
    · by_cases hE21 : (computeContainedInMapping s2
          (excludeIndices s1 (computeContainedInMapping s1 s2))).entries = []
      · rw [excludeIndices_of_entries_eq_nil _ hE12] at hE21 hEmpty
        simp only [excludeIndices_of_entries_eq_nil _ hE21,
          excludeIndices_of_entries_eq_nil _ (invert_of_entries_eq_nil hE12),
          excludeIndices_of_entries_eq_nil _ (invert_of_entries_eq_nil hE21)] at hEmpty
        simp [List.length_eq_zero_iff, h1, h2] at hEmpty
      · intro hNil
        have := List.append_eq_nil_iff.1 hNil
        simp only [toMergedPrincipalSets, List.map_eq_nil_iff] at this
        exact ofMapping_ne_nil hm21 hE21 this.2
    · intro hNil
      have := List.append_eq_nil_iff.1 hNil
      simp only [toMergedPrincipalSets, List.map_eq_nil_iff] at this
      exact ofMapping_ne_nil hm12 hE12 this.1
  · rename_i hBoth
    apply reduce_ne_nil
    simp only [Bool.or_eq_true, beq_iff_eq, List.length_eq_zero_iff, not_or] at hBoth
    intro hNil
    have := (List.append_eq_nil_iff.1 hNil).2
    simp only [toMergedPrincipalSets, List.map_eq_nil_iff] at this
    exact cartesianProduct_ne_nil hBoth.1 hBoth.2 this

theorem merge_ne_nil_exampleFamilies :
    merge .ofEntries .ofEntries exampleFamilies.1 exampleFamilies.2 ≠ [] :=
  merge_ne_nil (by decide) (by decide)

end Merge

end FabricPeer.Policies.Inquire
