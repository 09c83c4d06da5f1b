import FabricPeer.Configtx.Compute
import FabricPeer.Configtx.ConfigMapSpec
import FabricPeer.Configtx.UpdateSpec

/-! # What `Compute` computes

Each loop of `update.go` is a filter over one map (`computeMembersMapUpdate_eq`,
`sortGroups_eq`, `addGroups_eq`). From these, `Compute` finds no difference exactly when the
updated group is the original one with versions aside: the same `mod_policy`, the same members
with the same contents and `mod_policy`, at every depth (`computeGroupUpdate_eq_false_iff`). The
read set it computes names elements of the original config at their versions
(`ReadOf`), so a validator of the original config accepts it (`compute_verifyReadSet`).
-/

namespace FabricPeer.Configtx

open GoRun

set_option autoImplicit false

section Members

variable {α : Type} (unchanged : α → α → Bool) (stub : α → α) (modified : α → α → α)
  (added : α → α)

def modifiedMembers (original updated : List (String × α)) : List (String × α) :=
  original.filterMap fun e => (updated.lookup e.1).bind fun member =>
    if unchanged e.2 member then none else some (e.1, modified e.2 member)

def sameMembers (original updated : List (String × α)) : List (String × α) :=
  original.filterMap fun e => (updated.lookup e.1).bind fun member =>
    if unchanged e.2 member then some (e.1, stub e.2) else none

def addedMembers (original updated : List (String × α)) : List (String × α) :=
  updated.filterMap fun e => if (original.lookup e.1).isSome then none else some (e.1, added e.2)

def membersChanged (original updated : List (String × α)) : Bool :=
  original.any (fun e => (updated.lookup e.1).isNone) ||
    updated.any (fun e => (original.lookup e.1).isNone)

theorem foldl_sort_members (original updated : List (String × α)) :
    ∀ acc : MapUpdate α, original.foldl (fun acc (name, originalMember) =>
      match updated.lookup name with
      | none => { acc with updatedMembers := true }
      | some updatedMember =>
        if unchanged originalMember updatedMember then
          { acc with sameSet := acc.sameSet ++ [(name, stub originalMember)] }
        else
          { acc with writeSet := acc.writeSet ++ [(name, modified originalMember updatedMember)] })
      acc =
    ⟨acc.readSet, acc.writeSet ++ modifiedMembers unchanged modified original updated,
      acc.sameSet ++ sameMembers unchanged stub original updated,
      acc.updatedMembers || original.any (fun e => (updated.lookup e.1).isNone)⟩ := by
  induction original with
  | nil => intro acc; simp [modifiedMembers, sameMembers]
  | cons e original ih =>
    intro acc
    obtain ⟨name, originalMember⟩ := e
    rw [List.foldl_cons]
    cases hLookup : updated.lookup name with
    | none => simp [ih, hLookup, modifiedMembers, sameMembers]
    | some updatedMember =>
      by_cases hSame : unchanged originalMember updatedMember = true
      · simp [ih, hLookup, hSame, modifiedMembers, sameMembers]
      · simp [ih, hLookup, hSame, modifiedMembers, sameMembers]

theorem foldl_add_members (original updated : List (String × α)) :
    ∀ acc : MapUpdate α, updated.foldl (fun acc (name, updatedMember) =>
      if (original.lookup name).isSome then acc
      else
        { acc with updatedMembers := true,
                   writeSet := acc.writeSet ++ [(name, added updatedMember)] }) acc =
    ⟨acc.readSet, acc.writeSet ++ addedMembers added original updated, acc.sameSet,
      acc.updatedMembers || updated.any (fun e => (original.lookup e.1).isNone)⟩ := by
  induction updated with
  | nil => intro acc; simp [addedMembers]
  | cons e updated ih =>
    intro acc
    obtain ⟨name, updatedMember⟩ := e
    rw [List.foldl_cons]
    cases hOld : original.lookup name with
    | none => simp [ih, hOld, addedMembers]
    | some originalMember => simp [ih, hOld, addedMembers]

theorem computeMembersMapUpdate_eq (original updated : List (String × α)) :
    computeMembersMapUpdate unchanged stub modified added original updated =
      ⟨[], modifiedMembers unchanged modified original updated ++
          addedMembers added original updated,
        sameMembers unchanged stub original updated, membersChanged original updated⟩ := by
  rw [computeMembersMapUpdate]
  erw [foldl_sort_members, foldl_add_members]
  simp [membersChanged]

theorem mem_sameMembers {original updated : List (String × α)} {e : String × α}
    (h : e ∈ sameMembers unchanged stub original updated) :
    ∃ originalMember, (e.1, originalMember) ∈ original ∧ e.2 = stub originalMember := by
  simp only [sameMembers, List.mem_filterMap, Option.bind_eq_some_iff] at h
  obtain ⟨⟨name, originalMember⟩, hMem, updatedMember, -, hStub⟩ := h
  split at hStub
  · cases hStub
    exact ⟨originalMember, hMem, rfl⟩
  · cases hStub

def MembersSameAs (R : α → α → Prop) (original updated : List (String × α)) : Prop :=
  (∀ e ∈ original, ∃ member, updated.lookup e.1 = some member ∧ R e.2 member) ∧
    ∀ e ∈ updated, (original.lookup e.1).isSome

theorem membersChanged_eq_false_iff (original updated : List (String × α)) :
    membersChanged original updated = false ↔
      (∀ e ∈ original, (updated.lookup e.1).isSome) ∧
        ∀ e ∈ updated, (original.lookup e.1).isSome := by
  simp [membersChanged, Option.isSome_iff_ne_none]

theorem modifiedMembers_eq_nil_iff (original updated : List (String × α)) :
    modifiedMembers unchanged modified original updated = [] ↔
      ∀ e ∈ original, ∀ member, updated.lookup e.1 = some member → unchanged e.2 member = true := by
  simp only [modifiedMembers, List.filterMap_eq_nil_iff, Option.bind_eq_none_iff,
    ite_eq_left_iff, reduceCtorEq, imp_false, Bool.not_eq_true, Bool.not_eq_false]

theorem addedMembers_eq_nil {original updated : List (String × α)}
    (h : membersChanged original updated = false) : addedMembers added original updated = [] := by
  rw [membersChanged_eq_false_iff] at h
  simp only [addedMembers, List.filterMap_eq_nil_iff]
  intro e he
  simp [h.2 e he]

theorem membersSameAs_iff {R : α → α → Prop} (hR : ∀ a b, unchanged a b = true ↔ R a b)
    (original updated : List (String × α)) :
    MembersSameAs R original updated ↔
      membersChanged original updated = false ∧
        modifiedMembers unchanged modified original updated = [] := by
  rw [membersChanged_eq_false_iff, modifiedMembers_eq_nil_iff, MembersSameAs]
  constructor
  · rintro ⟨hOriginal, hUpdated⟩
    refine ⟨⟨fun e he => ?_, hUpdated⟩, fun e he member hMember => ?_⟩
    · obtain ⟨member, hMember, -⟩ := hOriginal e he
      simp [hMember]
    · obtain ⟨member', hMember', hSame⟩ := hOriginal e he
      rw [hMember'] at hMember
      cases hMember
      exact (hR _ _).2 hSame
  · rintro ⟨⟨hFound, hUpdated⟩, hSame⟩
    refine ⟨fun e he => ?_, hUpdated⟩
    obtain ⟨member, hMember⟩ := Option.isSome_iff_exists.1 (hFound e he)
    exact ⟨member, hMember, (hR _ _).1 (hSame e he member hMember)⟩

theorem membersSameAs_iff_update {R : α → α → Prop} (hR : ∀ a b, unchanged a b = true ↔ R a b)
    (original updated : List (String × α)) :
    MembersSameAs R original updated ↔
      (computeMembersMapUpdate unchanged stub modified added original updated).updatedMembers =
          false ∧
        (computeMembersMapUpdate unchanged stub modified added original updated).writeSet = [] := by
  rw [computeMembersMapUpdate_eq, membersSameAs_iff unchanged modified hR]
  constructor
  · rintro ⟨hChanged, hModified⟩
    simp [hChanged, hModified, addedMembers_eq_nil added hChanged]
  · rintro ⟨hChanged, hWrites⟩
    exact ⟨hChanged, (List.append_eq_nil_iff.1 hWrites).1⟩

end Members

section Groups

def groupUnchanged (original updated : ConfigGroup) : Bool :=
  !(computeGroupUpdate original updated).2.2

def groupStub (original : ConfigGroup) : ConfigGroup := ⟨original.version, [], [], [], ""⟩

theorem computeGroupUpdate_fst_of_groupUnchanged {original updated : ConfigGroup}
    (h : groupUnchanged original updated = true) :
    (computeGroupUpdate original updated).1 = groupStub original := by
  rw [groupUnchanged, computeGroupUpdate] at h
  rw [computeGroupUpdate, groupStub]
  split_ifs at h ⊢ <;> simp_all

theorem sortGroups_eq (updated : List (String × ConfigGroup)) :
    ∀ (originals : List (String × ConfigGroup)) (acc : MapUpdate ConfigGroup),
      sortGroups updated originals acc =
        ⟨acc.readSet ++ modifiedMembers groupUnchanged (fun o u => (computeGroupUpdate o u).1)
            originals updated,
          acc.writeSet ++ modifiedMembers groupUnchanged
            (fun o u => (computeGroupUpdate o u).2.1) originals updated,
          acc.sameSet ++ sameMembers groupUnchanged groupStub originals updated,
          acc.updatedMembers || originals.any (fun e => (updated.lookup e.1).isNone)⟩
  | [], acc => by simp [sortGroups, modifiedMembers, sameMembers]
  | (groupName, originalGroup) :: originals, acc => by
    rw [sortGroups]
    split
    · rename_i hLookup
      simp [sortGroups_eq updated originals, hLookup, modifiedMembers, sameMembers]
    · rename_i updatedGroup hLookup
      cases hFlag : (computeGroupUpdate originalGroup updatedGroup).2.2 with
      | false =>
        have hStub : (computeGroupUpdate originalGroup updatedGroup).1 = groupStub originalGroup :=
          computeGroupUpdate_fst_of_groupUnchanged (by simp [groupUnchanged, hFlag])
        simp [sortGroups_eq updated originals, modifiedMembers, sameMembers, hLookup, hFlag, hStub,
          groupUnchanged]
      | true =>
        simp [sortGroups_eq updated originals, modifiedMembers, sameMembers, hLookup, hFlag,
          groupUnchanged]

def addedGroup (updated : ConfigGroup) : ConfigGroup :=
  let groupWriteSet := (computeGroupUpdate newConfigGroup updated).2.1
  ⟨0, groupWriteSet.groups, groupWriteSet.values, groupWriteSet.policies, updated.modPolicy⟩

theorem addGroups_eq (original : List (String × ConfigGroup)) :
    ∀ (updateds : List (String × ConfigGroup)) (acc : MapUpdate ConfigGroup),
      addGroups original updateds acc =
        ⟨acc.readSet, acc.writeSet ++ addedMembers addedGroup original updateds, acc.sameSet,
          acc.updatedMembers || updateds.any (fun e => (original.lookup e.1).isNone)⟩
  | [], acc => by simp [addGroups, addedMembers]
  | (groupName, updatedGroup) :: updateds, acc => by
    rw [addGroups]
    cases hOld : original.lookup groupName with
    | none => simp [addGroups_eq original updateds, hOld, addedMembers, addedGroup]
    | some originalGroup => simp [addGroups_eq original updateds, hOld, addedMembers]

theorem computeGroupsMapUpdate_eq (original updated : List (String × ConfigGroup)) :
    computeGroupsMapUpdate original updated =
      ⟨modifiedMembers groupUnchanged (fun o u => (computeGroupUpdate o u).1) original updated,
        modifiedMembers groupUnchanged (fun o u => (computeGroupUpdate o u).2.1) original updated ++
          addedMembers addedGroup original updated,
        sameMembers groupUnchanged groupStub original updated,
        membersChanged original updated⟩ := by
  rw [computeGroupsMapUpdate, sortGroups_eq, addGroups_eq]
  simp [membersChanged]

theorem groupUnchanged_iff_maps (original updated : ConfigGroup) :
    groupUnchanged original updated = true ↔
      original.modPolicy = updated.modPolicy ∧
        (computeValuesMapUpdate original.values updated.values).updatedMembers = false ∧
        (computeValuesMapUpdate original.values updated.values).writeSet = [] ∧
        (computePoliciesMapUpdate original.policies updated.policies).updatedMembers = false ∧
        (computePoliciesMapUpdate original.policies updated.policies).writeSet = [] ∧
        (computeGroupsMapUpdate original.groups updated.groups).updatedMembers = false ∧
        (computeGroupsMapUpdate original.groups updated.groups).readSet = [] ∧
        (computeGroupsMapUpdate original.groups updated.groups).writeSet = [] := by
  have hPolicies : (computePoliciesMapUpdate original.policies updated.policies).readSet = [] := by
    simp [computePoliciesMapUpdate, computeMembersMapUpdate_eq]
  have hValues : (computeValuesMapUpdate original.values updated.values).readSet = [] := by
    simp [computeValuesMapUpdate, computeMembersMapUpdate_eq]
  rw [groupUnchanged, computeGroupUpdate]
  split_ifs with hSame hEmpty
  · simp only [Bool.not_or, Bool.and_eq_true, Bool.not_eq_true', bne_eq_false_iff_eq] at hSame
    simp only [List.length_eq_zero_iff] at hEmpty
    simp [hSame, hEmpty]
  · simp only [Bool.not_or, Bool.and_eq_true, Bool.not_eq_true', bne_eq_false_iff_eq] at hSame
    simp only [List.length_eq_zero_iff, hPolicies, hValues, true_and] at hEmpty
    simp only [Bool.not_true, Bool.false_eq_true, false_iff]
    tauto
  · simp only [Bool.not_or, Bool.and_eq_true, Bool.not_eq_true', bne_eq_false_iff_eq] at hSame
    simp only [Bool.not_true, Bool.false_eq_true, false_iff]
    tauto

end Groups

section SameAs

def ConfigValue.SameAs (original updated : ConfigValue) : Prop :=
  original.modPolicy = updated.modPolicy ∧ original.value = updated.value

def ConfigPolicy.SameAs (original updated : ConfigPolicy) : Prop :=
  original.modPolicy = updated.modPolicy ∧ original.policy = updated.policy

mutual

def ConfigGroup.SameAs : ConfigGroup → ConfigGroup → Prop
  | ⟨_, groups, values, policies, modPolicy⟩, updated =>
    modPolicy = updated.modPolicy ∧ MembersSameAs ConfigValue.SameAs values updated.values ∧
      MembersSameAs ConfigPolicy.SameAs policies updated.policies ∧
      groupsSameAs groups updated.groups ∧ ∀ e ∈ updated.groups, (groups.lookup e.1).isSome

def groupsSameAs : List (String × ConfigGroup) → List (String × ConfigGroup) → Prop
  | [], _ => True
  | (name, group) :: groups, updated =>
    (∃ member, updated.lookup name = some member ∧ group.SameAs member) ∧
      groupsSameAs groups updated

end

theorem membersSameAs_values (original updated : List (String × ConfigValue)) :
    MembersSameAs ConfigValue.SameAs original updated ↔
      (computeValuesMapUpdate original updated).updatedMembers = false ∧
        (computeValuesMapUpdate original updated).writeSet = [] :=
  membersSameAs_iff_update _ _ _ _ (fun a b => by simp [ConfigValue.SameAs]) original updated

theorem membersSameAs_policies (original updated : List (String × ConfigPolicy)) :
    MembersSameAs ConfigPolicy.SameAs original updated ↔
      (computePoliciesMapUpdate original updated).updatedMembers = false ∧
        (computePoliciesMapUpdate original updated).writeSet = [] :=
  membersSameAs_iff_update _ _ _ _ (fun a b => by simp [ConfigPolicy.SameAs]) original updated

theorem membersSameAs_groups (original updated : List (String × ConfigGroup)) :
    MembersSameAs (fun o u => groupUnchanged o u = true) original updated ↔
      (computeGroupsMapUpdate original updated).updatedMembers = false ∧
        (computeGroupsMapUpdate original updated).readSet = [] ∧
        (computeGroupsMapUpdate original updated).writeSet = [] := by
  rw [computeGroupsMapUpdate_eq,
    membersSameAs_iff groupUnchanged (fun o u => (computeGroupUpdate o u).1) (fun _ _ => Iff.rfl)]
  have hWrites : modifiedMembers groupUnchanged (fun o u => (computeGroupUpdate o u).2.1) original
      updated = [] ↔ modifiedMembers groupUnchanged (fun o u => (computeGroupUpdate o u).1)
      original updated = [] := by
    rw [modifiedMembers_eq_nil_iff, modifiedMembers_eq_nil_iff]
  constructor
  · rintro ⟨hChanged, hModified⟩
    simp [hChanged, hModified, hWrites.2 hModified, addedMembers_eq_nil addedGroup hChanged]
  · rintro ⟨hChanged, hReads, -⟩
    exact ⟨hChanged, hReads⟩

mutual

theorem groupUnchanged_iff_sameAs :
    ∀ (original updated : ConfigGroup), groupUnchanged original updated = true ↔
      original.SameAs updated
  | ⟨version, groups, values, policies, modPolicy⟩, updated => by
    have hGroups := membersSameAs_groups groups updated.groups
    rw [MembersSameAs, groupsUnchanged_iff_sameAs groups updated.groups] at hGroups
    rw [groupUnchanged_iff_maps, ConfigGroup.SameAs, membersSameAs_values, membersSameAs_policies]
    simp only [and_assoc]
    rw [hGroups]

theorem groupsUnchanged_iff_sameAs :
    ∀ (originals updated : List (String × ConfigGroup)),
      (∀ e ∈ originals, ∃ member, updated.lookup e.1 = some member ∧
        groupUnchanged e.2 member = true) ↔ groupsSameAs originals updated
  | [], updated => by simp [groupsSameAs]
  | (name, group) :: originals, updated => by
    rw [List.forall_mem_cons, groupsSameAs, groupsUnchanged_iff_sameAs originals updated]
    simp only [groupUnchanged_iff_sameAs group]

end

/-- `Compute` reports no differences exactly when both configs have a channel group and the
updated one is the original with versions aside: the same `mod_policy` and the same subgroups,
values and policies, each with the same contents and `mod_policy`, at every depth. -/
theorem compute_eq_error_iff_sameAs (original updated : Config) :
    compute original updated =
        .error "no differences detected between original and updated config" ↔
      ∃ originalGroup updatedGroup, original.channelGroup = some originalGroup ∧
        updated.channelGroup = some updatedGroup ∧ originalGroup.SameAs updatedGroup := by
  rw [compute]
  cases hOriginal : original.channelGroup with
  | none => simp
  | some originalGroup =>
    cases hUpdated : updated.channelGroup with
    | none => simp
    | some updatedGroup =>
      simp only [Option.some.injEq, exists_and_left, exists_eq_left', ← groupUnchanged_iff_sameAs,
        groupUnchanged]
      cases (computeGroupUpdate originalGroup updatedGroup).2.2 <;> simp

end SameAs

section ReadSet

mutual

def ConfigGroup.ReadOf : ConfigGroup → ConfigGroup → Prop
  | ⟨version, groups, values, policies, _⟩, original =>
    version = original.version ∧ groupsReadOf groups original.groups ∧
      (∀ e ∈ values, ∃ value, (e.1, value) ∈ original.values ∧ e.2.version = value.version) ∧
      ∀ e ∈ policies, ∃ policy, (e.1, policy) ∈ original.policies ∧ e.2.version = policy.version

def groupsReadOf : List (String × ConfigGroup) → List (String × ConfigGroup) → Prop
  | [], _ => True
  | (key, group) :: groups, originals =>
    (∃ original, (key, original) ∈ originals ∧ group.ReadOf original) ∧
      groupsReadOf groups originals

end

theorem groupsReadOf_iff (originals : List (String × ConfigGroup)) :
    ∀ groups : List (String × ConfigGroup), groupsReadOf groups originals ↔
      ∀ e ∈ groups, ∃ original, (e.1, original) ∈ originals ∧ e.2.ReadOf original
  | [] => by simp [groupsReadOf]
  | (key, group) :: groups => by
    rw [groupsReadOf, groupsReadOf_iff originals groups, List.forall_mem_cons]

theorem groupStub_readOf (original : ConfigGroup) : (groupStub original).ReadOf original := by
  simp [groupStub, ConfigGroup.ReadOf, groupsReadOf]

mutual

theorem readOf_computeGroupUpdate :
    ∀ (original updated : ConfigGroup), (computeGroupUpdate original updated).1.ReadOf original
  | ⟨version, groups, values, policies, modPolicy⟩, updated => by
    have hGroups := readOf_modifiedGroups groups updated.groups
    have hSameGroups : ∀ e ∈ sameMembers groupUnchanged groupStub groups updated.groups,
        ∃ original, (e.1, original) ∈ groups ∧ e.2.ReadOf original := by
      intro e he
      obtain ⟨original, hMem, hStub⟩ := mem_sameMembers _ _ he
      exact ⟨original, hMem, hStub ▸ groupStub_readOf original⟩
    rw [computeGroupUpdate]
    simp only [computeValuesMapUpdate, computePoliciesMapUpdate, computeMembersMapUpdate_eq,
      computeGroupsMapUpdate_eq]
    split_ifs
    · simp [ConfigGroup.ReadOf, groupsReadOf]
    · simp only [ConfigGroup.ReadOf, groupsReadOf_iff]
      simpa using hGroups
    · simp only [ConfigGroup.ReadOf, groupsReadOf_iff, List.nil_append, List.forall_mem_append]
      refine ⟨trivial, ⟨hGroups, hSameGroups⟩, fun e he => ?_, fun e he => ?_⟩
      · obtain ⟨value, hMem, hStub⟩ := mem_sameMembers _ _ he
        exact ⟨value, hMem, by rw [hStub]⟩
      · obtain ⟨policy, hMem, hStub⟩ := mem_sameMembers _ _ he
        exact ⟨policy, hMem, by rw [hStub]⟩

theorem readOf_modifiedGroups :
    ∀ (originals updated : List (String × ConfigGroup)),
      ∀ e ∈ modifiedMembers groupUnchanged (fun o u => (computeGroupUpdate o u).1) originals
          updated, ∃ original, (e.1, original) ∈ originals ∧ e.2.ReadOf original
  | [], _ => by simp [modifiedMembers]
  | (name, group) :: originals, updated => by
    intro e he
    simp only [modifiedMembers, List.filterMap_cons] at he
    have hTail := readOf_modifiedGroups originals updated
    split at he
    · obtain ⟨original, hMem, hRead⟩ := hTail e he
      exact ⟨original, List.mem_cons_of_mem _ hMem, hRead⟩
    · rename_i read hRead
      rcases List.mem_cons.1 he with rfl | hLater
      · simp only [Option.bind_eq_some_iff] at hRead
        obtain ⟨member, -, hWrite⟩ := hRead
        split at hWrite
        · cases hWrite
        · cases hWrite
          exact ⟨group, List.mem_cons_self, readOf_computeGroupUpdate group member⟩
      · obtain ⟨original, hMem, hRead⟩ := hTail e hLater
        exact ⟨original, List.mem_cons_of_mem _ hMem, hRead⟩

end

def Comparable.ReadOf (read existing : Comparable) : Prop :=
  existing.element.typePrefix = read.element.typePrefix ∧ existing.path = read.path ∧
    existing.key = read.key ∧ existing.version = read.version

theorem Comparable.ReadOf.fqPath_eq {read existing : Comparable} (h : read.ReadOf existing) :
    fqPath existing = fqPath read := by
  obtain ⟨hType, hPath, hKey, -⟩ := h
  rw [fqPath, fqPath, hType, hPath, hKey]

theorem configElements_subset_groupsElements (path : List String) {key : String}
    {group : ConfigGroup} :
    ∀ {groups : List (String × ConfigGroup)}, (key, group) ∈ groups →
      ∀ c ∈ configElements path key group, c ∈ groupsElements path groups
  | [], hMem => by cases hMem
  | (key', group') :: groups, hMem => by
    intro c hc
    rw [groupsElements, List.mem_append]
    rcases List.mem_cons.1 hMem with hHead | hTail
    · obtain ⟨rfl, rfl⟩ := Prod.mk.inj hHead
      exact Or.inl hc
    · exact Or.inr (configElements_subset_groupsElements path hTail c hc)

mutual

theorem exists_readOf_of_mem_configElements (path : List String) (key : String) :
    ∀ (read original : ConfigGroup), read.ReadOf original →
      ∀ c ∈ configElements path key read, ∃ c' ∈ configElements path key original, c.ReadOf c'
  | ⟨version, groups, values, policies, modPolicy⟩, original, hRead => by
    rw [ConfigGroup.ReadOf] at hRead
    obtain ⟨hVersion, hGroups, hValues, hPolicies⟩ := hRead
    intro c hc
    rw [configElements_eq, groupMembers] at hc
    simp only [List.mem_cons, List.mem_append, List.mem_map] at hc
    rcases hc with rfl | ((hSub | ⟨⟨k, v⟩, hv, rfl⟩) | ⟨⟨k, p⟩, hp, rfl⟩)
    · exact ⟨_, root_mem_configElements path key original, rfl, rfl, rfl, hVersion.symm⟩
    · obtain ⟨c', hc', hReadc⟩ :=
        exists_readOf_of_mem_groupsElements (path ++ [key]) groups original.groups hGroups c hSub
      refine ⟨c', ?_, hReadc⟩
      rw [configElements_eq, groupMembers]
      simp [hc']
    · obtain ⟨value, hMem, hV⟩ := hValues (k, v) hv
      refine ⟨⟨.value value, k, path ++ [key]⟩, ?_, rfl, rfl, rfl, hV.symm⟩
      rw [configElements_eq, groupMembers]
      simp only [List.mem_cons, List.mem_append, List.mem_map]
      exact Or.inr (Or.inl (Or.inr ⟨(k, value), hMem, rfl⟩))
    · obtain ⟨policy, hMem, hP⟩ := hPolicies (k, p) hp
      refine ⟨⟨.policy policy, k, path ++ [key]⟩, ?_, rfl, rfl, rfl, hP.symm⟩
      rw [configElements_eq, groupMembers]
      simp only [List.mem_cons, List.mem_append, List.mem_map]
      exact Or.inr (Or.inr ⟨(k, policy), hMem, rfl⟩)

theorem exists_readOf_of_mem_groupsElements (path : List String) :
    ∀ (reads originals : List (String × ConfigGroup)), groupsReadOf reads originals →
      ∀ c ∈ groupsElements path reads, ∃ c' ∈ groupsElements path originals, c.ReadOf c'
  | [], _, _ => by simp [groupsElements]
  | (key, group) :: reads, originals, hRead => by
    rw [groupsReadOf] at hRead
    obtain ⟨⟨original, hMem, hGroup⟩, hRest⟩ := hRead
    intro c hc
    rw [groupsElements, List.mem_append] at hc
    rcases hc with hHere | hLater
    · obtain ⟨c', hc', hReadc⟩ :=
        exists_readOf_of_mem_configElements path key group original hGroup c hHere
      exact ⟨c', configElements_subset_groupsElements path hMem c' hc', hReadc⟩
    · exact exists_readOf_of_mem_groupsElements path reads originals hRest c hLater

end

theorem mem_of_get?_fileAll {elements : List Comparable} {key : String} {value : Comparable}
    (h : (fileAll GoMap.empty elements).get? key = some value) :
    value ∈ elements ∧ fqPath value = key := by
  have hMem := GoMap.mem_of_lookup_eq_some h
  rw [fileAll_empty_assignments, List.mem_reverse, List.mem_map] at hMem
  obtain ⟨cg, hcg, hEq⟩ := hMem
  obtain ⟨rfl, rfl⟩ := Prod.mk.inj hEq
  exact ⟨hcg, rfl⟩

theorem newValidatorImpl_eq_ok {M : Type} {channelID ns : String} {config : Config} {pm : M}
    {vi : ValidatorImpl M} (h : newValidatorImpl channelID (some config) ns pm = .ok vi) :
    ∃ channelGroup, config.channelGroup = some channelGroup ∧
      mapConfig (some channelGroup) ns = .ok vi.configMap ∧ vi.«namespace» = ns := by
  rw [newValidatorImpl] at h
  cases hGroup : config.channelGroup with
  | none => simp [hGroup] at h
  | some channelGroup =>
    simp only [hGroup] at h
    split at h
    · cases h
    · obtain ⟨configMap, hWrap, hBuild⟩ := (bind_eq_ok _ _ _).1 h
      rw [wrapf_eq_ok] at hWrap
      cases hBuild
      exact ⟨channelGroup, rfl, hWrap, rfl⟩

theorem compute_eq_ok {original updated : Config} {update : ConfigUpdate}
    (h : compute original updated = .ok update) :
    ∃ originalGroup updatedGroup, original.channelGroup = some originalGroup ∧
      updated.channelGroup = some updatedGroup ∧
      update = ⟨"", some (computeGroupUpdate originalGroup updatedGroup).1,
        some (computeGroupUpdate originalGroup updatedGroup).2.1⟩ := by
  rw [compute] at h
  cases hOriginal : original.channelGroup with
  | none => simp [hOriginal] at h
  | some originalGroup =>
    cases hUpdated : updated.channelGroup with
    | none => simp [hOriginal, hUpdated] at h
    | some updatedGroup =>
      simp only [hOriginal, hUpdated] at h
      cases hFlag : (computeGroupUpdate originalGroup updatedGroup).2.2 <;>
        simp only [hFlag, Bool.not_false, Bool.not_true, if_true, Bool.false_eq_true, if_false,
          reduceCtorEq, Except.ok.injEq] at h
      exact ⟨originalGroup, updatedGroup, rfl, rfl, h.symm⟩

/-- The validator of a config, whose maps have distinct keys, accepts the read set `Compute`
makes from it: the read set maps, and every element of it stands in the config at the version
it names. -/
theorem compute_readSet_verified {M : Type} {channelID ns : String} {pm : M}
    {original updated : Config} {originalGroup : ConfigGroup} {vi : ValidatorImpl M}
    {update : ConfigUpdate} (hGroup : original.channelGroup = some originalGroup)
    (hUnique : originalGroup.keysUnique = true)
    (hValidator : newValidatorImpl channelID (some original) ns pm = .ok vi)
    (hCompute : compute original updated = .ok update) :
    ∃ readSet, mapConfig update.readSet vi.«namespace» = .ok readSet ∧
      vi.verifyReadSet readSet = .ok () := by
  obtain ⟨channelGroup, hChannel, hMap, hNamespace⟩ := newValidatorImpl_eq_ok hValidator
  rw [hGroup, Option.some.injEq] at hChannel
  subst hChannel
  obtain ⟨originalGroup', updatedGroup, hOriginal, -, rfl⟩ := compute_eq_ok hCompute
  rw [hGroup, Option.some.injEq] at hOriginal
  subst hOriginal
  have hValid : ∀ cg ∈ configElements [] ns originalGroup, validateConfigID cg.key = .ok () := by
    intro cg hcg
    by_contra hInvalid
    obtain ⟨e, hError⟩ := mapConfig_eq_error originalGroup ns ⟨cg, hcg, hInvalid⟩
    rw [hError] at hMap
    cases hMap
  have hConfigMap : vi.configMap = fileAll GoMap.empty (configElements [] ns originalGroup) := by
    rw [mapConfig_eq_ok originalGroup ns hValid, Except.ok.injEq] at hMap
    exact hMap.symm
  have hReads := exists_readOf_of_mem_configElements [] ns _ originalGroup
    (readOf_computeGroupUpdate originalGroup updatedGroup)
  have hValidRead : ∀ cg ∈ configElements [] ns (computeGroupUpdate originalGroup updatedGroup).1,
      validateConfigID cg.key = .ok () := by
    intro cg hcg
    obtain ⟨cg', hcg', -, -, hKey, -⟩ := hReads cg hcg
    rw [← hKey]
    exact hValid cg' hcg'
  refine ⟨_, by rw [hNamespace]; exact mapConfig_eq_ok _ ns hValidRead, ?_⟩
  rw [verifyReadSet_eq_ok_iff]
  intro key value hGet
  obtain ⟨hMem, rfl⟩ := mem_of_get?_fileAll hGet
  obtain ⟨existing, hExisting, hRead⟩ := hReads value hMem
  refine ⟨existing, ?_, hRead.2.2.2⟩
  rw [hConfigMap, ← hRead.fqPath_eq]
  exact get?_fileAll (nodup_fqPath_configElements hUnique hValid) hExisting

def adminsGroupWithB : ConfigGroup :=
  ⟨0, [], [("A", ⟨0, [0], "Admins"⟩), ("B", ⟨0, [1], "Admins"⟩)],
    [("Admins", ⟨0, none, "Admins"⟩)], "Admins"⟩

theorem compute_readSet_verified_adminsGroupWithB :
    ∃ vi update readSet,
      newValidatorImpl "mychannel" (some ⟨4, some adminsGroup⟩) "Channel" () = .ok vi ∧
      compute ⟨4, some adminsGroup⟩ ⟨4, some adminsGroupWithB⟩ = .ok update ∧
      mapConfig update.readSet vi.«namespace» = .ok readSet ∧
      vi.verifyReadSet readSet = .ok () := by
  have hValidator :
      (newValidatorImpl "mychannel" (some ⟨4, some adminsGroup⟩) "Channel" ()).toBool = true := by
    decide
  have hChanged : (computeGroupUpdate adminsGroup adminsGroupWithB).2.2 = true := by
    rw [computeGroupUpdate, computeGroupsMapUpdate_eq]
    rfl
  have hCompute : compute ⟨4, some adminsGroup⟩ ⟨4, some adminsGroupWithB⟩ =
      .ok ⟨"", some (computeGroupUpdate adminsGroup adminsGroupWithB).1,
        some (computeGroupUpdate adminsGroup adminsGroupWithB).2.1⟩ := by
    simp [compute, hChanged]
  cases hNew : newValidatorImpl "mychannel" (some ⟨4, some adminsGroup⟩) "Channel" () with
  | error e => simp [hNew, Except.toBool] at hValidator
  | ok vi =>
    obtain ⟨readSet, hMap, hRead⟩ := compute_readSet_verified rfl (by decide) hNew hCompute
    exact ⟨vi, _, readSet, rfl, hCompute, hMap, hRead⟩

end ReadSet

end FabricPeer.Configtx
