import Mathlib.Data.String.Basic
import Mathlib.Data.List.TakeWhile
import FabricPeer.Configtx.ConfigMap
import FabricPeer.Lib.RootedPath

/-! # A config tree and its flat map

What `mapConfig` files: every element of the tree once (`configElements`), each under its type
prefix and its path from the root (`fqPath`). A key that `validateConfigID` accepts has no `/`;
with the keys of each map distinct, the paths of the elements are then distinct, so the map has
one entry per element, and `configMapToConfig` finds every member of every group where `mapConfig`
filed it and rebuilds the tree. The upgrade of unset mod policies changes nothing when none is
unset. A key that `validateConfigID` refuses makes `mapConfig` fail.
-/

namespace FabricPeer.Configtx

open GoRun

set_option autoImplicit false

section ConfigID

def ValidConfigID (configID : String) : Prop :=
  0 < configID.utf8ByteSize ∧ configID.utf8ByteSize ≤ MaxLength ∧ configID ∉ illegalNames ∧
    ∀ c ∈ configID.toList, configAllowedChar c = true

theorem utf8Size_of_configAllowedChar {c : Char} (h : configAllowedChar c = true) :
    c.utf8Size = 1 := by
  rw [Char.utf8Size_eq_one_iff]
  delta configAllowedChar Char.isAlphanum Char.isAlpha Char.isUpper Char.isLower Char.isDigit at h
  simp only [Bool.or_eq_true, Bool.and_eq_true, decide_eq_true_eq, beq_iff_eq] at h
  rcases h with (((⟨-, hHigh⟩ | ⟨-, hHigh⟩) | ⟨-, hHigh⟩) | rfl) | rfl
  · exact UInt32.le_trans hHigh (by decide)
  · exact UInt32.le_trans hHigh (by decide)
  · exact UInt32.le_trans hHigh (by decide)
  · decide
  · decide

theorem utf8ByteSize_eq_utf8Len (s : String) : s.utf8ByteSize = String.utf8Len s.toList := by
  rw [← String.utf8ByteSize_ofList, String.ofList_toList]

theorem length_le_utf8Len (cs : List Char) : cs.length ≤ String.utf8Len cs := by
  induction cs with
  | nil => simp
  | cons c cs ih =>
    rw [String.utf8Len_cons, List.length_cons]
    have hPos := Char.utf8Size_pos c
    omega

theorem utf8Len_of_forall_configAllowedChar {cs : List Char}
    (h : ∀ c ∈ cs, configAllowedChar c = true) : String.utf8Len cs = cs.length := by
  induction cs with
  | nil => simp
  | cons c cs ih =>
    rw [String.utf8Len_cons, List.length_cons, utf8Size_of_configAllowedChar (h c List.mem_cons_self),
      ih fun c' hc' => h c' (List.mem_cons_of_mem _ hc')]

theorem utf8ByteSize_findConfigAllowed_eq_iff (s : String) :
    (findConfigAllowed s).utf8ByteSize = s.utf8ByteSize ↔
      ∀ c ∈ s.toList, configAllowedChar c = true := by
  have hRun : ∀ c ∈ (s.toList.dropWhile fun c => !configAllowedChar c).takeWhile
      configAllowedChar, configAllowedChar c = true := fun c hc => List.mem_takeWhile_imp hc
  rw [findConfigAllowed, String.utf8ByteSize_ofList, utf8Len_of_forall_configAllowedChar hRun,
    utf8ByteSize_eq_utf8Len]
  constructor
  · intro hEq c hc
    have hSub : ((s.toList.dropWhile fun c => !configAllowedChar c).takeWhile
        configAllowedChar).Sublist s.toList :=
      (List.takeWhile_sublist _).trans (List.dropWhile_sublist _)
    have hLe := length_le_utf8Len s.toList
    have hWhole := hSub.eq_of_length (by have := hSub.length_le; omega)
    exact hRun c (by rw [hWhole]; exact hc)
  · intro hAll
    have hDrop : (s.toList.dropWhile fun c => !configAllowedChar c) = s.toList := by
      rw [List.dropWhile_eq_self_iff]
      intro hPos
      simpa using hAll _ (List.getElem_mem hPos)
    rw [hDrop, List.takeWhile_eq_self_iff.2 hAll, utf8Len_of_forall_configAllowedChar hAll]

theorem validateConfigID_eq_ok_iff (configID : String) :
    validateConfigID configID = .ok () ↔ ValidConfigID configID := by
  rw [validateConfigID, ValidConfigID, ← utf8ByteSize_findConfigAllowed_eq_iff]
  split_ifs with hEmpty hLong hIllegal hChars
  · simp only [false_iff, not_and]
    intro hPos
    omega
  · simp only [false_iff, not_and]
    intro _ hLe
    omega
  · simp only [false_iff, not_and]
    intro _ _ hNot
    exact absurd hIllegal hNot
  · simp only [false_iff, not_and]
    intro _ _ _ hSize
    exact hChars hSize
  · simp only [true_iff]
    exact ⟨by omega, by omega, hIllegal, not_not.1 hChars⟩

theorem slash_not_mem_of_validateConfigID {configID : String}
    (h : validateConfigID configID = .ok ()) : '/' ∉ configID.toList := by
  intro hMem
  have hAllowed := ((validateConfigID_eq_ok_iff configID).1 h).2.2.2 '/' hMem
  exact absurd hAllowed (by decide)

end ConfigID

section Elements

theorem pathSeparator_eq : pathSeparator = String.singleton '/' := by decide

/-- The key `addToMap` files an element under: its type prefix and its path from the root. -/
def fqPath (cg : Comparable) : String :=
  cg.element.typePrefix ++ rootedJoin '/' (cg.path ++ [cg.key])

mutual

/-- The elements `recurseConfig` files for the group under `key` in the group at `path`, in the
order it files them. -/
def configElements (path : List String) (key : String) : ConfigGroup → List Comparable
  | group@⟨_, groups, values, policies, _⟩ =>
    ⟨.group group, key, path⟩ ::
      (groupsElements (path ++ [key]) groups ++
        values.map (fun (k, value) => ⟨.value value, k, path ++ [key]⟩) ++
        policies.map (fun (k, policy) => ⟨.policy policy, k, path ++ [key]⟩))

def groupsElements (path : List String) : List (String × ConfigGroup) → List Comparable
  | [] => []
  | (key, group) :: groups => configElements path key group ++ groupsElements path groups

end

def groupMembers (path : List String) (g : ConfigGroup) : List Comparable :=
  groupsElements path g.groups ++ g.values.map (fun (k, value) => ⟨.value value, k, path⟩) ++
    g.policies.map (fun (k, policy) => ⟨.policy policy, k, path⟩)

theorem configElements_eq (path : List String) (key : String) (g : ConfigGroup) :
    configElements path key g = ⟨.group g, key, path⟩ :: groupMembers (path ++ [key]) g := by
  cases g
  rw [configElements, groupMembers]

theorem root_mem_configElements (path : List String) (key : String) (g : ConfigGroup) :
    ⟨.group g, key, path⟩ ∈ configElements path key g := by
  rw [configElements_eq]
  exact List.mem_cons_self

/-- The map after filing the elements, in order, each under its path. -/
def fileAll (result : ConfigMap) (elements : List Comparable) : ConfigMap :=
  elements.foldl (fun result cg => result.insert (fqPath cg) cg) result

theorem fileAll_cons (result : ConfigMap) (cg : Comparable) (elements : List Comparable) :
    fileAll result (cg :: elements) = fileAll (result.insert (fqPath cg) cg) elements := rfl

theorem fileAll_append (result : ConfigMap) (elements elements' : List Comparable) :
    fileAll result (elements ++ elements') = fileAll (fileAll result elements) elements' :=
  List.foldl_append

theorem fqPath_eq (cg : Comparable) : fqPath cg =
    if cg.path.length = 0 then cg.element.typePrefix ++ pathSeparator ++ cg.key
    else cg.element.typePrefix ++ pathSeparator ++ pathSeparator.intercalate cg.path ++
      pathSeparator ++ cg.key := by
  rw [fqPath, pathSeparator_eq]
  split
  · rename_i hNil
    rw [List.length_eq_zero_iff.1 hNil, List.nil_append, rootedJoin_singleton, String.append_assoc]
  · rename_i hPath
    rw [rootedJoin_append_singleton (fun hNil => hPath (by rw [hNil]; rfl)), rootedJoin]
    simp only [String.append_assoc]

theorem addToMap_eq_ok {cg : Comparable} (h : validateConfigID cg.key = .ok ())
    (result : ConfigMap) : addToMap cg result = .ok (result.insert (fqPath cg) cg) := by
  rw [addToMap, h, fqPath_eq]

theorem addToMap_eq_error {cg : Comparable} (h : validateConfigID cg.key ≠ .ok ())
    (result : ConfigMap) : ∃ e, addToMap cg result = .error e := by
  cases hValid : validateConfigID cg.key with
  | error err =>
    rw [addToMap, hValid]
    exact ⟨_, rfl⟩
  | ok u => exact absurd hValid h

theorem index_append_singleton (path : List String) (key : String) :
    index (path ++ [key]) (((path ++ [key]).length : Int) - 1) = .ok key := by
  have hLength : ((path ++ [key]).length : Int) - 1 = (path.length : Int) := by simp
  rw [hLength, index_append_length path [] key]

theorem take_append_singleton (path : List String) (key : String) :
    (path ++ [key]).take ((path ++ [key]).length - 1) = path := by
  simp

theorem foldlM_addToMap_eq_ok {β : Type} (mk : β → Comparable) (members : List β)
    (h : ∀ x ∈ members, validateConfigID (mk x).key = .ok ()) (result : ConfigMap) :
    members.foldlM (fun result x => addToMap (mk x) result) result =
      .ok (fileAll result (members.map mk)) := by
  rw [fileAll, List.foldl_map]
  exact foldlM_eq_ok_foldl _ _ members (fun r x hx => addToMap_eq_ok (h x hx) r) result

mutual

theorem recurseConfig_eq_ok (result : ConfigMap) (path : List String) (key : String) :
    ∀ (group : ConfigGroup), (∀ cg ∈ configElements path key group, validateConfigID cg.key = .ok ()) →
      recurseConfig result (path ++ [key]) group = .ok (fileAll result (configElements path key group))
  | ⟨version, groups, values, policies, modPolicy⟩, hValid => by
    rw [configElements_eq, groupMembers] at hValid ⊢
    simp only [List.forall_mem_cons, List.forall_mem_append, List.forall_mem_map] at hValid
    obtain ⟨hRoot, ⟨hGroups, hValues⟩, hPolicies⟩ := hValid
    rw [recurseConfig, index_append_singleton, ok_bind, addToMap_eq_ok hRoot, ok_bind,
      recurseConfigGroups_eq_ok _ (path ++ [key]) groups hGroups, ok_bind,
      foldlM_addToMap_eq_ok (fun x => ⟨.value x.2, x.1, path ++ [key]⟩) values
        (fun x hx => hValues x hx), ok_bind,
      foldlM_addToMap_eq_ok (fun x => ⟨.policy x.2, x.1, path ++ [key]⟩) policies
        (fun x hx => hPolicies x hx), fileAll_cons, fileAll_append, fileAll_append,
      take_append_singleton]

theorem recurseConfigGroups_eq_ok (result : ConfigMap) (path : List String) :
    ∀ (groups : List (String × ConfigGroup)),
      (∀ cg ∈ groupsElements path groups, validateConfigID cg.key = .ok ()) →
      recurseConfigGroups result path groups = .ok (fileAll result (groupsElements path groups))
  | [], _ => rfl
  | (key, group) :: groups, hValid => by
    rw [groupsElements, List.forall_mem_append] at hValid
    rw [recurseConfigGroups, recurseConfig_eq_ok result path key group hValid.1, ok_bind,
      recurseConfigGroups_eq_ok _ path groups hValid.2, groupsElements, fileAll_append]

end

mutual

theorem recurseConfig_eq_error (result : ConfigMap) (path : List String) (key : String) :
    ∀ (group : ConfigGroup),
      (∃ cg ∈ configElements path key group, validateConfigID cg.key ≠ .ok ()) →
      ∃ e, recurseConfig result (path ++ [key]) group = .error e
  | ⟨version, groups, values, policies, modPolicy⟩, ⟨cg, hMem, hInvalid⟩ => by
    rw [configElements_eq, groupMembers] at hMem
    simp only [List.mem_cons, List.mem_append, List.mem_map] at hMem
    rw [recurseConfig, index_append_singleton, ok_bind, take_append_singleton]
    rcases hMem with rfl | ((hGroups | ⟨⟨k, v⟩, hv, rfl⟩) | ⟨⟨k, p⟩, hp, rfl⟩)
    · exact bind_eq_error_of_eq_error _ (addToMap_eq_error hInvalid result)
    · apply bind_eq_error_of
      intro r _
      exact bind_eq_error_of_eq_error _
        (recurseConfigGroups_eq_error r (path ++ [key]) groups ⟨cg, hGroups, hInvalid⟩)
    · apply bind_eq_error_of
      intro r _
      apply bind_eq_error_of
      intro r' _
      exact bind_eq_error_of_eq_error _
        (foldlM_eq_error_of_mem _ hv (fun b => addToMap_eq_error hInvalid b) r')
    · apply bind_eq_error_of
      intro r _
      apply bind_eq_error_of
      intro r' _
      apply bind_eq_error_of
      intro r'' _
      exact foldlM_eq_error_of_mem _ hp (fun b => addToMap_eq_error hInvalid b) r''

theorem recurseConfigGroups_eq_error (result : ConfigMap) (path : List String) :
    ∀ (groups : List (String × ConfigGroup)),
      (∃ cg ∈ groupsElements path groups, validateConfigID cg.key ≠ .ok ()) →
      ∃ e, recurseConfigGroups result path groups = .error e
  | [], ⟨_, hMem, _⟩ => by
    rw [groupsElements] at hMem
    cases hMem
  | (key, group) :: groups, ⟨cg, hMem, hInvalid⟩ => by
    rw [groupsElements, List.mem_append] at hMem
    rw [recurseConfigGroups]
    rcases hMem with hHere | hLater
    · exact bind_eq_error_of_eq_error _
        (recurseConfig_eq_error result path key group ⟨cg, hHere, hInvalid⟩)
    · apply bind_eq_error_of
      intro r _
      exact recurseConfigGroups_eq_error r path groups ⟨cg, hLater, hInvalid⟩

end

theorem mapConfig_eq_ok (channelGroup : ConfigGroup) (rootGroupKey : String)
    (hValid : ∀ cg ∈ configElements [] rootGroupKey channelGroup, validateConfigID cg.key = .ok ()) :
    mapConfig (some channelGroup) rootGroupKey =
      .ok (fileAll GoMap.empty (configElements [] rootGroupKey channelGroup)) :=
  recurseConfig_eq_ok GoMap.empty [] rootGroupKey channelGroup hValid

theorem mapConfig_eq_error (channelGroup : ConfigGroup) (rootGroupKey : String)
    (hInvalid : ∃ cg ∈ configElements [] rootGroupKey channelGroup,
      validateConfigID cg.key ≠ .ok ()) :
    ∃ e, mapConfig (some channelGroup) rootGroupKey = .error e :=
  recurseConfig_eq_error GoMap.empty [] rootGroupKey channelGroup hInvalid

end Elements

section Paths

/-- Where an element sits: its type prefix and its keys from the root. -/
def Comparable.address (cg : Comparable) : String × List String :=
  (cg.element.typePrefix, cg.path ++ [cg.key])

mutual

def ConfigGroup.keysUnique : ConfigGroup → Bool
  | ⟨_, groups, values, policies, _⟩ =>
    decide (groups.map Prod.fst).Nodup && decide (values.map Prod.fst).Nodup &&
      decide (policies.map Prod.fst).Nodup && groupsKeysUnique groups

def groupsKeysUnique : List (String × ConfigGroup) → Bool
  | [] => true
  | (_, group) :: groups => group.keysUnique && groupsKeysUnique groups

end

theorem length_typePrefix (e : Element) : e.typePrefix.length = 9 := by
  cases e with
  | group g => show groupPrefix.length = 9; decide
  | value v => show valuePrefix.length = 9; decide
  | policy p => show policyPrefix.length = 9; decide

mutual

theorem prefix_of_mem_configElements (path : List String) (key : String) :
    ∀ (group : ConfigGroup) {cg : Comparable}, cg ∈ configElements path key group →
      path ++ [key] <+: cg.path ++ [cg.key]
  | ⟨version, groups, values, policies, modPolicy⟩, cg, hMem => by
    rw [configElements_eq, groupMembers] at hMem
    simp only [List.mem_cons, List.mem_append, List.mem_map] at hMem
    rcases hMem with rfl | ((hGroups | ⟨⟨k, v⟩, -, rfl⟩) | ⟨⟨k, p⟩, -, rfl⟩)
    · exact List.prefix_refl _
    · obtain ⟨k, -, hPrefix⟩ := prefix_of_mem_groupsElements (path ++ [key]) groups hGroups
      exact (List.prefix_append _ _).trans hPrefix
    · exact List.prefix_append _ _
    · exact List.prefix_append _ _

theorem prefix_of_mem_groupsElements (path : List String) :
    ∀ (groups : List (String × ConfigGroup)) {cg : Comparable}, cg ∈ groupsElements path groups →
      ∃ k ∈ groups.map Prod.fst, path ++ [k] <+: cg.path ++ [cg.key]
  | [], cg, hMem => by
    rw [groupsElements] at hMem
    cases hMem
  | (key, group) :: groups, cg, hMem => by
    rw [groupsElements, List.mem_append] at hMem
    rcases hMem with hHere | hLater
    · exact ⟨key, List.mem_cons_self, prefix_of_mem_configElements path key group hHere⟩
    · obtain ⟨k, hk, hPrefix⟩ := prefix_of_mem_groupsElements path groups hLater
      exact ⟨k, List.mem_cons_of_mem _ hk, hPrefix⟩

end

mutual

theorem mem_path_of_mem_configElements (path : List String) (key : String) :
    ∀ (group : ConfigGroup) {cg : Comparable}, cg ∈ configElements path key group →
      ∀ w ∈ cg.path ++ [cg.key], w ∈ path ∨ ∃ c ∈ configElements path key group, c.key = w
  | ⟨version, groups, values, policies, modPolicy⟩, cg, hMem, w, hw => by
    have hRoot := root_mem_configElements path key ⟨version, groups, values, policies, modPolicy⟩
    have hThrough : w ∈ path ++ [key] → w ∈ path ∨
        ∃ c ∈ configElements path key ⟨version, groups, values, policies, modPolicy⟩,
          c.key = w := by
      rw [List.mem_append, List.mem_singleton]
      rintro (hPath | rfl)
      · exact .inl hPath
      · exact .inr ⟨_, hRoot, rfl⟩
    have hMem' := hMem
    rw [configElements_eq, groupMembers] at hMem'
    simp only [List.mem_cons, List.mem_append, List.mem_map] at hMem'
    rcases hMem' with rfl | ((hGroups | ⟨⟨k, v⟩, -, rfl⟩) | ⟨⟨k, p⟩, -, rfl⟩)
    · exact hThrough hw
    · rcases mem_path_of_mem_groupsElements (path ++ [key]) groups hGroups w hw with
        hPath | ⟨c, hc, hKey⟩
      · exact hThrough hPath
      · refine .inr ⟨c, ?_, hKey⟩
        rw [configElements_eq, groupMembers]
        exact List.mem_cons_of_mem _ (List.mem_append_left _ (List.mem_append_left _ hc))
    · rw [List.mem_append, List.mem_singleton] at hw
      rcases hw with hPath | rfl
      · exact hThrough hPath
      · exact .inr ⟨_, hMem, rfl⟩
    · rw [List.mem_append, List.mem_singleton] at hw
      rcases hw with hPath | rfl
      · exact hThrough hPath
      · exact .inr ⟨_, hMem, rfl⟩

theorem mem_path_of_mem_groupsElements (path : List String) :
    ∀ (groups : List (String × ConfigGroup)) {cg : Comparable}, cg ∈ groupsElements path groups →
      ∀ w ∈ cg.path ++ [cg.key], w ∈ path ∨ ∃ c ∈ groupsElements path groups, c.key = w
  | [], cg, hMem, _, _ => by
    rw [groupsElements] at hMem
    cases hMem
  | (key, group) :: groups, cg, hMem, w, hw => by
    rw [groupsElements, List.mem_append] at hMem
    rcases hMem with hHere | hLater
    · rcases mem_path_of_mem_configElements path key group hHere w hw with hPath | ⟨c, hc, hKey⟩
      · exact .inl hPath
      · exact .inr ⟨c, by rw [groupsElements]; exact List.mem_append_left _ hc, hKey⟩
    · rcases mem_path_of_mem_groupsElements path groups hLater w hw with hPath | ⟨c, hc, hKey⟩
      · exact .inl hPath
      · exact .inr ⟨c, by rw [groupsElements]; exact List.mem_append_right _ hc, hKey⟩

end

theorem length_lt_of_mem_groupMembers {path : List String} {g : ConfigGroup} {cg : Comparable}
    (hMem : cg ∈ groupMembers path g) : path.length < (cg.path ++ [cg.key]).length := by
  rw [groupMembers] at hMem
  simp only [List.mem_append, List.mem_map] at hMem
  rcases hMem with (hGroups | ⟨⟨k, v⟩, -, rfl⟩) | ⟨⟨k, p⟩, -, rfl⟩
  · obtain ⟨k, -, hPrefix⟩ := prefix_of_mem_groupsElements path g.groups hGroups
    have hLe := hPrefix.length_le
    simp only [List.length_append, List.length_singleton] at hLe ⊢
    omega
  · simp
  · simp

theorem typePrefix_of_mem_groupsElements {path : List String} {cg : Comparable} :
    ∀ {groups : List (String × ConfigGroup)}, cg ∈ groupsElements path groups →
      (cg.path ++ [cg.key]).length = path.length + 1 → cg.element.typePrefix = groupPrefix
  | [], hMem, _ => by
    rw [groupsElements] at hMem
    cases hMem
  | (key, group) :: groups, hMem, hLength => by
    rw [groupsElements, List.mem_append] at hMem
    rcases hMem with hHere | hLater
    · rw [configElements_eq, List.mem_cons] at hHere
      rcases hHere with rfl | hBelow
      · rfl
      · have hLt := length_lt_of_mem_groupMembers hBelow
        simp only [List.length_append, List.length_singleton] at hLt hLength
        omega
    · exact typePrefix_of_mem_groupsElements hLater hLength

theorem nodup_address_members {α : Type} (mk : String × α → Comparable) (pre : String)
    (path : List String) (hAddress : ∀ x, (mk x).address = (pre, path ++ [x.1]))
    {members : List (String × α)} (hKeys : (members.map Prod.fst).Nodup) :
    ((members.map mk).map Comparable.address).Nodup := by
  have hEq : (members.map mk).map Comparable.address =
      (members.map Prod.fst).map fun k => (pre, path ++ [k]) := by
    simp only [List.map_map]
    exact List.map_congr_left fun x _ => hAddress x
  rw [hEq]
  apply hKeys.map
  intro k k' h
  simpa using h

theorem address_ne_of_mem_groupsElements {path : List String}
    {groups : List (String × ConfigGroup)} {cg : Comparable} (hMem : cg ∈ groupsElements path groups)
    (pre : String) (hPre : pre ≠ groupPrefix) (k : String) : cg.address ≠ (pre, path ++ [k]) := by
  intro hEq
  have hLength : (cg.path ++ [cg.key]).length = path.length + 1 := by
    rw [show cg.path ++ [cg.key] = path ++ [k] from congrArg Prod.snd hEq]
    simp
  have hGroup := typePrefix_of_mem_groupsElements hMem hLength
  exact hPre ((congrArg Prod.fst hEq).symm.trans hGroup)

mutual

theorem nodup_address_configElements (path : List String) (key : String) :
    ∀ (group : ConfigGroup), group.keysUnique = true →
      ((configElements path key group).map Comparable.address).Nodup
  | ⟨version, groups, values, policies, modPolicy⟩, hUnique => by
    simp only [ConfigGroup.keysUnique, Bool.and_eq_true, decide_eq_true_eq] at hUnique
    obtain ⟨⟨⟨hGroupKeys, hValueKeys⟩, hPolicyKeys⟩, hBelow⟩ := hUnique
    have hGroups := nodup_address_groupsElements (path ++ [key]) groups hBelow hGroupKeys
    have hValues := nodup_address_members (fun (k, value) => ⟨.value value, k, path ++ [key]⟩)
      valuePrefix (path ++ [key]) (fun _ => rfl) hValueKeys
    have hPolicies := nodup_address_members (fun (k, policy) => ⟨.policy policy, k, path ++ [key]⟩)
      policyPrefix (path ++ [key]) (fun _ => rfl) hPolicyKeys
    rw [configElements_eq, List.map_cons, List.nodup_cons]
    constructor
    · intro hMem
      obtain ⟨cg, hcg, hAddress⟩ := List.mem_map.1 hMem
      have hLt := length_lt_of_mem_groupMembers hcg
      rw [show cg.path ++ [cg.key] = path ++ [key] from congrArg Prod.snd hAddress] at hLt
      simp at hLt
    · rw [groupMembers, List.map_append, List.map_append, List.nodup_append, List.nodup_append]
      refine ⟨⟨hGroups, hValues, ?_⟩, hPolicies, ?_⟩
      · intro a ha b hb hEq
        obtain ⟨cg, hcg, rfl⟩ := List.mem_map.1 ha
        simp only [List.map_map, List.mem_map] at hb
        obtain ⟨⟨k, v⟩, -, rfl⟩ := hb
        exact address_ne_of_mem_groupsElements hcg valuePrefix (by decide) k hEq
      · intro a ha b hb hEq
        simp only [List.map_map, List.mem_map] at hb
        obtain ⟨⟨k, p⟩, -, rfl⟩ := hb
        rcases List.mem_append.1 ha with ha | ha
        · obtain ⟨cg, hcg, rfl⟩ := List.mem_map.1 ha
          exact address_ne_of_mem_groupsElements hcg policyPrefix (by decide) k hEq
        · simp only [List.map_map, List.mem_map] at ha
          obtain ⟨⟨k', v⟩, -, rfl⟩ := ha
          have hPre : valuePrefix = policyPrefix := congrArg Prod.fst hEq
          exact absurd hPre (by decide)

theorem nodup_address_groupsElements (path : List String) :
    ∀ (groups : List (String × ConfigGroup)), groupsKeysUnique groups = true →
      (groups.map Prod.fst).Nodup → ((groupsElements path groups).map Comparable.address).Nodup
  | [], _, _ => by
    rw [groupsElements]
    exact List.nodup_nil
  | (key, group) :: groups, hUnique, hKeys => by
    simp only [groupsKeysUnique, Bool.and_eq_true] at hUnique
    rw [List.map_cons, List.nodup_cons] at hKeys
    rw [groupsElements, List.map_append, List.nodup_append]
    refine ⟨nodup_address_configElements path key group hUnique.1,
      nodup_address_groupsElements path groups hUnique.2 hKeys.2, ?_⟩
    intro a ha b hb hEq
    obtain ⟨cg, hcg, rfl⟩ := List.mem_map.1 ha
    obtain ⟨cg', hcg', rfl⟩ := List.mem_map.1 hb
    have hHere := prefix_of_mem_configElements path key group hcg
    obtain ⟨k, hk, hLater⟩ := prefix_of_mem_groupsElements path groups hcg'
    rw [show cg.path ++ [cg.key] = cg'.path ++ [cg'.key] from congrArg Prod.snd hEq] at hHere
    have hSame : path ++ [key] = path ++ [k] :=
      (List.prefix_of_prefix_length_le hHere hLater (by simp)).eq_of_length (by simp)
    rw [List.append_cancel_left_eq, List.singleton_inj] at hSame
    exact hKeys.1 (by rw [hSame]; exact hk)

end

theorem nodup_fqPath_configElements {key : String} {g : ConfigGroup}
    (hUnique : g.keysUnique = true)
    (hValid : ∀ cg ∈ configElements [] key g, validateConfigID cg.key = .ok ()) :
    ((configElements [] key g).map fqPath).Nodup := by
  have hFq : (configElements [] key g).map fqPath =
      ((configElements [] key g).map Comparable.address).map
        (fun a => a.1 ++ rootedJoin '/' a.2) := by
    rw [List.map_map]
    rfl
  have hWords : ∀ c ∈ configElements [] key g, ∀ w ∈ c.path ++ [c.key], '/' ∉ w.toList := by
    intro c hc w hw
    rcases mem_path_of_mem_configElements [] key g hc w hw with hNil | ⟨c', hc', rfl⟩
    · cases hNil
    · exact slash_not_mem_of_validateConfigID (hValid c' hc')
  rw [hFq]
  refine List.Nodup.map_on ?_ (nodup_address_configElements [] key g hUnique)
  intro a ha b hb hEq
  obtain ⟨cg, hcg, rfl⟩ := List.mem_map.1 ha
  obtain ⟨cg', hcg', rfl⟩ := List.mem_map.1 hb
  have hLength : cg.element.typePrefix.length = cg'.element.typePrefix.length := by
    rw [length_typePrefix, length_typePrefix]
  obtain ⟨hPre, hPath⟩ := append_rootedJoin_inj hLength (hWords cg hcg) (hWords cg' hcg')
    (by simp) (by simp) hEq
  exact Prod.ext hPre hPath

end Paths

section Rebuild

theorem fileAll_assignments (result : ConfigMap) (elements : List Comparable) :
    (fileAll result elements).assignments =
      (elements.map fun cg => (fqPath cg, cg)).reverse ++ result.assignments := by
  induction elements generalizing result with
  | nil => rfl
  | cons cg elements ih =>
    rw [fileAll_cons, ih]
    simp [GoMap.insert]

theorem fileAll_empty_assignments (elements : List Comparable) :
    (fileAll GoMap.empty elements).assignments = (elements.map fun cg => (fqPath cg, cg)).reverse := by
  rw [fileAll_assignments]
  exact List.append_nil _

theorem get?_fileAll {elements : List Comparable} (hNodup : (elements.map fqPath).Nodup)
    {cg : Comparable} (hMem : cg ∈ elements) :
    (fileAll GoMap.empty elements).get? (fqPath cg) = some cg := by
  apply GoMap.lookup_of_mem_of_nodup
  · rw [fileAll_empty_assignments, List.map_reverse, List.map_map, List.nodup_reverse]
    exact hNodup
  · rw [fileAll_empty_assignments, List.mem_reverse]
    exact List.mem_map_of_mem hMem

theorem length_keys_fileAll {elements : List Comparable} (hNodup : (elements.map fqPath).Nodup) :
    (fileAll GoMap.empty elements).keys.length = elements.length := by
  have hFst : elements.map (Prod.fst ∘ fun cg => (fqPath cg, cg)) = elements.map fqPath := rfl
  rw [GoMap.keys, fileAll_empty_assignments, List.map_reverse, List.map_map, hFst,
    List.Nodup.dedup (List.nodup_reverse.2 hNodup), List.length_reverse, List.length_map]

theorem upgradeModPolicies_eq_self {g : ConfigGroup} (hGroup : g.modPolicy ≠ "")
    (hValues : ∀ e ∈ g.values, e.2.modPolicy ≠ "")
    (hPolicies : ∀ e ∈ g.policies, e.2.modPolicy ≠ "") : upgradeModPolicies g = g := by
  obtain ⟨version, groups, values, policies, modPolicy⟩ := g
  simp only [upgradeModPolicies, if_neg hGroup]
  congr 1
  · conv_rhs => rw [← List.map_id values]
    apply List.map_congr_left
    rintro ⟨k, v⟩ hMem
    rw [if_neg (hValues _ hMem)]
    rfl
  · conv_rhs => rw [← List.map_id policies]
    apply List.map_congr_left
    rintro ⟨k, p⟩ hMem
    rw [if_neg (hPolicies _ hMem)]
    rfl

theorem rootedJoin_slash_append {path : List String} (hPath : path ≠ []) (key : String) :
    rootedJoin '/' path ++ pathSeparator ++ key = rootedJoin '/' (path ++ [key]) := by
  rw [rootedJoin_append_singleton hPath, pathSeparator_eq]

theorem fqPath_eq_of_ne_nil (cg : Comparable) (hPath : cg.path ≠ []) :
    fqPath cg = cg.element.typePrefix ++ rootedJoin '/' cg.path ++ pathSeparator ++ cg.key := by
  rw [fqPath, ← rootedJoin_slash_append hPath]
  simp only [String.append_assoc]

mutual

theorem recurseConfigMap_eq_ok (m : ConfigMap) (path : List String) (key : String) :
    ∀ (group : ConfigGroup), (∀ cg ∈ configElements path key group, m.get? (fqPath cg) = some cg) →
      (∀ cg ∈ configElements path key group, cg.modPolicy ≠ "") →
      recurseConfigMap (rootedJoin '/' (path ++ [key])) m = .ok group
  | ⟨version, groups, values, policies, modPolicy⟩, hFiled, hModPolicy => by
    rw [configElements_eq, groupMembers] at hFiled hModPolicy
    simp only [List.forall_mem_cons, List.forall_mem_append, List.forall_mem_map] at hFiled hModPolicy
    obtain ⟨hRoot, ⟨hGroups, hValues⟩, hPolicies⟩ := hFiled
    obtain ⟨hRootPolicy, ⟨hGroupsPolicy, hValuesPolicy⟩, hPoliciesPolicy⟩ := hModPolicy
    have hSubgroups := recurseConfigMap_groups_eq_ok m (path ++ [key]) groups hGroups hGroupsPolicy
    have hPath : path ++ [key] ≠ [] := by simp
    rw [recurseConfigMap]
    dsimp only
    split
    · rename_i hNone
      exact absurd (hRoot.symm.trans hNone) (by simp)
    · rename_i found hFound
      cases (hFound.symm.trans hRoot)
      dsimp only
      rw [mapM_eq_ok_self _ groups ?groups, ok_bind, mapM_eq_ok_self _ values ?values, ok_bind,
        mapM_eq_ok_self _ policies ?policies, ok_bind]
      case groups =>
        rintro ⟨k, sub⟩ hx
        dsimp only
        rw [rootedJoin_slash_append hPath, hSubgroups (k, sub) hx]
        rfl
      case values =>
        rintro ⟨k, v⟩ hx
        have hFiledValue : m.get? (valuePrefix ++ rootedJoin '/' (path ++ [key]) ++ pathSeparator ++ k) =
            some ⟨.value v, k, path ++ [key]⟩ := by
          rw [← hValues (k, v) hx, fqPath_eq_of_ne_nil _ hPath]
          rfl
        dsimp only
        rw [hFiledValue]
      case policies =>
        rintro ⟨k, p⟩ hx
        have hFiledPolicy : m.get? (policyPrefix ++ rootedJoin '/' (path ++ [key]) ++ pathSeparator ++ k) =
            some ⟨.policy p, k, path ++ [key]⟩ := by
          rw [← hPolicies (k, p) hx, fqPath_eq_of_ne_nil _ hPath]
          rfl
        dsimp only
        rw [hFiledPolicy]
      split
      · rw [upgradeModPolicies_eq_self hRootPolicy (fun ⟨k, v⟩ hx => hValuesPolicy (k, v) hx)
          (fun ⟨k, p⟩ hx => hPoliciesPolicy (k, p) hx)]
        rfl
      · rfl

theorem recurseConfigMap_groups_eq_ok (m : ConfigMap) (path : List String) :
    ∀ (groups : List (String × ConfigGroup)),
      (∀ cg ∈ groupsElements path groups, m.get? (fqPath cg) = some cg) →
      (∀ cg ∈ groupsElements path groups, cg.modPolicy ≠ "") →
      ∀ x ∈ groups, recurseConfigMap (rootedJoin '/' (path ++ [x.1])) m = .ok x.2
  | [], _, _ => by
    intro x hx
    cases hx
  | (key, group) :: groups, hFiled, hModPolicy => by
    rw [groupsElements, List.forall_mem_append] at hFiled hModPolicy
    intro x hx
    rcases List.mem_cons.1 hx with rfl | hLater
    · exact recurseConfigMap_eq_ok m path key group hFiled.1 hModPolicy.1
    · exact recurseConfigMap_groups_eq_ok m path groups hFiled.2 hModPolicy.2 x hLater

end

end Rebuild

/-- `mapConfig` fails on a tree with a key `validateConfigID` refuses; on a tree whose keys it
accepts, distinct in each map, it files every group, value and policy under its own key, and
`configMapToConfig` gives the tree back when no mod policy is unset. -/
theorem mapConfig_round_trips (g : ConfigGroup) (ns : String) :
    ((∃ cg ∈ configElements [] ns g, validateConfigID cg.key ≠ .ok ()) →
      ∃ err, mapConfig (some g) ns = .error err) ∧
    (g.keysUnique = true → (∀ cg ∈ configElements [] ns g, validateConfigID cg.key = .ok ()) →
      (∀ cg ∈ configElements [] ns g, cg.modPolicy ≠ "") →
      ∃ configMap, mapConfig (some g) ns = .ok configMap ∧
        configMap = fileAll GoMap.empty (configElements [] ns g) ∧
        ((configElements [] ns g).map fqPath).Nodup ∧
        configMap.keys.length = (configElements [] ns g).length ∧
        configMapToConfig configMap ns = .ok g) := by
  refine ⟨mapConfig_eq_error g ns, fun hUnique hValid hModPolicy => ?_⟩
  have hNodup := nodup_fqPath_configElements hUnique hValid
  refine ⟨_, mapConfig_eq_ok g ns hValid, rfl, hNodup, length_keys_fileAll hNodup, ?_⟩
  rw [configMapToConfig, pathSeparator_eq, ← rootedJoin_singleton]
  exact recurseConfigMap_eq_ok _ [] ns g (fun cg hcg => get?_fileAll hNodup hcg) hModPolicy

theorem mapConfig_round_trips_with_orderer_capabilities :
    ∃ configMap,
      mapConfig (some
        (⟨0, [("Orderer", ⟨0, [], [("Capabilities", ⟨0, [1], "Admins"⟩)], [], "Admins"⟩)], [],
          [("Admins", ⟨0, none, "Admins"⟩)], "Admins"⟩ : ConfigGroup)) "Channel" = .ok configMap ∧
      configMap = fileAll GoMap.empty (configElements [] "Channel"
        (⟨0, [("Orderer", ⟨0, [], [("Capabilities", ⟨0, [1], "Admins"⟩)], [], "Admins"⟩)], [],
          [("Admins", ⟨0, none, "Admins"⟩)], "Admins"⟩ : ConfigGroup)) ∧
      ((configElements [] "Channel"
        (⟨0, [("Orderer", ⟨0, [], [("Capabilities", ⟨0, [1], "Admins"⟩)], [], "Admins"⟩)], [],
          [("Admins", ⟨0, none, "Admins"⟩)], "Admins"⟩ : ConfigGroup)).map fqPath).Nodup ∧
      configMap.keys.length = (configElements [] "Channel"
        (⟨0, [("Orderer", ⟨0, [], [("Capabilities", ⟨0, [1], "Admins"⟩)], [], "Admins"⟩)], [],
          [("Admins", ⟨0, none, "Admins"⟩)], "Admins"⟩ : ConfigGroup)).length ∧
      configMapToConfig configMap "Channel" = .ok
        (⟨0, [("Orderer", ⟨0, [], [("Capabilities", ⟨0, [1], "Admins"⟩)], [], "Admins"⟩)], [],
          [("Admins", ⟨0, none, "Admins"⟩)], "Admins"⟩ : ConfigGroup) :=
  (mapConfig_round_trips _ "Channel").2 (by decide) (by decide) (by decide)

end FabricPeer.Configtx
