import Mathlib.Data.List.Nodup
import FabricPeer.Orderer.Membership
import FabricPeer.Lib.ByteOrder

/-! # Consenter ids across membership changes

What `ComputeMembershipChanges` does to the ids of the consenters, from a configuration whose
consenters have distinct certificates and whose `NextConsenterId` is above every id in use: it
fails exactly when more than one consenter is added or removed, and otherwise every new
consenter is kept under one id, the ids stay distinct, known certificates keep theirs, a
rotated certificate takes the id of the node it replaces and an added node takes
`NextConsenterId`. The increment of `NextConsenterId` is a `uint64` one: as long as it does not
wrap, no id is ever given twice.
-/

namespace FabricPeer.Orderer

open GoRun

set_option autoImplicit false

def certsOf (consenters : GoMap UInt64 Consenter) : List (List UInt8) :=
  consenters.entries.map fun e => e.2.clientTlsCert

def CertsInjective (consenters : GoMap UInt64 Consenter) : Prop :=
  ∀ id id' c c', consenters.get? id = some c → consenters.get? id' = some c' →
    c.clientTlsCert = c'.clientTlsCert → id = id'

theorem mem_certsOf (consenters : GoMap UInt64 Consenter) (cert : List UInt8) :
    cert ∈ certsOf consenters ↔ ∃ id c, consenters.get? id = some c ∧ c.clientTlsCert = cert := by
  simp only [certsOf, List.mem_map, GoMap.mem_entries]
  constructor
  · rintro ⟨⟨id, c⟩, hGet, rfl⟩
    exact ⟨id, c, hGet, rfl⟩
  · rintro ⟨id, c, hGet, rfl⟩
    exact ⟨(id, c), hGet, rfl⟩

theorem get?_membershipByCert {consenters : GoMap UInt64 Consenter}
    (hInjective : CertsInjective consenters) (cert : List UInt8) (id : UInt64) :
    (membershipByCert consenters).get? cert = some id ↔
      ∃ c, consenters.get? id = some c ∧ c.clientTlsCert = cert := by
  rw [membershipByCert, GoMap.get?_foldl_insert, GoMap.get?_empty, Option.or_none]
  constructor
  · intro hFind
    obtain ⟨e, hFound, rfl⟩ := Option.map_eq_some_iff.1 hFind
    have hMem := List.mem_reverse.1 (List.mem_of_find?_eq_some hFound)
    have hCert : e.2.clientTlsCert = cert := by simpa using List.find?_some hFound
    exact ⟨e.2, (GoMap.mem_entries _ e).1 hMem, hCert⟩
  · rintro ⟨c, hGet, rfl⟩
    have hMem : (id, c) ∈ consenters.entries.reverse :=
      List.mem_reverse.2 ((GoMap.mem_entries _ (id, c)).2 hGet)
    have hSome : (consenters.entries.reverse.find? fun e =>
        decide (e.2.clientTlsCert = c.clientTlsCert)).isSome :=
      List.find?_isSome.2 ⟨(id, c), hMem, by simp⟩
    obtain ⟨e, hFound⟩ := Option.isSome_iff_exists.1 hSome
    have hCert : e.2.clientTlsCert = c.clientTlsCert := by simpa using List.find?_some hFound
    have hEntry := (GoMap.mem_entries _ e).1 (List.mem_reverse.1 (List.mem_of_find?_eq_some hFound))
    rw [hFound, Option.map_some, hInjective _ _ _ _ hEntry hGet hCert]

theorem contains_consentersToMap (consenters : List Consenter) (cert : List UInt8) :
    (consentersToMap consenters).contains cert = decide (cert ∈ consenters.map (·.clientTlsCert)) := by
  rw [GoMap.contains_eq_isSome, consentersToMap, GoMap.get?_foldl_insert, GoMap.get?_empty,
    Option.or_none, Option.isSome_map]
  apply Bool.eq_iff_iff.2
  rw [List.find?_isSome]
  simp

/-! ## The two loops -/

def SameSwitchFields (r r' : MembershipChanges) : Prop :=
  r'.newBlockMetadata.nextConsenterId = r.newBlockMetadata.nextConsenterId ∧
    r'.confChange = r.confChange ∧ r'.rotatedNode = r.rotatedNode

section

variable (currentConsentersSet : GoMap (List UInt8) UInt64)

theorem visitNewConsenter_same (acc : MembershipChanges × ℕ) (ci : Consenter × ℕ) :
    SameSwitchFields acc.1 (visitNewConsenter currentConsentersSet acc ci).1 ∧
      (visitNewConsenter currentConsentersSet acc ci).1.removedNodes = acc.1.removedNodes := by
  unfold visitNewConsenter
  split <;> exact ⟨⟨rfl, rfl, rfl⟩, rfl⟩

theorem foldl_visitNewConsenter_same (l : List (Consenter × ℕ)) (acc : MembershipChanges × ℕ) :
    SameSwitchFields acc.1 (l.foldl (visitNewConsenter currentConsentersSet) acc).1 ∧
      (l.foldl (visitNewConsenter currentConsentersSet) acc).1.removedNodes =
        acc.1.removedNodes := by
  induction l generalizing acc with
  | nil => exact ⟨⟨rfl, rfl, rfl⟩, rfl⟩
  | cons ci l ih =>
    obtain ⟨⟨hNext, hConf, hRotated⟩, hRemoved⟩ := visitNewConsenter_same currentConsentersSet acc ci
    obtain ⟨⟨hNext', hConf', hRotated'⟩, hRemoved'⟩ :=
      ih (visitNewConsenter currentConsentersSet acc ci)
    rw [List.foldl_cons]
    exact ⟨⟨hNext'.trans hNext, hConf'.trans hConf, hRotated'.trans hRotated⟩,
      hRemoved'.trans hRemoved⟩

theorem foldl_visitNewConsenter_addedNodes (l : List Consenter) (n : ℕ)
    (acc : MembershipChanges × ℕ) :
    ((l.zipIdx n).foldl (visitNewConsenter currentConsentersSet) acc).1.addedNodes =
      acc.1.addedNodes ++ l.filter fun c => (currentConsentersSet.get? c.clientTlsCert).isNone := by
  induction l generalizing n acc with
  | nil => simp
  | cons c l ih =>
    rw [List.zipIdx_cons, List.foldl_cons, ih, List.filter_cons]
    unfold visitNewConsenter
    split <;> simp_all

theorem foldl_visitNewConsenter_consenterIds (l : List Consenter) (pre : List UInt64)
    (acc : MembershipChanges × ℕ)
    (hIds : acc.1.newBlockMetadata.consenterIds = pre ++ List.replicate l.length 0) :
    ((l.zipIdx pre.length).foldl (visitNewConsenter currentConsentersSet) acc).1.newBlockMetadata.consenterIds =
      pre ++ l.map fun c => (currentConsentersSet.get? c.clientTlsCert).getD 0 := by
  induction l generalizing pre acc with
  | nil => simpa using hIds
  | cons c l ih =>
    rw [List.zipIdx_cons, List.foldl_cons]
    have hNext : (visitNewConsenter currentConsentersSet acc (c, pre.length)).1.newBlockMetadata.consenterIds =
        (pre ++ [(currentConsentersSet.get? c.clientTlsCert).getD 0]) ++ List.replicate l.length 0 := by
      unfold visitNewConsenter
      split
      · rename_i nodeID hKnown
        simp [hIds, hKnown, List.set_append_right, List.replicate_succ]
      · rename_i hUnknown
        simp [hIds, hUnknown, List.replicate_succ]
    have h := ih (pre ++ [(currentConsentersSet.get? c.clientTlsCert).getD 0]) _ hNext
    rw [List.length_append, List.length_singleton] at h
    rw [h, List.map_cons, List.append_assoc, List.singleton_append]

theorem foldl_visitNewConsenter_newConsenters (l : List Consenter) (n : ℕ)
    (acc : MembershipChanges × ℕ) (id : UInt64) :
    ((l.zipIdx n).foldl (visitNewConsenter currentConsentersSet) acc).1.newConsenters.get? id =
      (l.reverse.find? fun c => currentConsentersSet.get? c.clientTlsCert = some id).or
        (acc.1.newConsenters.get? id) := by
  induction l generalizing n acc with
  | nil => simp
  | cons c l ih =>
    rw [List.zipIdx_cons, List.foldl_cons, ih, List.reverse_cons, List.find?_append]
    unfold visitNewConsenter
    split
    · rename_i nodeID hKnown
      rw [GoMap.get?_insert]
      by_cases hId : id = nodeID
      · subst hId
        cases l.reverse.find? fun c => currentConsentersSet.get? c.clientTlsCert = some id <;>
          simp [hKnown]
      · have hNe : ¬some nodeID = some id := fun h => hId (Option.some.inj h).symm
        cases l.reverse.find? fun c => currentConsentersSet.get? c.clientTlsCert = some id <;>
          simp [hKnown, hId, hNe]
    · rename_i hUnknown
      cases l.reverse.find? fun c => currentConsentersSet.get? c.clientTlsCert = some id <;>
        simp [hUnknown]

theorem foldl_visitNewConsenter_index (l : List Consenter) (n : ℕ) (acc : MembershipChanges × ℕ) :
    ((l.zipIdx n).foldl (visitNewConsenter currentConsentersSet) acc).2 =
      (((l.zipIdx n).reverse.find? fun ci =>
        (currentConsentersSet.get? ci.1.clientTlsCert).isNone).map Prod.snd).getD acc.2 := by
  induction l generalizing n acc with
  | nil => simp
  | cons c l ih =>
    rw [List.zipIdx_cons, List.foldl_cons, ih, List.reverse_cons, List.find?_append]
    unfold visitNewConsenter
    split
    · rename_i nodeID hKnown
      cases (l.zipIdx (n + 1)).reverse.find? fun ci =>
        (currentConsentersSet.get? ci.1.clientTlsCert).isNone <;> simp [hKnown]
    · rename_i hUnknown
      cases (l.zipIdx (n + 1)).reverse.find? fun ci =>
        (currentConsentersSet.get? ci.1.clientTlsCert).isNone <;> simp [hUnknown]

end

section

variable (newConsentersSet : GoMap (List UInt8) Unit)

theorem foldl_visitOldConsenter (l : List (UInt64 × Consenter)) (acc : MembershipChanges × UInt64) :
    (l.foldl (visitOldConsenter newConsentersSet) acc).1 =
      { acc.1 with removedNodes := acc.1.removedNodes ++
          (l.filter fun e => !newConsentersSet.contains e.2.clientTlsCert).map Prod.snd } := by
  induction l generalizing acc with
  | nil => simp
  | cons e l ih =>
    rw [List.foldl_cons, ih, List.filter_cons]
    unfold visitOldConsenter
    split <;> simp_all

theorem foldl_visitOldConsenter_id (l : List (UInt64 × Consenter)) (acc : MembershipChanges × UInt64) :
    (l.foldl (visitOldConsenter newConsentersSet) acc).2 =
      ((l.reverse.find? fun e => !newConsentersSet.contains e.2.clientTlsCert).map Prod.fst).getD
        acc.2 := by
  induction l generalizing acc with
  | nil => simp
  | cons e l ih =>
    rw [List.foldl_cons, ih, List.reverse_cons, List.find?_append]
    unfold visitOldConsenter
    split
    · rename_i hKept
      cases l.reverse.find? (fun e => !newConsentersSet.contains e.2.clientTlsCert) <;> simp [hKept]
    · rename_i hRemoved
      cases l.reverse.find? (fun e => !newConsentersSet.contains e.2.clientTlsCert) <;> simp [hRemoved]

end

/-! ## What the loops compute -/

/-- The new consenters whose certificate is not one of the current configuration. -/
def addedConsenters (consenters : GoMap UInt64 Consenter) (newConsenters : List Consenter) :
    List Consenter :=
  newConsenters.filter fun c => c.clientTlsCert ∉ certsOf consenters

/-- The current consenters whose certificate is not among the new ones. -/
def removedConsenters (consenters : GoMap UInt64 Consenter) (newConsenters : List Consenter) :
    List (UInt64 × Consenter) :=
  consenters.entries.filter fun e => e.2.clientTlsCert ∉ newConsenters.map (·.clientTlsCert)

theorem isSome_membershipByCert {consenters : GoMap UInt64 Consenter}
    (hInjective : CertsInjective consenters) (cert : List UInt8) :
    ((membershipByCert consenters).get? cert).isSome ↔ cert ∈ certsOf consenters := by
  rw [mem_certsOf, Option.isSome_iff_exists]
  constructor
  · rintro ⟨id, hGet⟩
    exact ⟨id, (get?_membershipByCert hInjective cert id).1 hGet⟩
  · rintro ⟨id, hKnown⟩
    exact ⟨id, (get?_membershipByCert hInjective cert id).2 hKnown⟩

theorem isNone_membershipByCert {consenters : GoMap UInt64 Consenter}
    (hInjective : CertsInjective consenters) (cert : List UInt8) :
    ((membershipByCert consenters).get? cert).isNone = decide (cert ∉ certsOf consenters) := by
  have h := isSome_membershipByCert hInjective cert
  cases hGet : (membershipByCert consenters).get? cert <;> simp_all

def knownId (consenters : GoMap UInt64 Consenter) (c : Consenter) : Option UInt64 :=
  (membershipByCert consenters).get? c.clientTlsCert

structure ScanFacts (oldMetadata : BlockMetadata) (oldConsenters : GoMap UInt64 Consenter)
    (newConsenters : List Consenter) (result : MembershipChanges) (addedNodeIndex : ℕ)
    (deletedNodeID : UInt64) : Prop where
  added : result.addedNodes = addedConsenters oldConsenters newConsenters
  removed : result.removedNodes = (removedConsenters oldConsenters newConsenters).map Prod.snd
  consenterIds : result.newBlockMetadata.consenterIds =
    newConsenters.map fun c => (knownId oldConsenters c).getD 0
  nextConsenterId : result.newBlockMetadata.nextConsenterId = oldMetadata.nextConsenterId
  confChange : result.confChange = none
  newConsenters_get? : ∀ id, result.newConsenters.get? id =
    newConsenters.reverse.find? fun c => knownId oldConsenters c = some id
  index : ∀ a, addedConsenters oldConsenters newConsenters = [a] → newConsenters[addedNodeIndex]? = some a
  deleted : ∀ e, removedConsenters oldConsenters newConsenters = [e] → deletedNodeID = e.1

theorem computeMembershipChanges_scan (oldMetadata : BlockMetadata)
    {oldConsenters : GoMap UInt64 Consenter} (hInjective : CertsInjective oldConsenters)
    (newConsenters : List Consenter) :
    ∃ result addedNodeIndex deletedNodeID,
      ScanFacts oldMetadata oldConsenters newConsenters result addedNodeIndex deletedNodeID ∧
      computeMembershipChanges oldMetadata oldConsenters newConsenters =
        switchOnChanges result addedNodeIndex deletedNodeID := by
  refine ⟨_, _, _, ?_, rfl⟩
  set known := membershipByCert oldConsenters
  set init : MembershipChanges :=
    { newConsenters := GoMap.empty
      newBlockMetadata := { oldMetadata with
        consenterIds := List.replicate newConsenters.length 0 }
      addedNodes := []
      removedNodes := []
      confChange := none
      rotatedNode := 0 }
  set visited := newConsenters.zipIdx.foldl (visitNewConsenter known) (init, 0) with hVisited
  have hOld := foldl_visitOldConsenter (consentersToMap newConsenters) oldConsenters.entries
    (visited.1, 0)
  obtain ⟨⟨hNext, hConf, -⟩, hRemovedNil⟩ :=
    foldl_visitNewConsenter_same known newConsenters.zipIdx (init, 0)
  rw [hOld]
  have hIsNone : ∀ c ∈ newConsenters, (known.get? c.clientTlsCert).isNone =
      decide (c.clientTlsCert ∉ certsOf oldConsenters) :=
    fun c _ => isNone_membershipByCert hInjective c.clientTlsCert
  have hContains : ∀ e ∈ oldConsenters.entries,
      (!(consentersToMap newConsenters).contains e.2.clientTlsCert) =
        decide (e.2.clientTlsCert ∉ newConsenters.map (·.clientTlsCert)) := by
    intro e _
    rw [contains_consentersToMap, decide_not]
  constructor
  · show visited.1.addedNodes = _
    rw [hVisited, foldl_visitNewConsenter_addedNodes, List.nil_append, addedConsenters,
      List.filter_congr hIsNone]
  · show visited.1.removedNodes ++ _ = _
    rw [hRemovedNil, List.nil_append, removedConsenters, List.filter_congr hContains]
  · show visited.1.newBlockMetadata.consenterIds = _
    have h := foldl_visitNewConsenter_consenterIds known newConsenters [] (init, 0)
      (by simp [init])
    rw [List.length_nil, List.nil_append] at h
    exact h
  · exact hNext
  · exact hConf
  · intro id
    show visited.1.newConsenters.get? id = _
    rw [hVisited, foldl_visitNewConsenter_newConsenters]
    simp [init]
    rfl
  · intro a hAdded
    show newConsenters[visited.2]? = some a
    have hAddedMem : ∀ c, c ∈ addedConsenters oldConsenters newConsenters ↔
        c ∈ newConsenters ∧ (known.get? c.clientTlsCert).isNone := by
      intro c
      rw [addedConsenters, List.mem_filter]
      constructor
      · rintro ⟨hMem, hNot⟩
        exact ⟨hMem, (hIsNone c hMem).trans hNot⟩
      · rintro ⟨hMem, hNone⟩
        exact ⟨hMem, (hIsNone c hMem).symm.trans hNone⟩
    obtain ⟨hMemA, hNoneA⟩ := (hAddedMem a).1 (by rw [hAdded]; exact List.mem_singleton_self a)
    obtain ⟨i, hI⟩ := List.mem_iff_getElem?.1 hMemA
    have hSome : (newConsenters.zipIdx.reverse.find? fun ci =>
        (known.get? ci.1.clientTlsCert).isNone).isSome :=
      List.find?_isSome.2 ⟨(a, i), List.mem_reverse.2 (List.mem_zipIdx_iff_getElem?.2 hI), hNoneA⟩
    obtain ⟨ci, hFound⟩ := Option.isSome_iff_exists.1 hSome
    have hCi : newConsenters[ci.2]? = some ci.1 :=
      List.mem_zipIdx_iff_getElem?.1 (List.mem_reverse.1 (List.mem_of_find?_eq_some hFound))
    have hNoneCi := List.find?_some hFound
    have hCiAdded : ci.1 ∈ addedConsenters oldConsenters newConsenters :=
      (hAddedMem ci.1).2 ⟨List.mem_of_getElem? hCi, hNoneCi⟩
    rw [hAdded, List.mem_singleton] at hCiAdded
    rw [hVisited, foldl_visitNewConsenter_index, hFound, Option.map_some, Option.getD_some,
      hCi, hCiAdded]
  · intro e hRemoved
    rw [foldl_visitOldConsenter_id]
    have hRemovedMem : ∀ e', e' ∈ removedConsenters oldConsenters newConsenters ↔
        e' ∈ oldConsenters.entries ∧ (!(consentersToMap newConsenters).contains e'.2.clientTlsCert) := by
      intro e'
      rw [removedConsenters, List.mem_filter]
      constructor
      · rintro ⟨hMem, hNot⟩
        exact ⟨hMem, (hContains e' hMem).trans hNot⟩
      · rintro ⟨hMem, hNot⟩
        exact ⟨hMem, (hContains e' hMem).symm.trans hNot⟩
    obtain ⟨hMemE, hNotE⟩ := (hRemovedMem e).1 (by rw [hRemoved]; exact List.mem_singleton_self e)
    have hSome : (oldConsenters.entries.reverse.find? fun e' =>
        !(consentersToMap newConsenters).contains e'.2.clientTlsCert).isSome :=
      List.find?_isSome.2 ⟨e, List.mem_reverse.2 hMemE, hNotE⟩
    obtain ⟨e', hFound⟩ := Option.isSome_iff_exists.1 hSome
    have hNotE' := List.find?_some hFound
    have hE' : e' ∈ removedConsenters oldConsenters newConsenters :=
      (hRemovedMem e').2 ⟨List.mem_reverse.1 (List.mem_of_find?_eq_some hFound), hNotE'⟩
    rw [hRemoved, List.mem_singleton] at hE'
    rw [hFound, Option.map_some, Option.getD_some, hE']

/-! ## One membership change -/

/-- A well-formed etcdraft configuration, as every successful change leaves it: consenters of
distinct certificates, listed by the metadata under distinct ids, all below `NextConsenterId`. -/
structure MembershipWellFormed (metadata : BlockMetadata) (consenters : GoMap UInt64 Consenter) :
    Prop where
  certsInjective : CertsInjective consenters
  lt_next : ∀ id, (consenters.get? id).isSome → id < metadata.nextConsenterId
  mem_consenterIds : ∀ id, id ∈ metadata.consenterIds ↔ (consenters.get? id).isSome
  nodup_consenterIds : metadata.consenterIds.Nodup

def KeepsNewConsenters (newConsenters : List Consenter) (assigned : Consenter → UInt64)
    (m : GoMap UInt64 Consenter) : Prop :=
  ∀ id c, m.get? id = some c ↔ c ∈ newConsenters ∧ assigned c = id

section

variable {consenters : GoMap UInt64 Consenter} {newConsenters : List Consenter}

theorem knownId_eq_some (hInjective : CertsInjective consenters) (c : Consenter) (id : UInt64) :
    knownId consenters c = some id ↔
      ∃ c', consenters.get? id = some c' ∧ c'.clientTlsCert = c.clientTlsCert :=
  get?_membershipByCert hInjective c.clientTlsCert id

theorem mem_addedConsenters (hInjective : CertsInjective consenters) (c : Consenter) :
    c ∈ addedConsenters consenters newConsenters ↔
      c ∈ newConsenters ∧ knownId consenters c = none := by
  rw [addedConsenters, List.mem_filter, ← Option.isNone_iff_eq_none, knownId,
    isNone_membershipByCert hInjective]

theorem knownId_lt {metadata : BlockMetadata} (hWellFormed : MembershipWellFormed metadata consenters)
    {c : Consenter} {id : UInt64} (hKnown : knownId consenters c = some id) :
    id < metadata.nextConsenterId := by
  obtain ⟨c', hGet, -⟩ := (knownId_eq_some hWellFormed.certsInjective c id).1 hKnown
  exact hWellFormed.lt_next id (by rw [hGet]; rfl)

theorem knownId_ne_removed (hInjective : CertsInjective consenters) {e : UInt64 × Consenter}
    (hRemoved : e ∈ removedConsenters consenters newConsenters) {c : Consenter}
    (hMem : c ∈ newConsenters) : knownId consenters c ≠ some e.1 := by
  intro hKnown
  obtain ⟨c', hGet, hCert⟩ := (knownId_eq_some hInjective c e.1).1 hKnown
  rw [removedConsenters, List.mem_filter] at hRemoved
  obtain ⟨hEntry, hNotNew⟩ := hRemoved
  have hGetE := (GoMap.mem_entries _ e).1 hEntry
  rw [hGet, Option.some.injEq] at hGetE
  subst hGetE
  exact of_decide_eq_true hNotNew (List.mem_map.2 ⟨c, hMem, hCert.symm⟩)

theorem knownId_injective (hInjective : CertsInjective consenters)
    (hDistinct : (newConsenters.map (·.clientTlsCert)).Nodup) {c c' : Consenter}
    (hMem : c ∈ newConsenters) (hMem' : c' ∈ newConsenters) {id : UInt64}
    (hKnown : knownId consenters c = some id) (hKnown' : knownId consenters c' = some id) :
    c = c' := by
  obtain ⟨d, hGet, hCert⟩ := (knownId_eq_some hInjective c id).1 hKnown
  obtain ⟨d', hGet', hCert'⟩ := (knownId_eq_some hInjective c' id).1 hKnown'
  rw [hGet, Option.some.injEq] at hGet'
  subst hGet'
  exact List.inj_on_of_nodup_map hDistinct hMem hMem' (hCert.symm.trans hCert')

section Scan

variable {oldMetadata : BlockMetadata} {result : MembershipChanges} {addedNodeIndex : ℕ}
  {deletedNodeID : UInt64}

theorem ScanFacts.get?_newConsenters
    (hFacts : ScanFacts oldMetadata consenters newConsenters result addedNodeIndex deletedNodeID)
    (hInjective : CertsInjective consenters)
    (hDistinct : (newConsenters.map (·.clientTlsCert)).Nodup) (id : UInt64) (c : Consenter) :
    result.newConsenters.get? id = some c ↔ c ∈ newConsenters ∧ knownId consenters c = some id := by
  rw [hFacts.newConsenters_get?]
  constructor
  · intro hFound
    have hKnown := List.find?_some hFound
    exact ⟨List.mem_reverse.1 (List.mem_of_find?_eq_some hFound), of_decide_eq_true hKnown⟩
  · rintro ⟨hMem, hKnown⟩
    have hSome : (newConsenters.reverse.find? fun c => knownId consenters c = some id).isSome :=
      List.find?_isSome.2 ⟨c, List.mem_reverse.2 hMem, decide_eq_true hKnown⟩
    obtain ⟨c', hFound⟩ := Option.isSome_iff_exists.1 hSome
    have hKnown' := List.find?_some hFound
    have hMem' := List.mem_reverse.1 (List.mem_of_find?_eq_some hFound)
    rw [hFound, knownId_injective hInjective hDistinct hMem' hMem (of_decide_eq_true hKnown') hKnown]

end Scan

theorem keepsNewConsenters_insert (hInjective : CertsInjective consenters)
    {m : GoMap UInt64 Consenter}
    (hBase : ∀ id c, m.get? id = some c ↔ c ∈ newConsenters ∧ knownId consenters c = some id)
    {a : Consenter} (hAdded : addedConsenters consenters newConsenters = [a]) {x : UInt64}
    (hFresh : ∀ c ∈ newConsenters, knownId consenters c ≠ some x) :
    KeepsNewConsenters newConsenters (fun c => (knownId consenters c).getD x) (m.insert x a) := by
  obtain ⟨hMemA, hUnknownA⟩ :=
    (mem_addedConsenters hInjective a).1 (by rw [hAdded]; exact List.mem_singleton_self a)
  intro id c
  dsimp only
  rw [GoMap.get?_insert]
  split
  · rename_i hId
    subst hId
    constructor
    · rintro ⟨⟩
      exact ⟨hMemA, by rw [hUnknownA, Option.getD_none]⟩
    · rintro ⟨hMem, hAssigned⟩
      cases hKnown : knownId consenters c with
      | none =>
        have hC := (mem_addedConsenters hInjective c).2 ⟨hMem, hKnown⟩
        rw [hAdded, List.mem_singleton] at hC
        rw [hC]
      | some y =>
        rw [hKnown, Option.getD_some] at hAssigned
        exact absurd (hAssigned ▸ hKnown) (hFresh c hMem)
  · rename_i hId
    rw [hBase]
    cases hKnown : knownId consenters c with
    | none => simp [Ne.symm hId]
    | some y => simp

theorem keepsNewConsenters_of_nil (hInjective : CertsInjective consenters)
    {m : GoMap UInt64 Consenter}
    (hBase : ∀ id c, m.get? id = some c ↔ c ∈ newConsenters ∧ knownId consenters c = some id)
    (hAdded : addedConsenters consenters newConsenters = []) (x : UInt64) :
    KeepsNewConsenters newConsenters (fun c => (knownId consenters c).getD x) m := by
  intro id c
  dsimp only
  rw [hBase]
  constructor
  · rintro ⟨hMem, hKnown⟩
    exact ⟨hMem, by rw [hKnown, Option.getD_some]⟩
  · rintro ⟨hMem, hAssigned⟩
    cases hKnown : knownId consenters c with
    | none =>
      have hC := (mem_addedConsenters hInjective c).2 ⟨hMem, hKnown⟩
      rw [hAdded] at hC
      cases hC
    | some y =>
      rw [hKnown, Option.getD_some] at hAssigned
      exact ⟨hMem, hAssigned ▸ rfl⟩

theorem keepsNewConsenters_delete {assigned : Consenter → UInt64} {m : GoMap UInt64 Consenter}
    (hKeeps : KeepsNewConsenters newConsenters assigned m) {y : UInt64}
    (hFresh : ∀ c ∈ newConsenters, assigned c ≠ y) :
    KeepsNewConsenters newConsenters assigned (m.delete y) := by
  intro id c
  rw [GoMap.get?_delete]
  split
  · rename_i hId
    subst hId
    simp only [reduceCtorEq, false_iff, not_and]
    exact hFresh c
  · exact hKeeps id c

theorem set_consenterIds (hInjective : CertsInjective consenters)
    (hDistinct : (newConsenters.map (·.clientTlsCert)).Nodup) {a : Consenter}
    (hAdded : addedConsenters consenters newConsenters = [a]) {i : ℕ}
    (hIndex : newConsenters[i]? = some a) (x : UInt64) :
    (newConsenters.map fun c => (knownId consenters c).getD 0).set i x =
      newConsenters.map fun c => (knownId consenters c).getD x := by
  have hNodup : newConsenters.Nodup := List.Nodup.of_map _ hDistinct
  have hUnknownA : knownId consenters a = none :=
    ((mem_addedConsenters hInjective a).1 (by rw [hAdded]; exact List.mem_singleton_self a)).2
  have hLt : i < newConsenters.length := (List.getElem?_eq_some_iff.1 hIndex).1
  apply List.ext_getElem?
  intro j
  rw [List.getElem?_set, List.getElem?_map, List.getElem?_map, List.length_map]
  by_cases hj : i = j
  · subst hj
    rw [if_pos rfl, if_pos hLt, hIndex, Option.map_some, hUnknownA, Option.getD_none]
  · rw [if_neg hj]
    cases hC : newConsenters[j]? with
    | none => rfl
    | some c =>
      rw [Option.map_some, Option.map_some, Option.some.injEq]
      cases hKnown : knownId consenters c with
      | some y => rfl
      | none =>
        have hC' := (mem_addedConsenters hInjective c).2 ⟨List.mem_of_getElem? hC, hKnown⟩
        rw [hAdded, List.mem_singleton] at hC'
        subst hC'
        exact absurd ((List.getElem?_inj hLt hNodup).1 (hIndex.trans hC.symm)) hj

theorem consenterIds_of_nil (hInjective : CertsInjective consenters)
    (hAdded : addedConsenters consenters newConsenters = []) (x : UInt64) :
    (newConsenters.map fun c => (knownId consenters c).getD 0) =
      newConsenters.map fun c => (knownId consenters c).getD x := by
  apply List.map_congr_left
  intro c hMem
  cases hKnown : knownId consenters c with
  | some y => rfl
  | none =>
    have hC := (mem_addedConsenters hInjective c).2 ⟨hMem, hKnown⟩
    rw [hAdded] at hC
    cases hC

theorem nodup_assignedIds (hInjective : CertsInjective consenters)
    (hDistinct : (newConsenters.map (·.clientTlsCert)).Nodup) {x : UInt64}
    (hFresh : ∀ c ∈ newConsenters, knownId consenters c ≠ some x)
    (hAtMostOne : (addedConsenters consenters newConsenters).length ≤ 1) :
    (newConsenters.map fun c => (knownId consenters c).getD x).Nodup := by
  have hSameAdded : ∀ c c', c ∈ addedConsenters consenters newConsenters →
      c' ∈ addedConsenters consenters newConsenters → c = c' := by
    intro c c' hC hC'
    match hAdded : addedConsenters consenters newConsenters, hAtMostOne with
    | [], _ => rw [hAdded] at hC; cases hC
    | [a], _ =>
      rw [hAdded, List.mem_singleton] at hC hC'
      rw [hC, hC']
  refine List.Nodup.map_on ?_ (List.Nodup.of_map _ hDistinct)
  intro c hMem c' hMem' hAssigned
  cases hKnown : knownId consenters c <;> cases hKnown' : knownId consenters c' <;>
    rw [hKnown, hKnown'] at hAssigned <;>
    simp only [Option.getD_none, Option.getD_some] at hAssigned
  case none.none =>
    exact hSameAdded c c' ((mem_addedConsenters hInjective c).2 ⟨hMem, hKnown⟩)
      ((mem_addedConsenters hInjective c').2 ⟨hMem', hKnown'⟩)
  case none.some y' =>
    exact absurd (hAssigned ▸ hKnown') (hFresh c' hMem')
  case some.none y =>
    exact absurd (hAssigned ▸ hKnown) (hFresh c hMem)
  case some.some y y' =>
    subst hAssigned
    exact knownId_injective hInjective hDistinct hMem hMem' hKnown hKnown'

def AssignsIds (consenters : GoMap UInt64 Consenter) (newConsenters : List Consenter) (x : UInt64)
    (mc : MembershipChanges) : Prop :=
  mc.newBlockMetadata.consenterIds = newConsenters.map (fun c => (knownId consenters c).getD x) ∧
    KeepsNewConsenters newConsenters (fun c => (knownId consenters c).getD x) mc.newConsenters ∧
    ∀ c ∈ newConsenters, knownId consenters c ≠ some x

theorem computeMembershipChanges_cases {metadata : BlockMetadata}
    (hWellFormed : MembershipWellFormed metadata consenters)
    (hDistinct : (newConsenters.map (·.clientTlsCert)).Nodup) :
    (∃ a e mc, addedConsenters consenters newConsenters = [a] ∧
      removedConsenters consenters newConsenters = [e] ∧
      computeMembershipChanges metadata consenters newConsenters = .ok mc ∧
      AssignsIds consenters newConsenters e.1 mc ∧
      mc.newBlockMetadata.nextConsenterId = metadata.nextConsenterId ∧ mc.confChange = none ∧
      mc.rotatedNode = e.1) ∨
    (∃ a mc, addedConsenters consenters newConsenters = [a] ∧
      removedConsenters consenters newConsenters = [] ∧
      computeMembershipChanges metadata consenters newConsenters = .ok mc ∧
      AssignsIds consenters newConsenters metadata.nextConsenterId mc ∧
      mc.newBlockMetadata.nextConsenterId = metadata.nextConsenterId + 1 ∧
      mc.confChange = some ⟨metadata.nextConsenterId, .confChangeAddNode⟩) ∨
    (∃ e mc, addedConsenters consenters newConsenters = [] ∧
      removedConsenters consenters newConsenters = [e] ∧
      computeMembershipChanges metadata consenters newConsenters = .ok mc ∧
      AssignsIds consenters newConsenters metadata.nextConsenterId mc ∧
      mc.newBlockMetadata.nextConsenterId = metadata.nextConsenterId ∧
      mc.confChange = some ⟨e.1, .confChangeRemoveNode⟩) ∨
    (∃ mc, addedConsenters consenters newConsenters = [] ∧
      removedConsenters consenters newConsenters = [] ∧
      computeMembershipChanges metadata consenters newConsenters = .ok mc ∧
      AssignsIds consenters newConsenters metadata.nextConsenterId mc ∧
      mc.newBlockMetadata.nextConsenterId = metadata.nextConsenterId ∧ mc.confChange = none) ∨
    ((1 < (addedConsenters consenters newConsenters).length ∨
        1 < (removedConsenters consenters newConsenters).length) ∧
      ∃ msg, computeMembershipChanges metadata consenters newConsenters = .error msg) := by
  have hInjective := hWellFormed.certsInjective
  obtain ⟨result, addedNodeIndex, deletedNodeID, hFacts, hEq⟩ :=
    computeMembershipChanges_scan metadata hInjective newConsenters
  have hBase := hFacts.get?_newConsenters hInjective hDistinct
  have hNextFresh : ∀ c ∈ newConsenters, knownId consenters c ≠ some metadata.nextConsenterId :=
    fun c _ hKnown => absurd (knownId_lt hWellFormed hKnown) (UInt64.lt_irrefl _)
  rw [hEq]
  unfold switchOnChanges
  rw [hFacts.added, hFacts.removed]
  rcases hAdded : addedConsenters consenters newConsenters with _ | ⟨a, _ | ⟨a', added⟩⟩ <;>
    rcases hRemoved : removedConsenters consenters newConsenters with _ | ⟨e, _ | ⟨e', removed⟩⟩
  case nil.nil =>
    refine .inr (.inr (.inr (.inl ⟨_, rfl, rfl, rfl, ⟨?_, keepsNewConsenters_of_nil hInjective hBase
      hAdded _, hNextFresh⟩, hFacts.nextConsenterId, hFacts.confChange⟩)))
    rw [hFacts.consenterIds, consenterIds_of_nil hInjective hAdded]
  case nil.cons.nil =>
    have hRemovedMem : e ∈ removedConsenters consenters newConsenters := by
      rw [hRemoved]
      exact List.mem_singleton_self e
    have hFresh : ∀ c ∈ newConsenters, (knownId consenters c).getD metadata.nextConsenterId ≠ e.1 := by
      intro c hMem
      cases hKnown : knownId consenters c with
      | none =>
        have hC := (mem_addedConsenters hInjective c).2 ⟨hMem, hKnown⟩
        rw [hAdded] at hC
        cases hC
      | some y =>
        rw [Option.getD_some]
        exact fun hY => knownId_ne_removed hInjective hRemovedMem hMem (hY ▸ hKnown)
    refine .inr (.inr (.inl ⟨e, _, rfl, rfl, rfl, ⟨?_, ?_, hNextFresh⟩, hFacts.nextConsenterId, ?_⟩))
    · show result.newBlockMetadata.consenterIds = _
      rw [hFacts.consenterIds, consenterIds_of_nil hInjective hAdded]
    · rw [hFacts.deleted e hRemoved]
      exact keepsNewConsenters_delete (keepsNewConsenters_of_nil hInjective hBase hAdded _) hFresh
    · show some _ = _
      rw [hFacts.deleted e hRemoved]
  case cons.nil.nil =>
    refine .inr (.inl ⟨a, _, rfl, rfl, rfl, ⟨?_, ?_, hNextFresh⟩, ?_, ?_⟩)
    · show (result.newBlockMetadata.consenterIds.set addedNodeIndex
        result.newBlockMetadata.nextConsenterId) = _
      rw [hFacts.consenterIds, hFacts.nextConsenterId,
        set_consenterIds hInjective hDistinct hAdded (hFacts.index a hAdded)]
    · show KeepsNewConsenters _ _ (result.newConsenters.insert
        result.newBlockMetadata.nextConsenterId a)
      rw [hFacts.nextConsenterId]
      exact keepsNewConsenters_insert hInjective hBase hAdded hNextFresh
    · show result.newBlockMetadata.nextConsenterId + 1 = _
      rw [hFacts.nextConsenterId]
    · show some (ConfChange.mk result.newBlockMetadata.nextConsenterId _) = _
      rw [hFacts.nextConsenterId]
  case cons.nil.cons.nil =>
    have hRemovedMem : e ∈ removedConsenters consenters newConsenters := by
      rw [hRemoved]
      exact List.mem_singleton_self e
    have hFresh : ∀ c ∈ newConsenters, knownId consenters c ≠ some e.1 :=
      fun c hMem => knownId_ne_removed hInjective hRemovedMem hMem
    refine .inl ⟨a, e, _, rfl, rfl, rfl, ⟨?_, ?_, hFresh⟩, hFacts.nextConsenterId,
      hFacts.confChange, ?_⟩
    · show (result.newBlockMetadata.consenterIds.set addedNodeIndex deletedNodeID) = _
      rw [hFacts.consenterIds, hFacts.deleted e hRemoved,
        set_consenterIds hInjective hDistinct hAdded (hFacts.index a hAdded)]
    · show KeepsNewConsenters _ _ (result.newConsenters.insert deletedNodeID a)
      rw [hFacts.deleted e hRemoved]
      exact keepsNewConsenters_insert hInjective hBase hAdded hFresh
    · exact hFacts.deleted e hRemoved
  all_goals
    right; right; right; right
    exact ⟨by simp, _, rfl⟩

namespace AssignsIds

variable {x : UInt64} {mc : MembershipChanges}

theorem get?_newConsenters (hAssigns : AssignsIds consenters newConsenters x mc) (id : UInt64)
    (c : Consenter) :
    mc.newConsenters.get? id = some c ↔
      ∃ i : ℕ, newConsenters[i]? = some c ∧ mc.newBlockMetadata.consenterIds[i]? = some id := by
  rw [hAssigns.2.1 id c, hAssigns.1]
  simp only [List.getElem?_map]
  constructor
  · rintro ⟨hMem, hAssigned⟩
    obtain ⟨i, hI⟩ := List.mem_iff_getElem?.1 hMem
    exact ⟨i, hI, by rw [hI, Option.map_some, hAssigned]⟩
  · rintro ⟨i, hI, hId⟩
    rw [hI, Option.map_some, Option.some.injEq] at hId
    exact ⟨List.mem_of_getElem? hI, hId⟩

theorem getElem?_consenterIds (hAssigns : AssignsIds consenters newConsenters x mc) {i : ℕ}
    {c : Consenter} (hI : newConsenters[i]? = some c) :
    mc.newBlockMetadata.consenterIds[i]? = some ((knownId consenters c).getD x) := by
  rw [hAssigns.1, List.getElem?_map, hI, Option.map_some]

theorem nodup (hAssigns : AssignsIds consenters newConsenters x mc)
    (hInjective : CertsInjective consenters)
    (hDistinct : (newConsenters.map (·.clientTlsCert)).Nodup)
    (hAtMostOne : (addedConsenters consenters newConsenters).length ≤ 1) :
    mc.newBlockMetadata.consenterIds.Nodup := by
  rw [hAssigns.1]
  exact nodup_assignedIds hInjective hDistinct hAssigns.2.2 hAtMostOne

theorem known_keeps_id (hAssigns : AssignsIds consenters newConsenters x mc)
    (hInjective : CertsInjective consenters) (i : ℕ) (c : Consenter) (id : UInt64) (c' : Consenter)
    (hI : newConsenters[i]? = some c) (hGet : consenters.get? id = some c')
    (hCert : c'.clientTlsCert = c.clientTlsCert) :
    mc.newBlockMetadata.consenterIds[i]? = some id := by
  rw [hAssigns.getElem?_consenterIds hI,
    (knownId_eq_some hInjective c id).2 ⟨c', hGet, hCert⟩, Option.getD_some]

theorem getElem?_of_added (hAssigns : AssignsIds consenters newConsenters x mc)
    (hInjective : CertsInjective consenters) {a : Consenter}
    (hAdded : a ∈ addedConsenters consenters newConsenters) {i : ℕ}
    (hI : newConsenters[i]? = some a) : mc.newBlockMetadata.consenterIds[i]? = some x := by
  rw [hAssigns.getElem?_consenterIds hI, ((mem_addedConsenters hInjective a).1 hAdded).2,
    Option.getD_none]

theorem wellFormed (hAssigns : AssignsIds consenters newConsenters x mc)
    (hInjective : CertsInjective consenters)
    (hDistinct : (newConsenters.map (·.clientTlsCert)).Nodup)
    (hAtMostOne : (addedConsenters consenters newConsenters).length ≤ 1)
    (hLt : ∀ c ∈ newConsenters,
      (knownId consenters c).getD x < mc.newBlockMetadata.nextConsenterId) :
    MembershipWellFormed mc.newBlockMetadata mc.newConsenters := by
  have hNodup := hAssigns.nodup hInjective hDistinct hAtMostOne
  obtain ⟨hIds, hKeeps, -⟩ := hAssigns
  refine ⟨?_, ?_, ?_, hNodup⟩
  · intro id id' c c' hGet hGet' hCert
    obtain ⟨hMem, rfl⟩ := (hKeeps id c).1 hGet
    obtain ⟨hMem', rfl⟩ := (hKeeps id' c').1 hGet'
    rw [List.inj_on_of_nodup_map hDistinct hMem hMem' hCert]
  · intro id hSome
    obtain ⟨c, hGet⟩ := Option.isSome_iff_exists.1 hSome
    obtain ⟨hMem, rfl⟩ := (hKeeps id c).1 hGet
    exact hLt c hMem
  · intro id
    rw [hIds, List.mem_map, Option.isSome_iff_exists]
    constructor
    · rintro ⟨c, hMem, hAssigned⟩
      exact ⟨c, (hKeeps id c).2 ⟨hMem, hAssigned⟩⟩
    · rintro ⟨c, hGet⟩
      exact ⟨c, (hKeeps id c).1 hGet⟩

end AssignsIds

end

/-- What a successful `ComputeMembershipChanges` returns: each new consenter under its id in the
new metadata, a known certificate keeping its id, a rotated node's id passed to the node that
replaces it, and a single added node taking `NextConsenterId`. -/
structure MembershipStep (metadata : BlockMetadata) (consenters : GoMap UInt64 Consenter)
    (newConsenters : List Consenter) (mc : MembershipChanges) : Prop where
  length_consenterIds : mc.newBlockMetadata.consenterIds.length = newConsenters.length
  get?_newConsenters : ∀ id c, mc.newConsenters.get? id = some c ↔
    ∃ i : ℕ, newConsenters[i]? = some c ∧ mc.newBlockMetadata.consenterIds[i]? = some id
  nodup_consenterIds : mc.newBlockMetadata.consenterIds.Nodup
  known_keeps_id : ∀ (i : ℕ) (c : Consenter) (id : UInt64) (c' : Consenter),
    newConsenters[i]? = some c → consenters.get? id = some c' →
    c'.clientTlsCert = c.clientTlsCert → mc.newBlockMetadata.consenterIds[i]? = some id
  rotation : ∀ (a : Consenter) (e : UInt64 × Consenter), addedConsenters consenters newConsenters = [a] →
    removedConsenters consenters newConsenters = [e] → mc.rotatedNode = e.1 ∧
      ∀ i : ℕ, newConsenters[i]? = some a → mc.newBlockMetadata.consenterIds[i]? = some e.1
  addition : ∀ a : Consenter, addedConsenters consenters newConsenters = [a] →
    removedConsenters consenters newConsenters = [] → ∀ i : ℕ, newConsenters[i]? = some a →
      mc.newBlockMetadata.consenterIds[i]? = some metadata.nextConsenterId
  nextConsenterId : mc.newBlockMetadata.nextConsenterId =
    if (addedConsenters consenters newConsenters).length = 1 ∧
      removedConsenters consenters newConsenters = [] then metadata.nextConsenterId + 1
    else metadata.nextConsenterId
  confChange_addNode : (∃ id, mc.confChange = some ⟨id, .confChangeAddNode⟩) ↔
    (addedConsenters consenters newConsenters).length = 1 ∧
      removedConsenters consenters newConsenters = []
  confChange_removeNode : (∃ id, mc.confChange = some ⟨id, .confChangeRemoveNode⟩) ↔
    addedConsenters consenters newConsenters = [] ∧
      (removedConsenters consenters newConsenters).length = 1

section

variable {metadata : BlockMetadata} {consenters : GoMap UInt64 Consenter}
  {newConsenters : List Consenter} {x : UInt64} {mc : MembershipChanges}

theorem AssignsIds.membershipStep (hAssigns : AssignsIds consenters newConsenters x mc)
    (hInjective : CertsInjective consenters)
    (hDistinct : (newConsenters.map (·.clientTlsCert)).Nodup)
    (hAtMostOne : (addedConsenters consenters newConsenters).length ≤ 1)
    (hRotation : ∀ a e, addedConsenters consenters newConsenters = [a] →
      removedConsenters consenters newConsenters = [e] → mc.rotatedNode = e.1 ∧ x = e.1)
    (hAddition : ∀ a, addedConsenters consenters newConsenters = [a] →
      removedConsenters consenters newConsenters = [] → x = metadata.nextConsenterId)
    (hNext : mc.newBlockMetadata.nextConsenterId =
      if (addedConsenters consenters newConsenters).length = 1 ∧
        removedConsenters consenters newConsenters = [] then metadata.nextConsenterId + 1
      else metadata.nextConsenterId)
    (hAddNode : (∃ id, mc.confChange = some ⟨id, .confChangeAddNode⟩) ↔
      (addedConsenters consenters newConsenters).length = 1 ∧
        removedConsenters consenters newConsenters = [])
    (hRemoveNode : (∃ id, mc.confChange = some ⟨id, .confChangeRemoveNode⟩) ↔
      addedConsenters consenters newConsenters = [] ∧
        (removedConsenters consenters newConsenters).length = 1) :
    MembershipStep metadata consenters newConsenters mc where
  length_consenterIds := by rw [hAssigns.1, List.length_map]
  get?_newConsenters := hAssigns.get?_newConsenters
  nodup_consenterIds := hAssigns.nodup hInjective hDistinct hAtMostOne
  known_keeps_id := hAssigns.known_keeps_id hInjective
  rotation a e hAdded hRemoved := by
    obtain ⟨hRotated, rfl⟩ := hRotation a e hAdded hRemoved
    refine ⟨hRotated, fun i hI => hAssigns.getElem?_of_added hInjective ?_ hI⟩
    rw [hAdded]
    exact List.mem_singleton_self a
  addition a hAdded hRemoved i hI := by
    rw [← hAddition a hAdded hRemoved]
    refine hAssigns.getElem?_of_added hInjective ?_ hI
    rw [hAdded]
    exact List.mem_singleton_self a
  nextConsenterId := hNext
  confChange_addNode := hAddNode
  confChange_removeNode := hRemoveNode

theorem computeMembershipChanges_step (hWellFormed : MembershipWellFormed metadata consenters)
    (hDistinct : (newConsenters.map (·.clientTlsCert)).Nodup) :
    ((∃ msg, computeMembershipChanges metadata consenters newConsenters = .error msg) ↔
      1 < (addedConsenters consenters newConsenters).length ∨
        1 < (removedConsenters consenters newConsenters).length) ∧
    ∀ mc, computeMembershipChanges metadata consenters newConsenters = .ok mc →
      MembershipStep metadata consenters newConsenters mc := by
  have hInjective := hWellFormed.certsInjective
  rcases computeMembershipChanges_cases hWellFormed hDistinct with
    ⟨a, e, mc, hAdded, hRemoved, hEq, hAssigns, hNext, hConf, hRotated⟩ |
    ⟨a, mc, hAdded, hRemoved, hEq, hAssigns, hNext, hConf⟩ |
    ⟨e, mc, hAdded, hRemoved, hEq, hAssigns, hNext, hConf⟩ |
    ⟨mc, hAdded, hRemoved, hEq, hAssigns, hNext, hConf⟩ | ⟨hMore, msg, hEq⟩
  · rw [hEq]
    refine ⟨by simp [hAdded, hRemoved], fun mc' hOk => ?_⟩
    cases hOk
    refine hAssigns.membershipStep hInjective hDistinct (by simp [hAdded])
      (fun a' e' _ hRemoved' => ?_) (fun a' _ hRemoved' => ?_) (by simp [hNext, hAdded, hRemoved])
      (by simp [hConf, hAdded, hRemoved]) (by simp [hConf, hAdded, hRemoved])
    · rw [hRemoved, List.cons.injEq] at hRemoved'
      obtain ⟨rfl, -⟩ := hRemoved'
      exact ⟨hRotated, rfl⟩
    · rw [hRemoved] at hRemoved'
      cases hRemoved'
  · rw [hEq]
    refine ⟨by simp [hAdded, hRemoved], fun mc' hOk => ?_⟩
    cases hOk
    refine hAssigns.membershipStep hInjective hDistinct (by simp [hAdded])
      (fun a' e' _ hRemoved' => ?_) (fun _ _ _ => rfl) (by simp [hNext, hAdded, hRemoved])
      (by simp [hConf, hAdded, hRemoved]) (by simp [hConf, hAdded, hRemoved])
    rw [hRemoved] at hRemoved'
    cases hRemoved'
  · rw [hEq]
    refine ⟨by simp [hAdded, hRemoved], fun mc' hOk => ?_⟩
    cases hOk
    refine hAssigns.membershipStep hInjective hDistinct (by simp [hAdded])
      (fun a' e' hAdded' _ => ?_) (fun a' hAdded' _ => ?_) (by simp [hNext, hAdded, hRemoved])
      (by simp [hConf, hAdded, hRemoved]) (by simp [hConf, hAdded, hRemoved])
    all_goals exact absurd (hAdded.symm.trans hAdded') (List.cons_ne_nil _ _).symm
  · rw [hEq]
    refine ⟨by simp [hAdded, hRemoved], fun mc' hOk => ?_⟩
    cases hOk
    refine hAssigns.membershipStep hInjective hDistinct (by simp [hAdded])
      (fun a' e' hAdded' _ => ?_) (fun a' hAdded' _ => ?_) (by simp [hNext, hAdded, hRemoved])
      (by simp [hConf, hAdded, hRemoved]) (by simp [hConf, hAdded, hRemoved])
    all_goals exact absurd (hAdded.symm.trans hAdded') (List.cons_ne_nil _ _).symm
  · refine ⟨iff_of_true ⟨msg, hEq⟩ hMore, fun mc hOk => ?_⟩
    rw [hEq] at hOk
    cases hOk

theorem membershipWellFormed_computeMembershipChanges
    (hWellFormed : MembershipWellFormed metadata consenters)
    (hDistinct : (newConsenters.map (·.clientTlsCert)).Nodup)
    (hNoWrap : metadata.nextConsenterId.toNat + 1 < 2 ^ 64)
    (hOk : computeMembershipChanges metadata consenters newConsenters = .ok mc) :
    MembershipWellFormed mc.newBlockMetadata mc.newConsenters ∧
      metadata.nextConsenterId.toNat ≤ mc.newBlockMetadata.nextConsenterId.toNat ∧
      mc.newBlockMetadata.nextConsenterId.toNat ≤ metadata.nextConsenterId.toNat + 1 := by
  have hInjective := hWellFormed.certsInjective
  have hKnownLt : ∀ c ∈ newConsenters, ∀ y, knownId consenters c = some y →
      y.toNat < metadata.nextConsenterId.toNat :=
    fun c _ y hKnown => UInt64.lt_iff_toNat_lt.1 (knownId_lt hWellFormed hKnown)
  have hAssignedLt : ∀ (x : UInt64) (n : UInt64), metadata.nextConsenterId.toNat ≤ n.toNat →
      ((addedConsenters consenters newConsenters).length = 0 ∨ x.toNat < n.toNat) →
      ∀ c ∈ newConsenters, (knownId consenters c).getD x < n := by
    intro x n hLe hX c hMem
    rw [UInt64.lt_iff_toNat_lt]
    cases hKnown : knownId consenters c with
    | some y =>
      have := hKnownLt c hMem y hKnown
      rw [Option.getD_some]
      omega
    | none =>
      rcases hX with hNil | hX
      · have hC := (mem_addedConsenters hInjective c).2 ⟨hMem, hKnown⟩
        rw [List.length_eq_zero_iff.1 hNil] at hC
        cases hC
      · exact hX
  rcases computeMembershipChanges_cases hWellFormed hDistinct with
    ⟨a, e, mc', hAdded, hRemoved, hEq, hAssigns, hNext, -, -⟩ |
    ⟨a, mc', hAdded, hRemoved, hEq, hAssigns, hNext, -⟩ |
    ⟨e, mc', hAdded, hRemoved, hEq, hAssigns, hNext, -⟩ |
    ⟨mc', hAdded, hRemoved, hEq, hAssigns, hNext, -⟩ | ⟨-, msg, hEq⟩
  all_goals rw [hEq] at hOk
  all_goals try cases hOk
  · have hRemovedMem : e ∈ consenters.entries := by
      have h : e ∈ removedConsenters consenters newConsenters := by
        rw [hRemoved]
        exact List.mem_singleton_self e
      exact (List.mem_filter.1 h).1
    have hELt : e.1.toNat < metadata.nextConsenterId.toNat := by
      have hGet := (GoMap.mem_entries _ e).1 hRemovedMem
      exact UInt64.lt_iff_toNat_lt.1 (hWellFormed.lt_next e.1 (by rw [hGet]; rfl))
    have hNextNat := congrArg UInt64.toNat hNext
    refine ⟨hAssigns.wellFormed hInjective hDistinct (by simp [hAdded]) ?_, ?_, ?_⟩
    · exact hAssignedLt _ _ (by omega) (.inr (by omega))
    all_goals omega
  · have hSucc : (metadata.nextConsenterId + 1).toNat = metadata.nextConsenterId.toNat + 1 := by
      rw [UInt64.toNat_add, UInt64.toNat_one, Nat.mod_eq_of_lt hNoWrap]
    have hNextNat := congrArg UInt64.toNat hNext
    rw [hSucc] at hNextNat
    refine ⟨hAssigns.wellFormed hInjective hDistinct (by simp [hAdded]) ?_, ?_, ?_⟩
    · exact hAssignedLt _ _ (by omega) (.inr (by omega))
    all_goals omega
  all_goals
    have hNextNat := congrArg UInt64.toNat hNext
    refine ⟨hAssigns.wellFormed hInjective hDistinct (by simp [hAdded]) ?_, ?_, ?_⟩
    · exact hAssignedLt _ _ (by omega) (.inl (by simp [hAdded]))
    all_goals omega

end

theorem membershipWellFormed_singleton (id nextConsenterId raftIndex : UInt64) (c : Consenter)
    (hLt : id < nextConsenterId) :
    MembershipWellFormed ⟨[id], nextConsenterId, raftIndex⟩ (GoMap.empty.insert id c) := by
  have hGet : ∀ id', (GoMap.empty.insert id c : GoMap UInt64 Consenter).get? id' =
      if id' = id then some c else none := by
    intro id'
    rw [GoMap.get?_insert, GoMap.get?_empty]
  refine ⟨?_, ?_, ?_, List.nodup_singleton id⟩
  · intro id₁ id₂ c₁ c₂ hGet₁ hGet₂ _
    rw [hGet] at hGet₁ hGet₂
    split at hGet₁ <;> split at hGet₂ <;> simp_all
  · intro id' hSome
    rw [hGet] at hSome
    split at hSome
    · subst_vars
      exact hLt
    · cases hSome
  · intro id'
    rw [hGet, List.mem_singleton]
    split <;> simp_all

/-! ## Runs of membership changes -/

def applyMembershipUpdate (state : BlockMetadata × GoMap UInt64 Consenter)
    (newConsenters : List Consenter) : BlockMetadata × GoMap UInt64 Consenter :=
  match computeMembershipChanges state.1 state.2 newConsenters with
  | .ok mc => (mc.newBlockMetadata, mc.newConsenters)
  | .error _ => state

/-- The configuration after the first `k` updates. -/
def membershipAfter (metadata : BlockMetadata) (consenters : GoMap UInt64 Consenter)
    (updates : List (List Consenter)) (k : ℕ) : BlockMetadata × GoMap UInt64 Consenter :=
  (updates.take k).foldl applyMembershipUpdate (metadata, consenters)

theorem membershipAfter_succ (metadata : BlockMetadata) (consenters : GoMap UInt64 Consenter)
    (updates : List (List Consenter)) (k : ℕ) (hk : k < updates.length) :
    membershipAfter metadata consenters updates (k + 1) =
      applyMembershipUpdate (membershipAfter metadata consenters updates k) updates[k] := by
  rw [membershipAfter, membershipAfter, List.take_add_one, List.getElem?_eq_getElem hk,
    Option.toList_some, List.foldl_append, List.foldl_cons, List.foldl_nil]

section

variable {metadata : BlockMetadata} {consenters : GoMap UInt64 Consenter}
  {updates : List (List Consenter)}

theorem membershipAfter_wellFormed (hWellFormed : MembershipWellFormed metadata consenters)
    (hDistinct : ∀ newConsenters ∈ updates, (newConsenters.map (·.clientTlsCert)).Nodup)
    (hNoWrap : metadata.nextConsenterId.toNat + updates.length < 2 ^ 64) :
    ∀ k ≤ updates.length,
      MembershipWellFormed (membershipAfter metadata consenters updates k).1
        (membershipAfter metadata consenters updates k).2 ∧
      (membershipAfter metadata consenters updates k).1.nextConsenterId.toNat ≤
        metadata.nextConsenterId.toNat + k ∧
      ∀ j ≤ k, (membershipAfter metadata consenters updates j).1.nextConsenterId.toNat ≤
        (membershipAfter metadata consenters updates k).1.nextConsenterId.toNat := by
  intro k
  induction k with
  | zero =>
    intro _
    refine ⟨hWellFormed, by simp [membershipAfter], fun j hj => ?_⟩
    obtain rfl := Nat.le_zero.1 hj
    exact Nat.le_refl _
  | succ k ih =>
    intro hk
    obtain ⟨hWellFormedK, hBoundK, hMonoK⟩ := ih (by omega)
    rw [membershipAfter_succ metadata consenters updates k (by omega)]
    have hStep : MembershipWellFormed
          (applyMembershipUpdate (membershipAfter metadata consenters updates k) updates[k]).1
          (applyMembershipUpdate (membershipAfter metadata consenters updates k) updates[k]).2 ∧
        (membershipAfter metadata consenters updates k).1.nextConsenterId.toNat ≤
          (applyMembershipUpdate (membershipAfter metadata consenters updates k)
            updates[k]).1.nextConsenterId.toNat ∧
        (applyMembershipUpdate (membershipAfter metadata consenters updates k)
            updates[k]).1.nextConsenterId.toNat ≤
          (membershipAfter metadata consenters updates k).1.nextConsenterId.toNat + 1 := by
      unfold applyMembershipUpdate
      split
      · rename_i mc hOk
        exact membershipWellFormed_computeMembershipChanges hWellFormedK
          (hDistinct _ (List.getElem_mem _)) (by omega) hOk
      · exact ⟨hWellFormedK, Nat.le_refl _, Nat.le_succ _⟩
    obtain ⟨hWellFormedSucc, hGrow, hBound⟩ := hStep
    refine ⟨hWellFormedSucc, by omega, fun j hj => ?_⟩
    rcases Nat.lt_or_eq_of_le hj with hj | rfl
    · rw [← membershipAfter_succ metadata consenters updates k (by omega)] at hGrow ⊢
      exact Nat.le_trans (hMonoK j (by omega)) hGrow
    · exact Nat.le_of_eq (by rw [membershipAfter_succ metadata consenters updates k (by omega)])

/-- Consenter ids stay consistent along any run of membership changes whose `NextConsenterId`
cannot wrap: each change fails exactly when more than one consenter is added or removed, and
otherwise returns what `MembershipStep` states, leaves a well-formed configuration, and a
`NextConsenterId` above every id given so far. -/
theorem computeMembershipChanges_keeps_ids (hWellFormed : MembershipWellFormed metadata consenters)
    (hDistinct : ∀ newConsenters ∈ updates, (newConsenters.map (·.clientTlsCert)).Nodup)
    (hNoWrap : metadata.nextConsenterId.toNat + updates.length < 2 ^ 64) (k : ℕ)
    (hk : k < updates.length) :
    MembershipWellFormed (membershipAfter metadata consenters updates k).1
        (membershipAfter metadata consenters updates k).2 ∧
    ((∃ msg, computeMembershipChanges (membershipAfter metadata consenters updates k).1
        (membershipAfter metadata consenters updates k).2 updates[k] = .error msg) ↔
      1 < (addedConsenters (membershipAfter metadata consenters updates k).2 updates[k]).length ∨
        1 < (removedConsenters (membershipAfter metadata consenters updates k).2
          updates[k]).length) ∧
    ∀ mc, computeMembershipChanges (membershipAfter metadata consenters updates k).1
        (membershipAfter metadata consenters updates k).2 updates[k] = .ok mc →
      MembershipStep (membershipAfter metadata consenters updates k).1
          (membershipAfter metadata consenters updates k).2 updates[k] mc ∧
        MembershipWellFormed mc.newBlockMetadata mc.newConsenters ∧
        ∀ j ≤ k, ∀ id ∈ (membershipAfter metadata consenters updates j).1.consenterIds,
          id < mc.newBlockMetadata.nextConsenterId := by
  have hRun := membershipAfter_wellFormed hWellFormed hDistinct hNoWrap
  obtain ⟨hWellFormedK, hBoundK, hMonoK⟩ := hRun k (by omega)
  have hDistinctK := hDistinct _ (List.getElem_mem hk)
  obtain ⟨hError, hOk⟩ := computeMembershipChanges_step hWellFormedK hDistinctK
  refine ⟨hWellFormedK, hError, fun mc hComputed => ?_⟩
  obtain ⟨hWellFormedNew, hGrow, -⟩ :=
    membershipWellFormed_computeMembershipChanges hWellFormedK hDistinctK (by omega) hComputed
  refine ⟨hOk mc hComputed, hWellFormedNew, fun j hj id hId => ?_⟩
  obtain ⟨hWellFormedJ, -, -⟩ := hRun j (by omega)
  have hLt := UInt64.lt_iff_toNat_lt.1
    (hWellFormedJ.lt_next id ((hWellFormedJ.mem_consenterIds id).1 hId))
  rw [UInt64.lt_iff_toNat_lt]
  exact Nat.lt_of_lt_of_le hLt (Nat.le_trans (hMonoK j hj) hGrow)

end

theorem computeMembershipChanges_keeps_ids_adding_node :
    ∃ mc, computeMembershipChanges ⟨[1], 2, 0⟩
        (GoMap.empty.insert 1 ⟨"orderer1", 7050, [1], [11]⟩)
        [⟨"orderer1", 7050, [1], [11]⟩, ⟨"orderer2", 7050, [2], [12]⟩] = .ok mc ∧
      MembershipStep ⟨[1], 2, 0⟩ (GoMap.empty.insert 1 ⟨"orderer1", 7050, [1], [11]⟩)
        [⟨"orderer1", 7050, [1], [11]⟩, ⟨"orderer2", 7050, [2], [12]⟩] mc ∧
      MembershipWellFormed mc.newBlockMetadata mc.newConsenters ∧
      mc.newBlockMetadata.consenterIds = [1, 2] := by
  obtain ⟨-, -, hOk⟩ := @computeMembershipChanges_keeps_ids ⟨[1], 2, 0⟩
    (GoMap.empty.insert 1 ⟨"orderer1", 7050, [1], [11]⟩)
    [[⟨"orderer1", 7050, [1], [11]⟩, ⟨"orderer2", 7050, [2], [12]⟩]]
    (membershipWellFormed_singleton 1 2 0 _ (by decide)) (by decide) (by decide) 0 (by decide)
  obtain ⟨hStep, hWellFormed, -⟩ := hOk _ rfl
  exact ⟨_, rfl, hStep, hWellFormed, rfl⟩

theorem computeMembershipChanges_reuses_id_after_wrap :
    MembershipWellFormed ⟨[1], 18446744073709551615, 0⟩
        (GoMap.empty.insert 1 ⟨"orderer1", 7050, [1], [11]⟩) ∧
    ∃ mc₁ mc₂ mc₃ : MembershipChanges,
      computeMembershipChanges ⟨[1], 18446744073709551615, 0⟩
        (GoMap.empty.insert 1 ⟨"orderer1", 7050, [1], [11]⟩)
        [⟨"orderer1", 7050, [1], [11]⟩, ⟨"orderer2", 7050, [2], [12]⟩] = .ok mc₁ ∧
      mc₁.newBlockMetadata.consenterIds = [1, 18446744073709551615] ∧
      mc₁.newBlockMetadata.nextConsenterId = 0 ∧
      computeMembershipChanges mc₁.newBlockMetadata mc₁.newConsenters
        [⟨"orderer1", 7050, [1], [11]⟩, ⟨"orderer2", 7050, [2], [12]⟩,
          ⟨"orderer3", 7050, [3], [13]⟩] = .ok mc₂ ∧
      computeMembershipChanges mc₂.newBlockMetadata mc₂.newConsenters
        [⟨"orderer1", 7050, [1], [11]⟩, ⟨"orderer2", 7050, [2], [12]⟩,
          ⟨"orderer3", 7050, [3], [13]⟩, ⟨"orderer4", 7050, [4], [14]⟩] = .ok mc₃ ∧
      mc₃.newBlockMetadata.consenterIds = [1, 18446744073709551615, 0, 1] ∧
      mc₃.newConsenters.get? 1 = some ⟨"orderer4", 7050, [4], [14]⟩ :=
  ⟨membershipWellFormed_singleton 1 18446744073709551615 0 _ (by decide),
    _, _, _, rfl, by decide, by decide, rfl, rfl, by decide, by decide⟩

end FabricPeer.Orderer
