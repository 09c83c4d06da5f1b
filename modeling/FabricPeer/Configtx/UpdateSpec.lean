import FabricPeer.Configtx.Update

/-! # What an authorized config update checks

An accepted update is the config with a non-empty delta laid over it, each element of which passed
`verifyDeltaSet`. Read sets make concurrent updates of one element conflict: once one update is
applied, a second one that read the element at the version the first replaced is refused
(`authorizeUpdate_refuses_stale_read`). The last check, `verifyFullProposedConfig`, cannot fail
once the read set has been verified (`verifyFullProposedConfig_eq_ok_of_verifyReadSet`).
-/
namespace FabricPeer.Configtx

open FabricPeer.Ledger (Bytes)
open FabricPeer.Protoutil (SignedData)
open FabricPeer.Blkstorage (errorsWrap errorsWrap_eq_ok)
open GoRun

set_option autoImplicit false

section Overlay

def unchangedInReadSet (readSet : ConfigMap) (key : String) (value : Comparable) : Bool :=
  (readSet.get? key).any fun readVal => readVal.version == value.version

theorem computeDeltaSet_eq_foldl_filter (readSet writeSet : ConfigMap) :
    computeDeltaSet readSet writeSet =
      (writeSet.entries.filter fun e => !unchangedInReadSet readSet e.1 e.2).foldl
        (fun r e => r.insert e.1 e.2) GoMap.empty := by
  rw [List.foldl_filter, computeDeltaSet]
  congr 1
  funext result e
  obtain ⟨key, value⟩ := e
  cases hRead : readSet.get? key with
  | none => simp [unchangedInReadSet, hRead]
  | some readVal =>
    by_cases hVersion : readVal.version = value.version <;>
      simp [unchangedInReadSet, hRead, hVersion]

theorem get?_computeDeltaSet (readSet writeSet : ConfigMap) (key : String) :
    (computeDeltaSet readSet writeSet).get? key =
      (writeSet.get? key).filter fun value => !unchangedInReadSet readSet key value := by
  rw [computeDeltaSet_eq_foldl_filter, GoMap.get?_foldl_insert_entries, GoMap.get?_empty,
    Option.or_none]

variable {M : Type}

theorem get?_computeUpdateResult (vi : ValidatorImpl M) (updatedConfig : ConfigMap)
    (key : String) :
    (vi.computeUpdateResult updatedConfig).get? key =
      (updatedConfig.get? key).or (vi.configMap.get? key) := by
  have hCopy := GoMap.get?_foldl_insert_entries vi.configMap GoMap.empty (fun _ => true) key
  have hOverlay := GoMap.get?_foldl_insert_entries updatedConfig
    (vi.configMap.entries.foldl (fun m e => m.insert e.1 e.2) GoMap.empty) (fun _ => true) key
  have hAll : ∀ o : Option Comparable, o.filter (fun _ => true) = o := fun o => by cases o <;> rfl
  simp only [List.filter_true, hAll, GoMap.get?_empty, Option.or_none] at hCopy hOverlay
  rw [ValidatorImpl.computeUpdateResult, hOverlay, hCopy]

end Overlay

section Checks

variable {M : Type} (mgr : Manager M) (codec : UpdateCodec)

theorem verifyReadSet_eq_ok_iff (vi : ValidatorImpl M) (readSet : ConfigMap) :
    vi.verifyReadSet readSet = .ok () ↔
      ∀ key value, readSet.get? key = some value →
        ∃ existing, vi.configMap.get? key = some existing ∧
          existing.version = value.version := by
  rw [ValidatorImpl.verifyReadSet, forM_eq_ok_iff]
  constructor
  · intro h key value hGet
    have hBody := h (key, value) ((GoMap.mem_entries _ _).2 hGet)
    cases hExisting : vi.configMap.get? key with
    | none => simp [hExisting] at hBody
    | some existing =>
      refine ⟨existing, rfl, ?_⟩
      by_contra hNe
      simp [hExisting, hNe] at hBody
  · rintro h ⟨key, value⟩ hMem
    obtain ⟨existing, hExisting, hVersion⟩ := h key value ((GoMap.mem_entries _ _).1 hMem)
    simp [hExisting, hVersion]

def DeltaAuthorized (vi : ValidatorImpl M) (signedData : List SignedData) (key : String)
    (value : Comparable) : Prop :=
  validateModPolicy value.modPolicy = .ok () ∧
    match vi.configMap.get? key with
    | none => value.version = 0
    | some existing => value.version = existing.version + 1 ∧
        ∃ policy, vi.policyForItem mgr existing = some policy ∧ policy signedData = .ok ()

theorem verifyDeltaElement_eq_ok_iff (vi : ValidatorImpl M) (signedData : List SignedData)
    (key : String) (value : Comparable) :
    vi.verifyDeltaElement mgr signedData key value = .ok () ↔
      DeltaAuthorized mgr vi signedData key value := by
  rw [ValidatorImpl.verifyDeltaElement, bind_eq_ok_unit, DeltaAuthorized]
  simp only [errorsWrap_eq_ok]
  cases hExisting : vi.configMap.get? key with
  | none => by_cases hVersion : value.version = 0 <;> simp [hVersion]
  | some existing =>
    by_cases hVersion : value.version = existing.version + 1
    · cases hPolicy : vi.policyForItem mgr existing with
      | none => simp [hVersion, hPolicy]
      | some policy => simp [hVersion, hPolicy, errorsWrap_eq_ok]
    · simp [hVersion]

theorem verifyDeltaSet_eq_ok_iff (vi : ValidatorImpl M) (deltaSet : ConfigMap)
    (signedData : List SignedData) :
    vi.verifyDeltaSet mgr deltaSet signedData = .ok () ↔
      deltaSet.keys ≠ [] ∧
        ∀ key value, deltaSet.get? key = some value →
          DeltaAuthorized mgr vi signedData key value := by
  rw [ValidatorImpl.verifyDeltaSet]
  by_cases hEmpty : deltaSet.keys.length = 0
  · simp [List.length_eq_zero_iff.1 hEmpty]
  · rw [if_neg hEmpty, forM_eq_ok_iff]
    refine ⟨fun h => ⟨fun hNil => hEmpty (by rw [hNil]; rfl), fun key value hGet => ?_⟩,
      fun h ⟨key, value⟩ hMem => ?_⟩
    · exact (verifyDeltaElement_eq_ok_iff mgr vi signedData key value).1
        (h (key, value) ((GoMap.mem_entries _ _).2 hGet))
    · exact (verifyDeltaElement_eq_ok_iff mgr vi signedData key value).2
        (h.2 key value ((GoMap.mem_entries _ _).1 hMem))

theorem verifyFullProposedConfig_eq_ok_iff (writeSet fullProposedConfig : ConfigMap) :
    verifyFullProposedConfig writeSet fullProposedConfig = .ok () ↔
      ∀ key, (writeSet.get? key).isSome → (fullProposedConfig.get? key).isSome := by
  rw [verifyFullProposedConfig, forM_eq_ok_iff]
  refine forall_congr' fun key => ?_
  rw [GoMap.mem_keys]
  by_cases hContains : (fullProposedConfig.get? key).isSome <;>
    simp [GoMap.contains_eq_isSome, hContains]

theorem authorizeUpdate_eq_ok {vi : ValidatorImpl M} {configUpdateEnv : ConfigUpdateEnvelope}
    {full : ConfigMap} (h : vi.authorizeUpdate mgr codec configUpdateEnv = .ok full) :
    ∃ configUpdate readSet writeSet signedData,
      codec.unmarshalConfigUpdate configUpdateEnv.configUpdate = .ok configUpdate ∧
      configUpdate.channelId = vi.channelID ∧
      mapConfig configUpdate.readSet vi.«namespace» = .ok readSet ∧
      vi.verifyReadSet readSet = .ok () ∧
      mapConfig configUpdate.writeSet vi.«namespace» = .ok writeSet ∧
      configUpdateEnvelopeAsSignedData codec configUpdateEnv = .ok signedData ∧
      vi.verifyDeltaSet mgr (computeDeltaSet readSet writeSet) signedData = .ok () ∧
      full = vi.computeUpdateResult (computeDeltaSet readSet writeSet) := by
  simp only [ValidatorImpl.authorizeUpdate, bind_eq_ok, ofExcept_eq_ok] at h
  obtain ⟨configUpdate, hUpdate, h⟩ := h
  by_cases hChannel : configUpdate.channelId = vi.channelID
  · rw [if_neg (not_not.2 hChannel)] at h
    simp only [bind_eq_ok, wrapf_eq_ok, ofExcept_eq_ok] at h
    obtain ⟨readSet, hRead, ⟨⟩, hVerifyRead, writeSet, hWrite, signedData, hSigned, ⟨⟩,
      hDelta, ⟨⟩, -, hFull⟩ := h
    cases hFull
    exact ⟨configUpdate, readSet, writeSet, signedData, hUpdate, hChannel, hRead, hVerifyRead,
      hWrite, hSigned, hDelta, rfl⟩
  · simp [hChannel] at h

end Checks

section Authorization

variable {M : Type} (mgr : Manager M) (codec : UpdateCodec)

theorem exists_delta_of_authorizeUpdate {vi : ValidatorImpl M}
    {configUpdateEnv : ConfigUpdateEnvelope} {full : ConfigMap}
    (h : vi.authorizeUpdate mgr codec configUpdateEnv = .ok full) :
    ∃ deltaSet signedData,
      configUpdateEnvelopeAsSignedData codec configUpdateEnv = .ok signedData ∧
      full = vi.computeUpdateResult deltaSet ∧ deltaSet.keys ≠ [] ∧
      ∀ key value, deltaSet.get? key = some value →
        DeltaAuthorized mgr vi signedData key value := by
  obtain ⟨-, readSet, writeSet, signedData, -, -, -, -, -, hSigned, hDelta, rfl⟩ :=
    authorizeUpdate_eq_ok mgr codec h
  exact ⟨_, signedData, hSigned, rfl, (verifyDeltaSet_eq_ok_iff mgr vi _ signedData).1 hDelta⟩

def adminsGroup : ConfigGroup :=
  ⟨0, [], [("A", ⟨0, [0], "Admins"⟩)], [("Admins", ⟨0, none, "Admins"⟩)], "Admins"⟩

def adminsManager : Manager Unit :=
  ⟨fun _ name => if name = "Admins" then
      some fun signedData => if signedData.length = 1 then .ok () else .error "not satisfied"
    else none,
    fun _ _ => some ()⟩

def valueUpdate (v : UInt8) : ConfigUpdate :=
  ⟨"mychannel", some ⟨0, [], [("A", ⟨0, [0], "Admins"⟩)], [], ""⟩,
    some ⟨0, [], [("A", ⟨1, [v], "Admins"⟩)], [], ""⟩⟩

def valueCodec : UpdateCodec :=
  ⟨fun bytes => .ok ⟨bytes, [⟨[0], [0]⟩]⟩, fun bytes => .ok (valueUpdate (bytes.headD 0)),
    fun header => .ok header⟩

def valueUpdateEnvelope (v : UInt8) : ConfigUpdateEnvelope := ⟨[v], [⟨[0], [0]⟩]⟩

def adminsValidator : ValidatorImpl Unit :=
  ⟨"mychannel", 4, (mapConfig (some adminsGroup) "Channel").toOption.getD GoMap.empty,
    ⟨4, some adminsGroup⟩, "Channel", ()⟩

theorem authorizeUpdate_valueUpdate_toBool :
    (adminsValidator.authorizeUpdate adminsManager valueCodec
      (valueUpdateEnvelope 1)).toBool = true := by
  decide

theorem exists_get?_computeUpdateResult {vi : ValidatorImpl M} {deltaSet : ConfigMap}
    {signedData : List SignedData}
    (hAuthorized : ∀ key value, deltaSet.get? key = some value →
      DeltaAuthorized mgr vi signedData key value)
    {key : String} {existing : Comparable} (hExisting : vi.configMap.get? key = some existing) :
    ∃ value, (vi.computeUpdateResult deltaSet).get? key = some value ∧
      (value = existing ∨ value.version = existing.version + 1) := by
  rw [get?_computeUpdateResult, hExisting]
  cases hDelta : deltaSet.get? key with
  | none => exact ⟨existing, rfl, .inl rfl⟩
  | some value =>
    have hAuth := hAuthorized key value hDelta
    rw [DeltaAuthorized, hExisting] at hAuth
    exact ⟨value, rfl, .inr hAuth.2.1⟩

/-- Of two updates read from one config, once the first is applied the second is refused if its
read set names, at the version the first replaced, an element the first changed: read sets make
concurrent updates of one element conflict. -/
theorem authorizeUpdate_refuses_stale_read {vi vi' : ValidatorImpl M}
    {configUpdateEnv configUpdateEnv' : ConfigUpdateEnvelope} {full : ConfigMap}
    (h : vi.authorizeUpdate mgr codec configUpdateEnv = .ok full)
    (hNext : ∀ key, vi'.configMap.get? key = full.get? key)
    {configUpdate : ConfigUpdate} {readSet : ConfigMap}
    (hUpdate : codec.unmarshalConfigUpdate configUpdateEnv'.configUpdate = .ok configUpdate)
    (hReadSet : mapConfig configUpdate.readSet vi'.«namespace» = .ok readSet)
    {key : String} {existing read : Comparable}
    (hExisting : vi.configMap.get? key = some existing) (hChanged : full.get? key ≠ some existing)
    (hRead : readSet.get? key = some read) (hVersion : read.version = existing.version) :
    ∃ err, vi'.authorizeUpdate mgr codec configUpdateEnv' = .error err := by
  obtain ⟨deltaSet, signedData, -, rfl, -, hAuthorized⟩ :=
    exists_delta_of_authorizeUpdate mgr codec h
  obtain ⟨value, hValue, hSame | hUp⟩ :=
    exists_get?_computeUpdateResult mgr hAuthorized hExisting
  · exact absurd (hSame ▸ hValue) hChanged
  cases h' : vi'.authorizeUpdate mgr codec configUpdateEnv' with
  | error err => exact ⟨err, rfl⟩
  | ok full' =>
    obtain ⟨configUpdate', readSet', -, -, hUpdate', -, hReadSet', hVerify, -⟩ :=
      authorizeUpdate_eq_ok mgr codec h'
    rw [hUpdate] at hUpdate'
    cases hUpdate'
    rw [hReadSet] at hReadSet'
    cases hReadSet'
    obtain ⟨current, hCurrent, hCurrentVersion⟩ :=
      (verifyReadSet_eq_ok_iff vi' readSet).1 hVerify key read hRead
    rw [hNext, hValue] at hCurrent
    cases hCurrent
    exact absurd (hUp.symm.trans (hCurrentVersion.trans hVersion)) (by grind)

def valueReadSet : ConfigMap :=
  (mapConfig (valueUpdate 0).readSet "Channel").toOption.getD GoMap.empty

def valueWriteSet (v : UInt8) : ConfigMap :=
  (mapConfig (valueUpdate v).writeSet "Channel").toOption.getD GoMap.empty

theorem mapConfig_valueUpdate_readSet (v : UInt8) :
    mapConfig (valueUpdate v).readSet "Channel" = .ok valueReadSet := rfl

theorem authorizeUpdate_refuses_stale_read_valueUpdate :
    ∃ full, adminsValidator.authorizeUpdate adminsManager valueCodec
        (valueUpdateEnvelope 1) = .ok full ∧
      ∃ err, ({ adminsValidator with configMap := full }).authorizeUpdate adminsManager
        valueCodec (valueUpdateEnvelope 2) = .error err := by
  have hOk := authorizeUpdate_valueUpdate_toBool
  have hVersion : ((adminsValidator.authorizeUpdate adminsManager valueCodec
      (valueUpdateEnvelope 1)).toOption.bind fun full =>
        (full.get? "[Value]  /Channel/A").map Comparable.version) = some 1 := by
    decide
  cases h : adminsValidator.authorizeUpdate adminsManager valueCodec (valueUpdateEnvelope 1) with
  | error e => simp [h, Except.toBool] at hOk
  | ok full =>
    rw [h] at hVersion
    have hExisting : adminsValidator.configMap.get? "[Value]  /Channel/A" =
        some ⟨.value ⟨0, [0], "Admins"⟩, "A", ["Channel"]⟩ := rfl
    have hRead : valueReadSet.get? "[Value]  /Channel/A" =
        some ⟨.value ⟨0, [0], "Admins"⟩, "A", ["Channel"]⟩ := rfl
    refine ⟨full, rfl, authorizeUpdate_refuses_stale_read adminsManager valueCodec h
      (fun _ => rfl) rfl (mapConfig_valueUpdate_readSet 2) hExisting ?_ hRead rfl⟩
    intro hSame
    simp [Except.toOption, hSame, Comparable.version] at hVersion

/-- The last check of `authorizeUpdate` cannot fail once the read set has been verified: an
element of the write set is either in the delta, or named by the read set at its version and
so in the config. -/
theorem verifyFullProposedConfig_eq_ok_of_verifyReadSet {vi : ValidatorImpl M}
    {readSet : ConfigMap} (hRead : vi.verifyReadSet readSet = .ok ()) (writeSet : ConfigMap) :
    verifyFullProposedConfig writeSet
      (vi.computeUpdateResult (computeDeltaSet readSet writeSet)) = .ok () := by
  rw [verifyFullProposedConfig_eq_ok_iff]
  intro key hWritten
  obtain ⟨value, hValue⟩ := Option.isSome_iff_exists.1 hWritten
  rw [get?_computeUpdateResult, get?_computeDeltaSet, hValue, Option.filter_some]
  by_cases hUnchanged : unchangedInReadSet readSet key value
  · obtain ⟨readVal, hReadVal, -⟩ := (Option.any_eq_true _ _).1 hUnchanged
    obtain ⟨existing, hExisting, -⟩ :=
      (verifyReadSet_eq_ok_iff vi readSet).1 hRead key readVal hReadVal
    simp [hUnchanged, hExisting]
  · simp [hUnchanged]

theorem verifyFullProposedConfig_eq_ok_of_verifyReadSet_valueReadSet :
    adminsValidator.verifyReadSet valueReadSet = .ok () ∧
      verifyFullProposedConfig (valueWriteSet 1)
        (adminsValidator.computeUpdateResult (computeDeltaSet valueReadSet (valueWriteSet 1))) =
          .ok () := by
  have hRead : adminsValidator.verifyReadSet valueReadSet = .ok () := by decide
  exact ⟨hRead, verifyFullProposedConfig_eq_ok_of_verifyReadSet hRead _⟩

end Authorization

end FabricPeer.Configtx
