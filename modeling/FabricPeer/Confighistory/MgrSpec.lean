import FabricPeer.Confighistory.Mgr

/-! # The config history answers its queries exactly

A chaincode name of the lifecycle has no `~`, so the fronts `"s" + "lscc" + 0x00 + cc +
"~collection"` of two names extend one another only when the names are equal, and the range
that `mostRecentEntryBelow` scans for one name holds the keys of that name and of no other
(`collectionKey_mem_range_iff`). Inside it the reversed block numbers put the latest block
first. After any calls of `HandleStateUpdates`, every key of the database is the key of a
package some call recorded, and every recorded package has its key (`Records`), so the first
hit of the scan is the package recorded at the largest block below the one asked for.

Every key lies in the namespace `"lscc"`, so `ExportConfigHistory` writes every entry, and
`ImportFromSnapshot` puts them back into an empty database, whatever its batches, as the same
store.
-/

namespace FabricPeer.Confighistory

open FabricPeer.Ledger FabricPeer.History FabricPeer.Snapshot ByteOrder KVStore GoRun

set_option autoImplicit false

section Names

theorem ne_tilde_of_isNameByte {c : UInt8} (h : isNameByte c = true) : c ≠ 0x7e := by
  rintro rfl
  exact absurd h (by decide)

theorem ne_tilde_of_matchesAfterNameByte :
    ∀ {s : Bytes}, matchesAfterNameByte s = true → ∀ c ∈ s, c ≠ 0x7e
  | [], _, _, hc => absurd hc List.not_mem_nil
  | [_], h, _, hc => by
    rw [List.mem_singleton.1 hc]
    exact ne_tilde_of_isNameByte h
  | c' :: d :: rest, h, c, hc => by
    rw [matchesAfterNameByte] at h
    split at h
    · rcases List.mem_cons.1 hc with rfl | hc
      · exact ne_tilde_of_isNameByte ‹_›
      · exact ne_tilde_of_matchesAfterNameByte h c hc
    · simp only [Bool.and_eq_true, Bool.or_eq_true, beq_iff_eq] at h
      obtain ⟨⟨hSep, hd⟩, hRest⟩ := h
      rcases List.mem_cons.1 hc with rfl | hc
      · rcases hSep with rfl | rfl <;> decide
      · rcases List.mem_cons.1 hc with rfl | hc
        · exact ne_tilde_of_isNameByte hd
        · exact ne_tilde_of_matchesAfterNameByte hRest c hc

theorem tilde_not_mem_of_chaincodeNameRegExpMatches {cc : Bytes}
    (h : chaincodeNameRegExpMatches cc = true) : (0x7e : UInt8) ∉ cc := by
  intro hMem
  cases cc with
  | nil => cases h
  | cons c rest =>
    rw [chaincodeNameRegExpMatches, Bool.and_eq_true] at h
    rcases List.mem_cons.1 hMem with hc | hRest
    · exact ne_tilde_of_isNameByte h.1 hc.symm
    · exact ne_tilde_of_matchesAfterNameByte h.2 _ hRest rfl

end Names

section Keys

def collectionKey (cc : Bytes) (n : UInt64) : Bytes :=
  encodeCompositeKey collectionConfigNamespace (constructCollectionConfigKey cc) n

def namespaceFront : Bytes := keyPrefix ++ collectionConfigNamespace ++ [separatorByte]

theorem collectionSuffix_eq :
    goBytes "~collection" = 0x7e :: [0x63, 0x6f, 0x6c, 0x6c, 0x65, 0x63, 0x74, 0x69, 0x6f, 0x6e] := by
  decide +kernel

theorem keyPrefix_eq : keyPrefix = [0x73] := by decide +kernel

theorem collectionConfigNamespace_eq : collectionConfigNamespace = [0x6c, 0x73, 0x63, 0x63] := by
  decide +kernel

theorem collectionKey_eq (cc : Bytes) (n : UInt64) :
    collectionKey cc n = namespaceFront ++ (cc ++ goBytes "~collection") ++ encodeBlockNum n := by
  simp [collectionKey, encodeCompositeKey, namespaceFront, constructCollectionConfigKey]

theorem toNat_maxUint64_sub (n : UInt64) : (maxUint64 - n).toNat = 2 ^ 64 - 1 - n.toNat := by
  have hn := n.toNat_lt
  rw [UInt64.toNat_sub_of_le _ _ (UInt64.le_iff_toNat_le.2 (by simp [maxUint64]; omega))]
  rfl

theorem encodeBlockNum_lt_iff (m n : UInt64) : encodeBlockNum m < encodeBlockNum n ↔ n < m := by
  have hm := m.toNat_lt
  have hn := n.toNat_lt
  rw [encodeBlockNum, encodeBlockNum, lt_iff_ofBigEndian_lt (by simp), ofBigEndian_putUint64,
    ofBigEndian_putUint64, toNat_maxUint64_sub, toNat_maxUint64_sub, UInt64.lt_iff_toNat_lt]
  omega

theorem encodeBlockNum_le_iff (m n : UInt64) : encodeBlockNum m ≤ encodeBlockNum n ↔ n ≤ m := by
  rw [← not_lt, encodeBlockNum_lt_iff, UInt64.not_lt]

theorem decodeBlockNum_encodeBlockNum (n : UInt64) : decodeBlockNum (encodeBlockNum n) = n := by
  have hn := n.toNat_lt
  rw [decodeBlockNum, encodeBlockNum, uint64_putUint64]
  apply UInt64.toNat_inj.1
  rw [toNat_maxUint64_sub, toNat_maxUint64_sub]
  omega

theorem encodeBlockNum_lt_stop (n : UInt64) : encodeBlockNum n < encodeBlockNum 0 ++ [0] := by
  have hLe : encodeBlockNum n ≤ encodeBlockNum 0 := (encodeBlockNum_le_iff n 0).2 UInt64.zero_le
  have hLt : encodeBlockNum 0 < encodeBlockNum 0 ++ [0] := by
    have h := (append_lt_append_left_iff (encodeBlockNum 0) (x := []) (y := [0])).2
      (List.nil_lt_cons 0 [])
    rwa [List.append_nil] at h
  exact lt_of_le_of_lt hLe hLt

theorem length_encodeBlockNum (n : UInt64) : (encodeBlockNum n).length = 8 := length_putUint64 _

theorem eq_of_front_comparable {cc cc' : Bytes} (hcc : (0x7e : UInt8) ∉ cc)
    (hcc' : (0x7e : UInt8) ∉ cc')
    (h : namespaceFront ++ (cc' ++ goBytes "~collection") <+: namespaceFront ++ (cc ++ goBytes "~collection") ∨
      namespaceFront ++ (cc ++ goBytes "~collection") <+: namespaceFront ++ (cc' ++ goBytes "~collection")) :
    cc' = cc := by
  rw [List.prefix_append_right_inj, List.prefix_append_right_inj, collectionSuffix_eq] at h
  rcases h with h | h
  · exact eq_of_prefix_append_sep_cons hcc' hcc h
  · exact (eq_of_prefix_append_sep_cons hcc hcc' h).symm

theorem collectionKey_injective {cc cc' : Bytes} {m n : UInt64}
    (h : collectionKey cc m = collectionKey cc' n) : cc = cc' ∧ m = n := by
  rw [collectionKey_eq, collectionKey_eq] at h
  obtain ⟨hFront, hBlock⟩ := List.append_inj' h (by rw [length_encodeBlockNum, length_encodeBlockNum])
  rw [List.append_cancel_left_eq, List.append_cancel_right_eq] at hFront
  refine ⟨hFront, UInt64.le_antisymm ?_ ?_⟩
  · exact (encodeBlockNum_le_iff n m).1 (le_of_eq hBlock.symm)
  · exact (encodeBlockNum_le_iff m n).1 (le_of_eq hBlock)

theorem collectionKey_lt_iff (cc : Bytes) (m n : UInt64) :
    collectionKey cc m < collectionKey cc n ↔ n < m := by
  rw [collectionKey_eq, collectionKey_eq, append_lt_append_left_iff, encodeBlockNum_lt_iff]

theorem le_sub_one_iff_lt {b : UInt64} (hb : 0 < b) (n : UInt64) : n ≤ b - 1 ↔ n < b := by
  rw [UInt64.lt_iff_toNat_lt, UInt64.toNat_zero] at hb
  have hOne : (1 : UInt64) ≤ b := UInt64.le_iff_toNat_le.2 (by rw [UInt64.toNat_one]; omega)
  rw [UInt64.le_iff_toNat_le, UInt64.toNat_sub_of_le _ _ hOne, UInt64.lt_iff_toNat_lt,
    UInt64.toNat_one]
  omega

theorem collectionKey_mem_range_iff {cc cc' : Bytes} (hcc : (0x7e : UInt8) ∉ cc)
    (hcc' : (0x7e : UInt8) ∉ cc') {b : UInt64} (hb : 0 < b) (n : UInt64) :
    (encodeCompositeKey collectionConfigNamespace (constructCollectionConfigKey cc) (b - 1) ≤
        collectionKey cc' n ∧
      collectionKey cc' n <
        encodeCompositeKey collectionConfigNamespace (constructCollectionConfigKey cc) 0 ++ [0]) ↔
      cc' = cc ∧ n < b := by
  rw [← collectionKey, ← collectionKey, collectionKey_eq, collectionKey_eq, collectionKey_eq,
    List.append_assoc _ (encodeBlockNum 0)]
  constructor
  · rintro ⟨hLow, hHigh⟩
    obtain rfl := eq_of_front_comparable hcc hcc' (comparable_of_mem_range _ _ _ hLow hHigh)
    rw [append_le_append_left_iff, encodeBlockNum_le_iff] at hLow
    exact ⟨rfl, (le_sub_one_iff_lt hb n).1 hLow⟩
  · rintro ⟨rfl, hn⟩
    rw [append_le_append_left_iff, encodeBlockNum_le_iff, append_lt_append_left_iff]
    exact ⟨(le_sub_one_iff_lt hb n).2 hn, encodeBlockNum_lt_stop n⟩

theorem decodeCompositeKey_encodeCompositeKey {ns : Bytes} (hns : (0 : UInt8) ∉ ns) (key : Bytes)
    (n : UInt64) : decodeCompositeKey (encodeCompositeKey ns key n) = .ok ⟨ns, key, n⟩ := by
  have hLen : (encodeCompositeKey ns key n).length = (keyPrefix ++ ns ++ [0] ++ key).length + 8 := by
    simp only [encodeCompositeKey, List.length_append, length_encodeBlockNum,
      List.length_singleton]
  have hFront : encodeCompositeKey ns key n = (keyPrefix ++ ns ++ [0] ++ key) ++ encodeBlockNum n := rfl
  have hNsKey : ((keyPrefix ++ ns ++ [0] ++ key)).drop 1 = ns ++ 0 :: key := by
    simp [keyPrefix_eq]
  have hLong : ¬ (encodeCompositeKey ns key n).length < 9 := by
    rw [hLen, keyPrefix_eq]
    simp only [List.length_append, List.length_cons, List.length_nil]
    omega
  rw [decodeCompositeKey, if_neg hLong]
  dsimp only
  rw [hLen, Nat.add_sub_cancel, hFront, List.take_left, List.drop_left, hNsKey, separatorByte,
    idxOf?_append_cons hns]
  simp [decodeBlockNum_encodeBlockNum]

theorem decodeCompositeKey_collectionKey (cc : Bytes) (n : UInt64) :
    decodeCompositeKey (collectionKey cc n) =
      .ok ⟨collectionConfigNamespace, constructCollectionConfigKey cc, n⟩ :=
  decodeCompositeKey_encodeCompositeKey (by rw [collectionConfigNamespace_eq]; decide) _ n

end Keys

section Marshal

theorem unmarshalConfigs_marshal (configs : List Bytes) (fuel : Nat)
    (hFuel : (marshal ⟨configs⟩).length ≤ fuel) :
    unmarshalConfigs fuel (marshal ⟨configs⟩) = .ok configs := by
  induction configs generalizing fuel with
  | nil => simp [marshal, unmarshalConfigs]
  | cons config configs ih =>
    have hMarshal : marshal ⟨config :: configs⟩ =
        configTag :: (Varint.encode config.length ++ (config ++ marshal ⟨configs⟩)) := by
      simp [marshal]
    rw [hMarshal] at hFuel ⊢
    obtain ⟨fuel, rfl⟩ : ∃ fuel', fuel = fuel' + 1 := ⟨fuel - 1, by simp at hFuel; omega⟩
    simp only [List.length_cons, List.length_append] at hFuel
    have hDrop : (Varint.encode config.length ++ (config ++ marshal ⟨configs⟩)).drop
        ((Varint.encode config.length).length + config.length) = marshal ⟨configs⟩ := by
      rw [← List.append_assoc, List.drop_left' (by simp)]
    have hTake : ((Varint.encode config.length ++ (config ++ marshal ⟨configs⟩)).drop
        (Varint.encode config.length).length).take config.length = config := by
      rw [List.drop_left, List.take_left]
    rw [unmarshalConfigs, if_neg (by simp), Varint.decode_encode_append]
    dsimp only
    rw [if_pos (by simp), hDrop, ih fuel (by omega), hTake]
    rfl

theorem unmarshal_marshal (pkg : CollectionConfigPackage) : unmarshal (marshal pkg) = .ok pkg := by
  obtain ⟨configs⟩ := pkg
  rw [unmarshal, unmarshalConfigs_marshal configs _ le_rfl]
  rfl

end Marshal

section Records

/-- The database after the calls of `HandleStateUpdates` of `history`, each a committing block
and the `ChaincodeInfo` of the chaincodes it updated, made in turn on an empty one. -/
def recordHistory (history : List (UInt64 × List ChaincodeInfo)) : DB :=
  history.foldl (fun d call => handleStateUpdates d call.1 call.2) .empty

def ChaincodeInfo.recordedPackage (ccInfo : ChaincodeInfo) : Option CollectionConfigPackage :=
  ccInfo.explicitCollectionConfigPkg.filter fun pkg => !pkg.config.isEmpty

def recordedFor (updatedCCs : List ChaincodeInfo) (cc : Bytes) : Option CollectionConfigPackage :=
  (updatedCCs.filterMap fun ccInfo =>
    if ccInfo.name = cc then ccInfo.recordedPackage else none).getLast?

def recordsFor (history : List (UInt64 × List ChaincodeInfo)) (cc : Bytes) :
    List (UInt64 × CollectionConfigPackage) :=
  history.filterMap fun call => (recordedFor call.2 cc).map (call.1, ·)

/-- `r` is what a query of `cc` below block `b` should return: the package recorded at the largest
block below `b`, with that block, or `none` when no package of `cc` was recorded below `b`. -/
def IsMostRecentBelow (history : List (UInt64 × List ChaincodeInfo)) (b : UInt64) (cc : Bytes) :
    Option CollectionConfigInfo → Prop
  | none => ∀ n pkg, (n, pkg) ∈ recordsFor history cc → b ≤ n
  | some info => (info.committingBlockNum, info.collectionConfig) ∈ recordsFor history cc ∧
      info.committingBlockNum < b ∧
      ∀ n pkg, (n, pkg) ∈ recordsFor history cc → n < b → n ≤ info.committingBlockNum

structure Records (history : List (UInt64 × List ChaincodeInfo)) (d : DB) : Prop where
  recorded : ∀ k v, d.get? k = some v → ∃ cc n pkg, (0x7e : UInt8) ∉ cc ∧
    k = collectionKey cc n ∧ v = marshal pkg ∧ (n, pkg) ∈ recordsFor history cc
  present : ∀ cc n pkg, (n, pkg) ∈ recordsFor history cc → (d.get? (collectionKey cc n)).isSome

theorem mem_recordsFor {history : List (UInt64 × List ChaincodeInfo)} {cc : Bytes} {m : UInt64}
    {pkg : CollectionConfigPackage} :
    (m, pkg) ∈ recordsFor history cc ↔
      ∃ call ∈ history, call.1 = m ∧ recordedFor call.2 cc = some pkg := by
  simp only [recordsFor, List.mem_filterMap, Option.map_eq_some_iff, Prod.mk.injEq]
  constructor
  · rintro ⟨call, hCall, p, hp, rfl, rfl⟩
    exact ⟨call, hCall, rfl, hp⟩
  · rintro ⟨call, hCall, rfl, hp⟩
    exact ⟨call, hCall, pkg, hp, rfl, rfl⟩

theorem mem_recordsFor_append {history : List (UInt64 × List ChaincodeInfo)} {n : UInt64}
    {updatedCCs : List ChaincodeInfo} {cc : Bytes} {m : UInt64} {pkg : CollectionConfigPackage} :
    (m, pkg) ∈ recordsFor (history ++ [(n, updatedCCs)]) cc ↔
      (m, pkg) ∈ recordsFor history cc ∨
        (m = n ∧ recordedFor updatedCCs cc = some pkg) := by
  rw [recordsFor, List.filterMap_append, List.mem_append, ← recordsFor]
  simp [eq_comm, and_comm]

theorem get?_collectUpdatedCollConfigs (updatedCCs : List ChaincodeInfo) (cc : Bytes) :
    (collectUpdatedCollConfigs updatedCCs).get? cc = recordedFor updatedCCs cc := by
  induction updatedCCs using List.reverseRecOn with
  | nil => rfl
  | append_singleton updatedCCs ccInfo ih =>
    have hRecorded : recordedFor (updatedCCs ++ [ccInfo]) cc =
        (if ccInfo.name = cc then ccInfo.recordedPackage else none).or (recordedFor updatedCCs cc) := by
      cases h : (if ccInfo.name = cc then ccInfo.recordedPackage else none) <;>
        simp [recordedFor, List.filterMap_append, h]
    rw [hRecorded, ← ih]
    unfold collectUpdatedCollConfigs
    rw [List.foldl_append, List.foldl_cons, List.foldl_nil]
    obtain ⟨name, _ | pkg⟩ := ccInfo
    · simp [ChaincodeInfo.recordedPackage]
    · by_cases hEmpty : pkg.config = []
      · simp [ChaincodeInfo.recordedPackage, hEmpty, Option.filter]
      · by_cases hName : name = cc
        · subst hName
          simp [ChaincodeInfo.recordedPackage, hEmpty, Option.filter]
        · simp [hEmpty, hName, GoMap.get?_insert_of_ne _ _ (Ne.symm hName)]

theorem exists_name_of_recordedFor {updatedCCs : List ChaincodeInfo} {cc : Bytes}
    {pkg : CollectionConfigPackage} (h : recordedFor updatedCCs cc = some pkg) :
    ∃ ccInfo ∈ updatedCCs, ccInfo.name = cc := by
  obtain ⟨ccInfo, hMem, hSelected⟩ := List.mem_filterMap.1 (List.mem_of_getLast? h)
  refine ⟨ccInfo, hMem, ?_⟩
  by_contra hName
  simp [hName] at hSelected

theorem handleStateUpdates_eq (d : DB) (n : UInt64) (updatedCCs : List ChaincodeInfo) :
    handleStateUpdates d n updatedCCs =
      d.writeBatch (prepareDBBatch (collectUpdatedCollConfigs updatedCCs) n) := by
  rw [handleStateUpdates]
  split
  · rename_i hNone
    rw [List.eq_nil_of_length_eq_zero hNone]
    rfl
  · dsimp only
    split
    · rename_i hEmpty
      rw [prepareDBBatch, List.eq_nil_of_length_eq_zero hEmpty]
      rfl
    · rfl

theorem prepareDBBatch_eq (m : GoMap Bytes CollectionConfigPackage) (n : UInt64) :
    prepareDBBatch m n =
      (m.entries.map fun e => (collectionKey e.1 n, marshal e.2)).map fun e => .put e.1 e.2 := by
  simp only [prepareDBBatch, List.map_map]
  rfl

theorem mem_prepareDBBatch {m : GoMap Bytes CollectionConfigPackage} {n : UInt64} {k v : Bytes}
    (h : BatchOp.put k v ∈ prepareDBBatch m n) :
    ∃ cc pkg, m.get? cc = some pkg ∧ k = collectionKey cc n ∧ v = marshal pkg := by
  rw [prepareDBBatch_eq] at h
  obtain ⟨e, hMem, hEq⟩ := List.mem_map.1 h
  obtain ⟨e', hEntry, rfl⟩ := List.mem_map.1 hMem
  obtain ⟨rfl, rfl⟩ := BatchOp.put.inj hEq
  exact ⟨e'.1, e'.2, GoMap.get?_of_mem_entries m hEntry, rfl, rfl⟩

theorem get?_writeBatch_prepareDBBatch (d : DB) {m : GoMap Bytes CollectionConfigPackage}
    {cc : Bytes} {pkg : CollectionConfigPackage} (h : m.get? cc = some pkg) (n : UInt64) :
    (d.writeBatch (prepareDBBatch m n)).get? (collectionKey cc n) = some (marshal pkg) := by
  have hNodup : ((prepareDBBatch m n).map BatchOp.key).Nodup := by
    rw [prepareDBBatch, List.map_map]
    have hKeys : (m.entries.map Prod.fst).Nodup := by
      rw [GoMap.map_fst_entries]
      exact GoMap.nodup_keys m
    refine (List.pairwise_map.1 hKeys).map _ ?_
    intro a b hNe hEq
    exact hNe (collectionKey_injective hEq).1
  have hMem : BatchOp.put (collectionKey cc n) (marshal pkg) ∈ prepareDBBatch m n := by
    rw [prepareDBBatch]
    exact List.mem_map.2 ⟨(cc, pkg), (GoMap.mem_entries m (cc, pkg)).2 h, rfl⟩
  exact SortedMap.get?_writeBatch_of_mem_nodup d hNodup hMem

theorem Records.handleStateUpdates {history : List (UInt64 × List ChaincodeInfo)} {d : DB}
    (hRec : Records history d) (n : UInt64) {updatedCCs : List ChaincodeInfo}
    (hNames : ∀ ccInfo ∈ updatedCCs, (0x7e : UInt8) ∉ ccInfo.name) :
    Records (history ++ [(n, updatedCCs)]) (Confighistory.handleStateUpdates d n updatedCCs) := by
  rw [handleStateUpdates_eq]
  constructor
  · intro k v hGet
    rcases SortedMap.get?_writeBatch_eq_some _ _ hGet with hPut | hOld
    · obtain ⟨cc, pkg, hPkg, rfl, rfl⟩ := mem_prepareDBBatch hPut
      rw [get?_collectUpdatedCollConfigs] at hPkg
      obtain ⟨ccInfo, hMem, rfl⟩ := exists_name_of_recordedFor hPkg
      exact ⟨ccInfo.name, n, pkg, hNames ccInfo hMem, rfl, rfl,
        mem_recordsFor_append.2 (.inr ⟨rfl, hPkg⟩)⟩
    · obtain ⟨cc, m, pkg, hcc, rfl, rfl, hRecord⟩ := hRec.recorded k v hOld
      exact ⟨cc, m, pkg, hcc, rfl, rfl, mem_recordsFor_append.2 (.inl hRecord)⟩
  · intro cc m pkg hRecord
    rcases mem_recordsFor_append.1 hRecord with hOld | ⟨rfl, hPkg⟩
    · rw [prepareDBBatch_eq, SortedMap.isSome_get?_writeBatch_puts]
      exact .inr (hRec.present cc m pkg hOld)
    · rw [← get?_collectUpdatedCollConfigs] at hPkg
      rw [get?_writeBatch_prepareDBBatch d hPkg]
      rfl

theorem records_empty : Records [] (.empty : DB) := by
  constructor
  · intro k v hGet
    cases hGet
  · intro cc n pkg hRecord
    cases hRecord

theorem records_recordHistory {history : List (UInt64 × List ChaincodeInfo)}
    (hNames : ∀ call ∈ history, ∀ ccInfo ∈ call.2, (0x7e : UInt8) ∉ ccInfo.name) :
    Records history (recordHistory history) := by
  induction history using List.reverseRecOn with
  | nil => exact records_empty
  | append_singleton history call ih =>
    have hPrefix := ih fun call' hMem => hNames call' (List.mem_append_left _ hMem)
    rw [recordHistory, List.foldl_append, ← recordHistory, List.foldl_cons, List.foldl_nil]
    exact hPrefix.handleStateUpdates call.1
      (hNames call (List.mem_append_right _ List.mem_cons_self))

end Records

section Query

variable {history : List (UInt64 × List ChaincodeInfo)} {d : DB}

theorem mostRecentCollectionConfigBelow_of_records (hRec : Records history d) {cc : Bytes}
    (hcc : (0x7e : UInt8) ∉ cc) {b : UInt64} (hb : 0 < b) :
    ∃ r, mostRecentCollectionConfigBelow d b cc = .ok r ∧ IsMostRecentBelow history b cc r := by
  have hb0 : b ≠ 0 := fun h => by subst h; exact absurd hb (by decide)
  set scanned := d.scan fun k => decide
    (encodeCompositeKey collectionConfigNamespace (constructCollectionConfigKey cc) (b - 1) ≤ k ∧
      k < encodeCompositeKey collectionConfigNamespace (constructCollectionConfigKey cc) 0 ++ [0])
    with hScanned
  have hIn : ∀ k v, (k, v) ∈ scanned → ∃ n pkg, k = collectionKey cc n ∧ n < b ∧
      v = marshal pkg ∧ (n, pkg) ∈ recordsFor history cc := by
    intro k v hMem
    obtain ⟨hGet, hRange⟩ := (SortedMap.mem_scan _ _ _ _).1 hMem
    obtain ⟨cc', n, pkg, hcc', rfl, rfl, hRecord⟩ := hRec.recorded k v hGet
    obtain ⟨rfl, hn⟩ := (collectionKey_mem_range_iff hcc hcc' hb n).1 (of_decide_eq_true hRange)
    exact ⟨n, pkg, rfl, hn, rfl, hRecord⟩
  have hAll : ∀ n pkg, (n, pkg) ∈ recordsFor history cc → n < b →
      ∃ v, (collectionKey cc n, v) ∈ scanned := by
    intro n pkg hRecord hn
    obtain ⟨v, hGet⟩ := Option.isSome_iff_exists.1 (hRec.present cc n pkg hRecord)
    refine ⟨v, (SortedMap.mem_scan _ _ _ _).2 ⟨hGet, decide_eq_true ?_⟩⟩
    exact (collectionKey_mem_range_iff hcc hcc hb n).2 ⟨rfl, hn⟩
  have hSorted : scanned.Pairwise fun a b => a.1 < b.1 := SortedMap.pairwise_scan _ _
  rw [mostRecentCollectionConfigBelow, mostRecentEntryBelow, if_neg hb0]
  dsimp only
  rw [← hScanned]
  cases hScan : scanned with
  | nil =>
    refine ⟨none, rfl, ?_⟩
    intro n pkg hRecord
    rw [← UInt64.not_lt]
    intro hn
    obtain ⟨v, hMem⟩ := hAll n pkg hRecord hn
    rw [hScan] at hMem
    cases hMem
  | cons e rest =>
    obtain ⟨k, v⟩ := e
    obtain ⟨n, pkg, rfl, hn, rfl, hRecord⟩ := hIn _ _ (hScan ▸ List.mem_cons_self)
    refine ⟨some ⟨pkg, n⟩, ?_, hRecord, hn, ?_⟩
    · simp [decodeCompositeKey_collectionKey, compositeKVToCollectionConfig, unmarshal_marshal,
        wrap, bind, Except.bind, pure, Except.pure, Functor.map, Except.map]
    · intro n' pkg' hRecord' hn'
      obtain ⟨v', hMem⟩ := hAll n' pkg' hRecord' hn'
      rw [hScan] at hMem hSorted
      rcases List.mem_cons.1 hMem with hHead | hRest
      · obtain ⟨-, hEq⟩ := collectionKey_injective (Prod.mk.inj hHead).1
        rw [hEq]
        exact UInt64.le_refl _
      · have hLt := (List.pairwise_cons.1 hSorted).1 _ hRest
        exact UInt64.le_of_lt ((collectionKey_lt_iff cc n n').1 hLt)

example : mostRecentCollectionConfigBelow (recordHistory
    [(5, [⟨[0x6d, 0x79, 0x63, 0x63], some ⟨[[1]]⟩⟩]), (9, [⟨[0x6d, 0x79, 0x63, 0x63], some ⟨[[2]]⟩⟩])])
    9 [0x6d, 0x79, 0x63, 0x63] = .ok (some ⟨⟨[[1]]⟩, 5⟩) := by
  decide +kernel

theorem eq_of_mem_recordsFor (hIncreasing : (history.map Prod.fst).Pairwise (· < ·)) {cc : Bytes}
    {n : UInt64} {pkg pkg' : CollectionConfigPackage} (h : (n, pkg) ∈ recordsFor history cc)
    (h' : (n, pkg') ∈ recordsFor history cc) : pkg = pkg' := by
  obtain ⟨call, hCall, hn, hPkg⟩ := mem_recordsFor.1 h
  obtain ⟨call', hCall', hn', hPkg'⟩ := mem_recordsFor.1 h'
  have hNodup : (history.map Prod.fst).Nodup := hIncreasing.imp UInt64.ne_of_lt
  obtain rfl : call = call' := List.inj_on_of_nodup_map hNodup hCall hCall' (hn.trans hn'.symm)
  exact Option.some.inj (hPkg.symm.trans hPkg')

theorem isMostRecentBelow_unique (hIncreasing : (history.map Prod.fst).Pairwise (· < ·))
    {b : UInt64} {cc : Bytes} {r r' : Option CollectionConfigInfo}
    (h : IsMostRecentBelow history b cc r) (h' : IsMostRecentBelow history b cc r') : r = r' := by
  cases r with
  | none =>
    cases r' with
    | none => rfl
    | some info' => exact absurd (h _ _ h'.1) (UInt64.not_le.2 h'.2.1)
  | some info =>
    cases r' with
    | none => exact absurd (h' _ _ h.1) (UInt64.not_le.2 h.2.1)
    | some info' =>
      have hBlock : info.committingBlockNum = info'.committingBlockNum :=
        UInt64.le_antisymm (h'.2.2 _ _ h.1 h.2.1) (h.2.2 _ _ h'.1 h'.2.1)
      have hPkg : info.collectionConfig = info'.collectionConfig :=
        eq_of_mem_recordsFor hIncreasing h.1 (hBlock ▸ h'.1)
      obtain ⟨pkg, n⟩ := info
      obtain ⟨pkg', n'⟩ := info'
      simp only at hBlock hPkg
      rw [hBlock, hPkg]

end Query

section Snapshot

theorem mem_namespace_range (rest : Bytes) :
    keyPrefix ++ collectionConfigNamespace ++ [separatorByte] ≤ namespaceFront ++ rest ∧
      namespaceFront ++ rest < keyPrefix ++ collectionConfigNamespace ++ [nsStopper] := by
  constructor
  · exact le_append _ _
  · rw [namespaceFront, List.append_assoc, append_lt_append_left_iff, List.singleton_append,
      separatorByte, nsStopper]
    exact List.cons_lt_cons_iff.2 (.inl (by decide))

theorem contents_foldl_EncodeBytes (w : FileWriter) (entries : List (Bytes × Bytes)) :
    (entries.foldl (fun w e => (w.EncodeBytes e.1).EncodeBytes e.2) w).contents =
      w.contents ++ entries.flatMap fun e => encodeBytes e.1 ++ encodeBytes e.2 := by
  induction entries generalizing w with
  | nil => simp
  | cons e entries ih =>
    rw [List.foldl_cons, ih]
    simp [List.append_assoc]

theorem importLoop_encoded (name : String) (entries : List (Bytes × Bytes)) (rest : Bytes)
    (d : DB) (batch : List (BatchOp Bytes Bytes)) (currentBatchSize : Nat) :
    ∃ d' batch', importLoop entries.length
        ⟨name, (entries.flatMap fun e => encodeBytes e.1 ++ encodeBytes e.2) ++ rest⟩ d batch
        currentBatchSize = (d', .ok batch') ∧
      d'.writeBatch batch' = d.writeBatch (batch ++ entries.map fun e => .put e.1 e.2) := by
  induction entries generalizing d batch currentBatchSize with
  | nil => exact ⟨d, batch, rfl, by simp⟩
  | cons e entries ih =>
    obtain ⟨key, val⟩ := e
    have hData : ((key, val) :: entries).flatMap (fun e => encodeBytes e.1 ++ encodeBytes e.2) ++
        rest = encodeBytes key ++ (encodeBytes val ++
          ((entries.flatMap fun e => encodeBytes e.1 ++ encodeBytes e.2) ++ rest)) := by
      simp [List.append_assoc]
    rw [List.length_cons, hData, importLoop, FileReader.decodeBytes_encodeBytes]
    dsimp only
    rw [FileReader.decodeBytes_encodeBytes]
    dsimp only
    split
    · obtain ⟨d', batch', hRun, hEq⟩ := ih (d.writeBatch (batch ++ [.put key val])) [] 0
      refine ⟨d', batch', hRun, ?_⟩
      rw [hEq, ← SortedMap.writeBatch_append]
      simp
    · obtain ⟨d', batch', hRun, hEq⟩ :=
        ih d (batch ++ [.put key val]) (currentBatchSize + key.length + val.length)
      refine ⟨d', batch', hRun, ?_⟩
      rw [hEq]
      simp

theorem importFromSnapshot_exportConfigHistory {d : DB}
    (hKeys : ∀ k v, d.get? k = some v → namespaceFront <+: k) (ledgerID : String) :
    importFromSnapshot .empty ledgerID (Dir.ofFiles (exportConfigHistory d)) = (d, .ok ()) := by
  have hScan : getNamespaceIterator d collectionConfigNamespace = d.entries := by
    dsimp only [getNamespaceIterator]
    apply SortedMap.scan_eq_entries
    intro k v hGet
    obtain ⟨rest, rfl⟩ := hKeys k v hGet
    exact decide_eq_true (mem_namespace_range rest)
  rw [exportConfigHistory, hScan]
  cases hEntries : d.entries with
  | nil =>
    have hEmpty : d = .empty := SortedMap.ext_get? fun k => by rw [SortedMap.get?, hEntries]; rfl
    rw [hEmpty]
    rfl
  | cons e es =>
    dsimp only
    set entries := e :: es
    have hDataFile : Dir.ofFiles [(snapshotDataFileName,
        (entries.foldl (fun w e => (w.EncodeBytes e.1).EncodeBytes e.2)
          (createFile snapshotDataFileName snapshotFileFormat)).contents),
        (snapshotMetadataFileName, ((createFile snapshotMetadataFileName
          snapshotFileFormat).EncodeUVarint entries.length).contents)] snapshotDataFileName =
        some (snapshotFileFormat ::
          ((entries.flatMap fun e => encodeBytes e.1 ++ encodeBytes e.2) ++ [])) := by
      simp [Dir.ofFiles, contents_foldl_EncodeBytes, createFile]
    have hMetadataFile : Dir.ofFiles [(snapshotDataFileName,
        (entries.foldl (fun w e => (w.EncodeBytes e.1).EncodeBytes e.2)
          (createFile snapshotDataFileName snapshotFileFormat)).contents),
        (snapshotMetadataFileName, ((createFile snapshotMetadataFileName
          snapshotFileFormat).EncodeUVarint entries.length).contents)] snapshotMetadataFileName =
        some (snapshotFileFormat :: (encodeUVarint entries.length ++ [])) := by
      have hName : (snapshotMetadataFileName == snapshotDataFileName) = false := by decide
      simp [Dir.ofFiles, List.lookup_cons, hName, createFile]
    obtain ⟨d', batch', hRun, hEq⟩ := importLoop_encoded snapshotDataFileName entries [] .empty [] 0
    rw [importFromSnapshot, hDataFile, openFile_of_contents hMetadataFile,
      openFile_of_contents hDataFile]
    simp only [Option.isNone_some, Bool.false_eq_true, if_false,
      FileReader.DecodeUVarInt_encodeUVarint]
    rw [if_neg (by simp [isEmpty, SortedMap.empty]), hRun]
    dsimp only
    rw [hEq, List.nil_append, ← hEntries, SortedMap.empty_writeBatch_entries]

end Snapshot

/-- After calls of `HandleStateUpdates` at strictly increasing blocks for lifecycle chaincode
names, a query of such a name below a block `b ≥ 1` returns the one answer that is the package
recorded at the largest block below `b`, and the database imported from the snapshot of the
history answers every query alike. -/
theorem mostRecentCollectionConfigBelow_exact_after_snapshot
    (history : List (UInt64 × List ChaincodeInfo))
    (hIncreasing : (history.map Prod.fst).Pairwise (· < ·))
    (hNames : ∀ call ∈ history, ∀ ccInfo ∈ call.2, chaincodeNameRegExpMatches ccInfo.name = true)
    (ledgerID : String) :
    (∀ (cc : Bytes) (b : UInt64), chaincodeNameRegExpMatches cc = true → 0 < b →
      ∃ r, mostRecentCollectionConfigBelow (recordHistory history) b cc = .ok r ∧
        IsMostRecentBelow history b cc r ∧ ∀ r', IsMostRecentBelow history b cc r' → r' = r) ∧
    ∃ imported, importFromSnapshot .empty ledgerID
        (Dir.ofFiles (exportConfigHistory (recordHistory history))) = (imported, .ok ()) ∧
      ∀ (cc : Bytes) (b : UInt64), mostRecentCollectionConfigBelow imported b cc =
        mostRecentCollectionConfigBelow (recordHistory history) b cc := by
  have hRec : Records history (recordHistory history) :=
    records_recordHistory fun call hCall ccInfo hInfo =>
      tilde_not_mem_of_chaincodeNameRegExpMatches (hNames call hCall ccInfo hInfo)
  constructor
  · intro cc b hcc hb
    obtain ⟨r, hRun, hMost⟩ := mostRecentCollectionConfigBelow_of_records hRec
      (tilde_not_mem_of_chaincodeNameRegExpMatches hcc) hb
    exact ⟨r, hRun, hMost, fun r' h' => isMostRecentBelow_unique hIncreasing h' hMost⟩
  · have hKeys : ∀ k v, (recordHistory history).get? k = some v → namespaceFront <+: k := by
      intro k v hGet
      obtain ⟨cc, n, pkg, -, rfl, -, -⟩ := hRec.recorded k v hGet
      rw [collectionKey_eq, List.append_assoc]
      exact List.prefix_append _ _
    exact ⟨_, importFromSnapshot_exportConfigHistory hKeys ledgerID, fun cc b => rfl⟩

theorem mostRecentCollectionConfigBelow_exact_for_mycc :
    (∀ (cc : Bytes) (b : UInt64), chaincodeNameRegExpMatches cc = true → 0 < b →
      ∃ r, mostRecentCollectionConfigBelow
          (recordHistory [(5, [⟨[0x6d, 0x79, 0x63, 0x63], some ⟨[[1]]⟩⟩])]) b cc = .ok r ∧
        IsMostRecentBelow [(5, [⟨[0x6d, 0x79, 0x63, 0x63], some ⟨[[1]]⟩⟩])] b cc r ∧
        ∀ r', IsMostRecentBelow [(5, [⟨[0x6d, 0x79, 0x63, 0x63], some ⟨[[1]]⟩⟩])] b cc r' →
          r' = r) ∧
    ∃ imported, importFromSnapshot .empty "mychannel" (Dir.ofFiles (exportConfigHistory
        (recordHistory [(5, [⟨[0x6d, 0x79, 0x63, 0x63], some ⟨[[1]]⟩⟩])]))) =
        (imported, .ok ()) ∧
      ∀ (cc : Bytes) (b : UInt64), mostRecentCollectionConfigBelow imported b cc =
        mostRecentCollectionConfigBelow
          (recordHistory [(5, [⟨[0x6d, 0x79, 0x63, 0x63], some ⟨[[1]]⟩⟩])]) b cc :=
  mostRecentCollectionConfigBelow_exact_after_snapshot _ (by decide) (by decide) "mychannel"

end FabricPeer.Confighistory
