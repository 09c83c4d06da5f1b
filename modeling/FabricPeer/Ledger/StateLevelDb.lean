import FabricPeer.Ledger.StateDb
import FabricPeer.History.KvEncoding
import FabricPeer.Lib.ByteOrder
import FabricPeer.Lib.StoreIterator
import Mathlib.Data.List.TakeWhile

/-! # The LevelDB state database

`stateleveldb` keeps the state of a channel in one LevelDB key space: the value of the key `key`
of the namespace `ns` under `'d' ns 0x00 key` (`encodeDataKey`), and the savepoint under `'s'`.
Namespaces and keys are Go strings, taken here as their bytes; values are kept encoded, and
`decodeValue` is a parameter. A range query of a namespace iterates the keys between the
encodings of its start and end key, an empty end key standing for the end of the namespace: the
separator replaced by `0x01`. The full scan for snapshots iterates the keys from `'d'` up to
`'e'`; it leaves a namespace it skips by seeking that namespace's `0x01` end and stepping back one
key, so that its next `Next` lands on the following namespace.

When no namespace holds a `0x00` byte (`StateKeysWellFormed`), `decodeDataKey` inverts
`encodeDataKey`, and the encoded keys are ordered by namespace, then by key
(`encodeDataKey_lt_iff`). The range query then returns exactly the entries of its namespace in its
range, in key order, and the full scan every entry of a namespace it does not skip, in the order
of namespace and key. A namespace with a `0x00` byte breaks both: its keys decode as keys of the
namespace before that byte.
-/

namespace FabricPeer.StateLevelDB

open GoRun KVStore ByteOrder
open FabricPeer.Ledger (Bytes VersionedValue Height UpdateBatch)

set_option autoImplicit false

def dataKeyPrefix : Bytes := [0x64]

def dataKeyStopper : Bytes := [0x65]

def nsKeySep : UInt8 := 0x00

def lastKeyIndicator : UInt8 := 0x01

def savePointKey : Bytes := [0x73]

/-- The key space of the channel's database, in LevelDB's byte order; the prefix of the channel
that `leveldbhelper` puts before every key is left out. -/
abbrev VersionedDB := SortedMap Bytes Bytes

/-- `statedb.VersionedKV` as the scanners build it; `ns` is its `Namespace`. -/
structure VersionedKV where
  ns : Bytes
  key : Bytes
  versionedValue : VersionedValue
  deriving DecidableEq, Repr

def encodeDataKey (ns key : Bytes) : Bytes := dataKeyPrefix ++ ns ++ [nsKeySep] ++ key

def splitN2 (s : Bytes) (sep : UInt8) : List Bytes :=
  if sep ∈ s then [s.takeWhile (· != sep), (s.dropWhile (· != sep)).drop 1] else [s]

/-- `decodeDataKey`: `split[0][1:]` and `split[1]` panic on a key without the separator or one
that starts with it. -/
def decodeDataKey (encodedDataKey : Bytes) : Run (Bytes × Bytes) := do
  let split := splitN2 encodedDataKey nsKeySep
  let first ← index split 0
  let ns ← sliceFrom first 1
  let key ← index split 1
  pure (ns, key)

def dataKeyStarterForNextNamespace (ns : Bytes) : Bytes := dataKeyPrefix ++ ns ++ [lastKeyIndicator]

/-- `GetState`, the database's read taken to succeed. -/
def getState (decodeValue : Bytes → Run VersionedValue) (db : VersionedDB) (ns key : Bytes) :
    Run (Option VersionedValue) :=
  match db.get? (encodeDataKey ns key) with
  | none => .ok none
  | some dbVal => do
    let vv ← decodeValue dbVal
    pure (some vv)

/-- `kvScanner`; `ns` is its `namespace`. -/
structure KVScanner where
  ns : Bytes
  dbItr : Iterator Bytes Bytes
  requestedLimit : Int32
  totalRecordsReturned : Int32

def newKVScanner (ns : Bytes) (dbItr : Iterator Bytes Bytes) (requestedLimit : Int32) :
    KVScanner :=
  ⟨ns, dbItr, requestedLimit, 0⟩

/-- `kvScanner.Next`: the next entry of the range, or nothing past its end or its page. -/
def KVScanner.next (decodeValue : Bytes → Run VersionedValue) (scanner : KVScanner) :
    Run (Option VersionedKV × KVScanner) :=
  if scanner.requestedLimit > 0 && scanner.totalRecordsReturned >= scanner.requestedLimit then
    .ok (none, scanner)
  else
    let scanner := { scanner with dbItr := scanner.dbItr.next }
    match scanner.dbItr.current? with
    | none => .ok (none, scanner)
    | some (dbKey, dbVal) => do
      let (_, key) ← decodeDataKey dbKey
      let vv ← decodeValue dbVal
      pure (some ⟨scanner.ns, key, vv⟩,
        { scanner with totalRecordsReturned := scanner.totalRecordsReturned + 1 })

/-- `GetStateRangeScanIteratorWithPagination`, the iterator of `DBHandle.GetIterator` over the
keys from `dataStartKey` up to `dataEndKey` excluded. -/
def getStateRangeScanIteratorWithPagination (db : VersionedDB) (ns startKey endKey : Bytes)
    (pageSize : Int32) : KVScanner :=
  let dataStartKey := encodeDataKey ns startKey
  let dataEndKey := encodeDataKey ns endKey
  let dataEndKey :=
    if endKey = [] then dataEndKey.set (dataEndKey.length - 1) lastKeyIndicator else dataEndKey
  newKVScanner ns (db.iterator dataStartKey dataEndKey) pageSize

/-- `GetStateRangeScanIterator`: a page size of `0`, no limit. -/
def getStateRangeScanIterator (db : VersionedDB) (ns startKey endKey : Bytes) : KVScanner :=
  getStateRangeScanIteratorWithPagination db ns startKey endKey 0

/-- `fullDBScanner`, its iterator over the keys from `'d'` up to `'e'`. -/
structure FullDBScanner where
  dbItr : Iterator Bytes Bytes
  toSkip : Bytes → Bool
  inRange : ∀ e ∈ dbItr.entries, dataKeyPrefix ≤ e.1 ∧ e.1 < dataKeyStopper

def newFullDBScanner (db : VersionedDB) (skipNamespace : Bytes → Bool) : FullDBScanner where
  dbItr := db.iterator dataKeyPrefix dataKeyStopper
  toSkip := skipNamespace
  inRange e he := by
    simpa using (List.mem_filter.1 he).2

section Keys

theorem encodeDataKey_eq (ns key : Bytes) : encodeDataKey ns key = 0x64 :: (ns ++ 0 :: key) := by
  simp [encodeDataKey, dataKeyPrefix, nsKeySep]

theorem dataKeyStarterForNextNamespace_eq (ns : Bytes) :
    dataKeyStarterForNextNamespace ns = 0x64 :: (ns ++ [1]) := by
  simp [dataKeyStarterForNextNamespace, dataKeyPrefix, lastKeyIndicator]

theorem exists_eq_append_zero {k : Bytes} (hk : (0 : UInt8) ∈ k) :
    ∃ pre r, (0 : UInt8) ∉ pre ∧ k = pre ++ 0 :: r := by
  induction k with
  | nil => cases hk
  | cons c k ih =>
    rcases eq_or_ne c 0 with rfl | hc
    · exact ⟨[], k, List.not_mem_nil, rfl⟩
    · obtain ⟨pre, r, hPre, rfl⟩ := ih (List.mem_of_ne_of_mem (Ne.symm hc) hk)
      refine ⟨c :: pre, r, ?_, rfl⟩
      rintro (_ | ⟨_, h0⟩)
      · exact hc rfl
      · exact hPre h0

theorem splitN2_append_zero {pre : Bytes} (hPre : (0 : UInt8) ∉ pre) (r : Bytes) :
    splitN2 (pre ++ 0 :: r) 0 = [pre, r] := by
  have hPos : ∀ a ∈ pre, (a != 0) = true := fun a ha => bne_iff_ne.2 fun h0 => hPre (h0 ▸ ha)
  rw [splitN2, if_pos (List.mem_append_right _ List.mem_cons_self),
    List.takeWhile_append_of_pos hPos, List.dropWhile_append_of_pos hPos]
  simp

theorem decodeDataKey_of_eq {b : UInt8} (hb : b ≠ 0) {ns : Bytes} (hns : (0 : UInt8) ∉ ns)
    (key : Bytes) : decodeDataKey (b :: (ns ++ 0 :: key)) = .ok (ns, key) := by
  have hPre : (0 : UInt8) ∉ b :: ns := by
    rintro (_ | ⟨_, h0⟩)
    · exact hb rfl
    · exact hns h0
  rw [decodeDataKey, nsKeySep, ← List.cons_append, splitN2_append_zero hPre]
  rfl

theorem eq_of_decodeDataKey {k ns key : Bytes} (h : decodeDataKey k = .ok (ns, key)) :
    ∃ b, b ≠ 0 ∧ (0 : UInt8) ∉ ns ∧ k = b :: (ns ++ 0 :: key) := by
  by_cases hk : (0 : UInt8) ∈ k
  · obtain ⟨pre, r, hPre, rfl⟩ := exists_eq_append_zero hk
    rw [decodeDataKey, nsKeySep, splitN2_append_zero hPre] at h
    cases pre with
    | nil => cases h
    | cons b ns' =>
      have hEq : (Except.ok (ns', r) : Run (Bytes × Bytes)) = .ok (ns, key) := h
      cases hEq
      exact ⟨b, fun h0 => hPre (h0 ▸ List.mem_cons_self),
        fun h0 => hPre (List.mem_cons_of_mem b h0), rfl⟩
  · rw [decodeDataKey, nsKeySep, splitN2, if_neg hk] at h
    cases k with
    | nil => cases h
    | cons c k => cases h

theorem decodeDataKey_encodeDataKey {ns : Bytes} (hns : (0 : UInt8) ∉ ns) (key : Bytes) :
    decodeDataKey (encodeDataKey ns key) = .ok (ns, key) := by
  rw [encodeDataKey_eq]
  exact decodeDataKey_of_eq (by decide) hns key

theorem lt_dataKeyStarterForNextNamespace {k ns key : Bytes} (h : decodeDataKey k = .ok (ns, key))
    (hHigh : k < dataKeyStopper) : k < dataKeyStarterForNextNamespace ns := by
  obtain ⟨b, -, -, rfl⟩ := eq_of_decodeDataKey h
  rw [dataKeyStopper, List.cons_lt_cons_iff] at hHigh
  have hFirst : b.toNat < 0x65 := by
    rcases hHigh with hLt | ⟨-, hNil⟩
    · exact UInt8.lt_iff_toNat_lt.1 hLt
    · exact absurd hNil (List.not_lt_nil _)
  rw [dataKeyStarterForNextNamespace_eq, List.cons_lt_cons_iff]
  rcases Nat.lt_or_ge b.toNat 0x64 with hLt | hGe
  · exact .inl (UInt8.lt_iff_toNat_lt.2 hLt)
  · have hb : b = 0x64 := UInt8.toNat_inj.1 (by simp only [UInt8.reduceToNat]; omega)
    exact .inr ⟨hb, (append_lt_append_left_iff ns).2 (List.cons_lt_cons_iff.2 (.inl (by decide)))⟩

theorem encodeDataKey_lt_iff {ns ns' : Bytes} (hns : (0 : UInt8) ∉ ns) (hns' : (0 : UInt8) ∉ ns')
    (key key' : Bytes) :
    encodeDataKey ns key < encodeDataKey ns' key' ↔ ns < ns' ∨ (ns = ns' ∧ key < key') := by
  rw [encodeDataKey_eq, encodeDataKey_eq, List.cons_lt_cons_iff]
  simp only [lt_irrefl, false_or, true_and]
  exact append_zero_lt_append_zero_iff hns hns' key key'

theorem encodeDataKey_lt_starter_iff {ns ns' : Bytes} (hns : (0 : UInt8) ∉ ns)
    (hns' : (0 : UInt8) ∉ ns') (key : Bytes) :
    encodeDataKey ns' key < dataKeyStarterForNextNamespace ns ↔ ns' < ns ∨ ns' = ns := by
  rw [encodeDataKey_eq, dataKeyStarterForNextNamespace_eq, List.cons_lt_cons_iff]
  simp only [lt_irrefl, false_or, true_and]
  exact append_zero_lt_append_one_iff hns' hns key

end Keys

theorem length_rest_skip_lt {it : Iterator Bytes Bytes} {dbKey dbVal ns key : Bytes}
    (hRange : ∀ e ∈ it.entries, e.1 < dataKeyStopper)
    (hCur : it.next.current? = some (dbKey, dbVal)) (hKey : decodeDataKey dbKey = .ok (ns, key)) :
    ((it.next.seek (dataKeyStarterForNextNamespace ns)).prev).rest.length < it.rest.length := by
  obtain ⟨e, r, hRest⟩ : ∃ e r, it.rest = e :: r := by
    cases hRest : it.rest with
    | nil => rw [(Iterator.next_of_rest_nil hRest).1] at hCur; cases hCur
    | cons e r => exact ⟨e, r, rfl⟩
  obtain ⟨hNextCur, hNextRest⟩ := Iterator.next_of_rest_cons hRest
  have hMem : (dbKey, dbVal) ∈ it.next.entries := Iterator.mem_of_current? hCur
  have hLt := lt_dataKeyStarterForNextNamespace hKey (hRange _ hMem)
  rw [Iterator.rest_prev_seek_of_current? hCur hLt, hNextRest, hRest, List.length_cons]
  exact Nat.lt_succ_of_le (List.dropWhile_sublist _).length_le

set_option linter.unusedVariables false in
/-- `fullDBScanner.Next`: the next entry of a namespace not skipped, in key order. A namespace to
skip is left by `Seek` to its end and `Prev`, so that the loop's `Next` stands at the first key
after it; an error of the iterator, which this store does not raise, is left out. -/
def FullDBScanner.next (decodeValue : Bytes → Run VersionedValue) (s : FullDBScanner) :
    Run (Option VersionedKV × FullDBScanner) :=
  let dbItr := s.dbItr.next
  match hCur : dbItr.current? with
  | none => .ok (none, { s with dbItr })
  | some (dbKey, dbVal) =>
    match hKey : decodeDataKey dbKey with
    | .error err => .error err
    | .ok (ns, key) =>
      match decodeValue dbVal with
      | .error err => .error err
      | .ok versionedVal =>
        if !s.toSkip ns then .ok (some ⟨ns, key, versionedVal⟩, { s with dbItr })
        else
          FullDBScanner.next decodeValue
            { s with dbItr := (dbItr.seek (dataKeyStarterForNextNamespace ns)).prev }
termination_by s.dbItr.rest.length
decreasing_by
  exact length_rest_skip_lt (fun e he => (s.inRange e he).2) hCur hKey

section RangeScan

def rangeOutput (decode : Bytes → VersionedValue) (ns : Bytes) (r : List (Bytes × Bytes)) :
    List VersionedKV :=
  r.filterMap fun e =>
    match decodeDataKey e.1 with
    | .ok (_, key) => some ⟨ns, key, decode e.2⟩
    | .error _ => none

variable (decode : Bytes → VersionedValue)

theorem KVScanner.next_of_rest_nil {scanner : KVScanner} (hLimit : scanner.requestedLimit = 0)
    (h : scanner.dbItr.rest = []) :
    ∃ scanner', scanner.next (fun b => .ok (decode b)) = .ok (none, scanner') := by
  have hNoLimit : (scanner.requestedLimit > 0 &&
      scanner.totalRecordsReturned >= scanner.requestedLimit) = false := by
    rw [hLimit]
    rfl
  refine ⟨{ scanner with dbItr := scanner.dbItr.next }, ?_⟩
  rw [KVScanner.next, if_neg (by rw [hNoLimit]; decide)]
  dsimp only
  rw [(Iterator.next_of_rest_nil h).1]

theorem KVScanner.next_of_rest_cons {scanner : KVScanner} (hLimit : scanner.requestedLimit = 0)
    {e : Bytes × Bytes} {r : List (Bytes × Bytes)} (h : scanner.dbItr.rest = e :: r)
    {ns key : Bytes} (hKey : decodeDataKey e.1 = .ok (ns, key)) :
    ∃ scanner', scanner.next (fun b => .ok (decode b)) =
        .ok (some ⟨scanner.ns, key, decode e.2⟩, scanner') ∧
      scanner'.ns = scanner.ns ∧ scanner'.requestedLimit = 0 ∧ scanner'.dbItr.rest = r := by
  have hNoLimit : (scanner.requestedLimit > 0 &&
      scanner.totalRecordsReturned >= scanner.requestedLimit) = false := by
    rw [hLimit]
    rfl
  obtain ⟨hCur, hRest⟩ := Iterator.next_of_rest_cons h
  refine ⟨{ scanner with
      dbItr := scanner.dbItr.next
      totalRecordsReturned := scanner.totalRecordsReturned + 1 }, ?_, rfl, hLimit, hRest⟩
  rw [KVScanner.next, if_neg (by rw [hNoLimit]; decide)]
  dsimp only
  rw [hCur]
  dsimp only
  rw [hKey]
  rfl

theorem KVScanner.yields_rangeOutput (scanner : KVScanner) (hLimit : scanner.requestedLimit = 0)
    (hKeys : ∀ e ∈ scanner.dbItr.rest, ∃ ns key, decodeDataKey e.1 = .ok (ns, key)) :
    Yields (KVScanner.next fun b => .ok (decode b)) scanner
      (rangeOutput decode scanner.ns scanner.dbItr.rest) := by
  induction hRest : scanner.dbItr.rest generalizing scanner with
  | nil =>
    obtain ⟨scanner', hStep⟩ := KVScanner.next_of_rest_nil decode hLimit hRest
    exact .done hStep
  | cons e r ih =>
    obtain ⟨ns, key, hKey⟩ := hKeys e (hRest ▸ List.mem_cons_self)
    obtain ⟨scanner', hStep, hNs, hLimit', hRest'⟩ :=
      KVScanner.next_of_rest_cons decode hLimit hRest hKey
    have hOut : rangeOutput decode scanner.ns (e :: r) =
        ⟨scanner.ns, key, decode e.2⟩ :: rangeOutput decode scanner.ns r := by
      simp only [rangeOutput, List.filterMap_cons, hKey]
    rw [hOut]
    refine .more hStep ?_
    have hYields := ih scanner' hLimit' (fun x hx => hKeys x (hRest ▸ List.mem_cons_of_mem e (hRest' ▸ hx)))
      hRest'
    rwa [hNs] at hYields

end RangeScan

section FullScan

def fullOutput (decode : Bytes → VersionedValue) (toSkip : Bytes → Bool)
    (r : List (Bytes × Bytes)) : List VersionedKV :=
  r.filterMap fun e =>
    match decodeDataKey e.1 with
    | .ok (ns, key) => if toSkip ns then none else some ⟨ns, key, decode e.2⟩
    | .error _ => none

variable (decode : Bytes → VersionedValue)

theorem FullDBScanner.next_of_rest_nil {s : FullDBScanner} (h : s.dbItr.rest = []) :
    ∃ s', s.next (fun b => .ok (decode b)) = .ok (none, s') := by
  rw [FullDBScanner.next]
  split
  · exact ⟨_, rfl⟩
  · rename_i hSome
    rw [(Iterator.next_of_rest_nil h).1] at hSome
    cases hSome

theorem FullDBScanner.next_of_rest_cons_keep {s : FullDBScanner} {e : Bytes × Bytes}
    {r : List (Bytes × Bytes)} (h : s.dbItr.rest = e :: r) {ns key : Bytes}
    (hKey : decodeDataKey e.1 = .ok (ns, key)) (hKeep : s.toSkip ns = false) :
    ∃ s', s.next (fun b => .ok (decode b)) = .ok (some ⟨ns, key, decode e.2⟩, s') ∧
      s'.toSkip = s.toSkip ∧ s'.dbItr.rest = r := by
  obtain ⟨hCur, hRest⟩ := Iterator.next_of_rest_cons h
  refine ⟨{ s with dbItr := s.dbItr.next }, ?_, rfl, hRest⟩
  rw [FullDBScanner.next]
  split
  · rename_i hNone
    rw [hCur] at hNone
    cases hNone
  · rename_i dbKey dbVal hSome
    rw [hCur] at hSome
    cases hSome
    split
    · rename_i err hErr
      rw [hKey] at hErr
      cases hErr
    · rename_i ns' key' hOk
      rw [hKey] at hOk
      cases hOk
      simp [hKeep]

theorem FullDBScanner.next_of_rest_cons_skip {s : FullDBScanner} {e : Bytes × Bytes}
    {r : List (Bytes × Bytes)} (h : s.dbItr.rest = e :: r) {ns key : Bytes}
    (hKey : decodeDataKey e.1 = .ok (ns, key)) (hSkip : s.toSkip ns = true) :
    ∃ s' : FullDBScanner, s.next (fun b => .ok (decode b)) = s'.next (fun b => .ok (decode b)) ∧
      s'.toSkip = s.toSkip ∧
      s'.dbItr.rest = r.dropWhile fun x => decide (x.1 < dataKeyStarterForNextNamespace ns) := by
  obtain ⟨hCur, hRest⟩ := Iterator.next_of_rest_cons h
  have hMem : e ∈ s.dbItr.next.entries := Iterator.mem_of_current? hCur
  have hLt := lt_dataKeyStarterForNextNamespace hKey (s.inRange e hMem).2
  refine ⟨{ s with dbItr := (s.dbItr.next.seek (dataKeyStarterForNextNamespace ns)).prev }, ?_, rfl,
    ?_⟩
  · rw [FullDBScanner.next]
    split
    · rename_i hNone
      rw [hCur] at hNone
      cases hNone
    · rename_i dbKey dbVal hSome
      rw [hCur] at hSome
      cases hSome
      split
      · rename_i err hErr
        rw [hKey] at hErr
        cases hErr
      · rename_i ns' key' hOk
        rw [hKey] at hOk
        cases hOk
        simp [hSkip]
  · show (s.dbItr.next.seek (dataKeyStarterForNextNamespace ns)).prev.rest = _
    rw [Iterator.rest_prev_seek_of_current? hCur hLt, hRest]
    congr
    funext x
    exact decide_eq_decide.2 Iff.rfl

theorem fullOutput_append (toSkip : Bytes → Bool) (l l' : List (Bytes × Bytes)) :
    fullOutput decode toSkip (l ++ l') = fullOutput decode toSkip l ++ fullOutput decode toSkip l' :=
  List.filterMap_append

theorem fullOutput_skip (toSkip : Bytes → Bool) {e : Bytes × Bytes} {r : List (Bytes × Bytes)}
    (hSorted : (e :: r).Pairwise fun a b => a.1 < b.1)
    (hKeys : ∀ x ∈ e :: r, ∃ ns key, (0 : UInt8) ∉ ns ∧ x.1 = encodeDataKey ns key)
    {ns key : Bytes} (hns : (0 : UInt8) ∉ ns) (hEnc : e.1 = encodeDataKey ns key)
    (hSkip : toSkip ns = true) :
    fullOutput decode toSkip (e :: r) =
      fullOutput decode toSkip
        (r.dropWhile fun x => decide (x.1 < dataKeyStarterForNextNamespace ns)) := by
  have hHead : fullOutput decode toSkip (e :: r) = fullOutput decode toSkip r := by
    simp only [fullOutput, List.filterMap_cons, hEnc, decodeDataKey_encodeDataKey hns, hSkip,
      if_true]
  have hJumped : fullOutput decode toSkip
      (r.takeWhile fun x => decide (x.1 < dataKeyStarterForNextNamespace ns)) = [] := by
    rw [fullOutput, List.filterMap_eq_nil_iff]
    intro x hx
    have hxr : x ∈ r := List.takeWhile_subset _ hx
    have hBelow := List.mem_takeWhile_imp hx
    obtain ⟨ns', key', hns', hxEnc⟩ := hKeys x (List.mem_cons_of_mem e hxr)
    have hAfter : e.1 < x.1 := (List.pairwise_cons.1 hSorted).1 x hxr
    rw [hEnc, hxEnc, encodeDataKey_lt_iff hns hns'] at hAfter
    rw [decide_eq_true_eq, hxEnc, encodeDataKey_lt_starter_iff hns hns'] at hBelow
    have hSame : ns' = ns := by
      rcases hAfter with hLt | ⟨hEq, -⟩
      · rcases hBelow with hLt' | hEq'
        · exact absurd (lt_trans hLt hLt') (lt_irrefl ns)
        · exact hEq'
      · exact hEq.symm
    simp only [hxEnc, hSame, decodeDataKey_encodeDataKey hns, hSkip, if_true]
  rw [hHead]
  conv_lhs => rw [← List.takeWhile_append_dropWhile (p := fun x => decide (x.1 <
    dataKeyStarterForNextNamespace ns)) (l := r)]
  rw [fullOutput_append, hJumped, List.nil_append]

theorem FullDBScanner.yields_fullOutput (s : FullDBScanner)
    (hKeys : ∀ e ∈ s.dbItr.rest, ∃ ns key, (0 : UInt8) ∉ ns ∧ e.1 = encodeDataKey ns key) :
    Yields (FullDBScanner.next fun b => .ok (decode b)) s
      (fullOutput decode s.toSkip s.dbItr.rest) := by
  induction hLen : s.dbItr.rest.length using Nat.strongRecOn generalizing s with
  | ind n ih =>
    cases hRest : s.dbItr.rest with
    | nil =>
      obtain ⟨s', hStep⟩ := FullDBScanner.next_of_rest_nil decode hRest
      exact .done hStep
    | cons e r =>
      rw [hRest] at hKeys hLen
      obtain ⟨ns, key, hns, hEnc⟩ := hKeys e List.mem_cons_self
      have hKey : decodeDataKey e.1 = .ok (ns, key) := hEnc ▸ decodeDataKey_encodeDataKey hns key
      have hKeysR : ∀ x ∈ r, ∃ ns key, (0 : UInt8) ∉ ns ∧ x.1 = encodeDataKey ns key :=
        fun x hx => hKeys x (List.mem_cons_of_mem e hx)
      cases hSkip : s.toSkip ns with
      | false =>
        obtain ⟨s', hStep, hToSkip, hRest'⟩ :=
          FullDBScanner.next_of_rest_cons_keep decode hRest hKey hSkip
        have hOut : fullOutput decode s.toSkip (e :: r) =
            ⟨ns, key, decode e.2⟩ :: fullOutput decode s.toSkip r := by
          simp only [fullOutput, List.filterMap_cons, hKey, hSkip, Bool.false_eq_true, if_false]
        rw [hOut]
        refine .more hStep ?_
        have hYields := ih r.length (by rw [← hLen, List.length_cons]; omega) s'
          (hRest' ▸ hKeysR) (by rw [hRest'])
        rwa [hToSkip, hRest'] at hYields
      | true =>
        obtain ⟨s', hStep, hToSkip, hRest'⟩ :=
          FullDBScanner.next_of_rest_cons_skip decode hRest hKey hSkip
        have hSorted : (e :: r).Pairwise fun a b => a.1 < b.1 := hRest ▸ s.dbItr.sorted_rest
        rw [fullOutput_skip decode s.toSkip hSorted hKeys hns hEnc hSkip]
        refine Yields.of_step_eq hStep ?_
        have hShorter : (r.dropWhile fun x => decide (x.1 < dataKeyStarterForNextNamespace ns)).length
            < n := by
          rw [← hLen, List.length_cons]
          exact Nat.lt_succ_of_le (List.dropWhile_sublist _).length_le
        have hYields := ih _ hShorter s'
          (hRest' ▸ fun x hx => hKeysR x (List.dropWhile_subset _ hx)) (by rw [hRest'])
        rwa [hToSkip, hRest'] at hYields

end FullScan

section Database

/-- Every key of the database is the savepoint or the data key of a namespace without `0x00`. -/
def StateKeysWellFormed (db : VersionedDB) : Prop :=
  ∀ e ∈ db.entries, e.1 = savePointKey ∨ ∃ ns key, (0 : UInt8) ∉ ns ∧ e.1 = encodeDataKey ns key

theorem set_lastKeyIndicator (ns : Bytes) :
    (encodeDataKey ns []).set ((encodeDataKey ns []).length - 1) lastKeyIndicator =
      dataKeyStarterForNextNamespace ns := by
  rw [encodeDataKey_eq, dataKeyStarterForNextNamespace_eq]
  simp [lastKeyIndicator]

theorem rest_getStateRangeScanIterator (db : VersionedDB) (ns startKey endKey : Bytes) :
    (getStateRangeScanIterator db ns startKey endKey).dbItr.rest =
      db.scan fun k => decide (encodeDataKey ns startKey ≤ k ∧
        k < if endKey = [] then dataKeyStarterForNextNamespace ns else encodeDataKey ns endKey) := by
  rw [getStateRangeScanIterator, getStateRangeScanIteratorWithPagination, newKVScanner]
  dsimp only
  rw [SortedMap.rest_iterator]
  split
  · rename_i hEnd
    subst hEnd
    rw [set_lastKeyIndicator]
  · rfl

theorem lt_savePointKey {b : UInt8} (hb : b < 0x73) (t : Bytes) : b :: t < savePointKey :=
  List.cons_lt_cons_iff.2 (.inl hb)

theorem dataKey_of_mem_scan {db : VersionedDB} (hWF : StateKeysWellFormed db) {P : Bytes → Bool}
    (hP : ∀ k, P k = true → k < savePointKey) {e : Bytes × Bytes} (he : e ∈ db.scan P) :
    ∃ ns key, (0 : UInt8) ∉ ns ∧ e.1 = encodeDataKey ns key := by
  obtain ⟨hMem, hIn⟩ := List.mem_filter.1 he
  rcases hWF e hMem with hSave | hData
  · exact absurd (hSave ▸ hP e.1 hIn) (lt_irrefl _)
  · exact hData

theorem encodeDataKey_mem_dataRange (ns key : Bytes) :
    dataKeyPrefix ≤ encodeDataKey ns key ∧ encodeDataKey ns key < dataKeyStopper := by
  rw [encodeDataKey_eq]
  exact ⟨le_append [0x64] _, List.cons_lt_cons_iff.2 (.inl (by decide))⟩

theorem encodeDataKey_mem_range_iff {ns ns' : Bytes} (hns : (0 : UInt8) ∉ ns)
    (hns' : (0 : UInt8) ∉ ns') (startKey endKey key : Bytes) :
    (encodeDataKey ns startKey ≤ encodeDataKey ns' key ∧
      encodeDataKey ns' key <
        if endKey = [] then dataKeyStarterForNextNamespace ns else encodeDataKey ns endKey) ↔
      ns' = ns ∧ startKey ≤ key ∧ (endKey = [] ∨ key < endKey) := by
  rw [← not_lt, encodeDataKey_lt_iff hns' hns, ← not_lt]
  split
  · rename_i hEnd
    rw [encodeDataKey_lt_starter_iff hns hns']
    rcases lt_trichotomy ns' ns with hLt | rfl | hGt
    · simp [hLt, hLt.ne]
    · simp [hEnd]
    · simp [hGt.ne', not_lt_of_gt hGt]
  · rename_i hEnd
    rw [encodeDataKey_lt_iff hns' hns]
    rcases lt_trichotomy ns' ns with hLt | rfl | hGt
    · simp [hLt, hLt.ne]
    · simp [hEnd]
    · simp [hGt.ne', not_lt_of_gt hGt]

theorem getState_eq_ok_some_iff (decode : Bytes → VersionedValue) (db : VersionedDB)
    (ns key : Bytes) (vv : VersionedValue) :
    getState (fun b => .ok (decode b)) db ns key = .ok (some vv) ↔
      ∃ v, db.get? (encodeDataKey ns key) = some v ∧ decode v = vv := by
  rw [getState]
  split
  · rename_i hNone
    simp [hNone]
  · rename_i v hSome
    simp [hSome]

end Database

section Outputs

variable (decode : Bytes → VersionedValue)

theorem mem_rangeOutput {ns : Bytes} (hns : (0 : UInt8) ∉ ns) {r : List (Bytes × Bytes)}
    (hKeys : ∀ e ∈ r, ∃ key, e.1 = encodeDataKey ns key) (kv : VersionedKV) :
    kv ∈ rangeOutput decode ns r ↔
      kv.ns = ns ∧ ∃ v, (encodeDataKey ns kv.key, v) ∈ r ∧ decode v = kv.versionedValue := by
  rw [rangeOutput, List.mem_filterMap]
  constructor
  · rintro ⟨e, he, hOut⟩
    obtain ⟨key, hEnc⟩ := hKeys e he
    rw [hEnc, decodeDataKey_encodeDataKey hns, Option.some.injEq] at hOut
    subst hOut
    exact ⟨rfl, e.2, hEnc ▸ he, rfl⟩
  · rintro ⟨hNs, v, hMem, hDecode⟩
    refine ⟨_, hMem, ?_⟩
    rw [decodeDataKey_encodeDataKey hns, Option.some.injEq, hDecode, ← hNs]

theorem pairwise_rangeOutput {ns : Bytes} (hns : (0 : UInt8) ∉ ns) {r : List (Bytes × Bytes)}
    (hSorted : r.Pairwise fun a b => a.1 < b.1)
    (hKeys : ∀ e ∈ r, ∃ key, e.1 = encodeDataKey ns key) :
    (rangeOutput decode ns r).Pairwise fun a b => a.key < b.key := by
  induction r with
  | nil => exact .nil
  | cons e r ih =>
    obtain ⟨key, hEnc⟩ := hKeys e List.mem_cons_self
    have hKeysR : ∀ x ∈ r, ∃ key, x.1 = encodeDataKey ns key :=
      fun x hx => hKeys x (List.mem_cons_of_mem e hx)
    have hOut : rangeOutput decode ns (e :: r) = ⟨ns, key, decode e.2⟩ :: rangeOutput decode ns r := by
      simp only [rangeOutput, List.filterMap_cons, hEnc, decodeDataKey_encodeDataKey hns]
    rw [hOut, List.pairwise_cons]
    refine ⟨?_, ih (List.pairwise_cons.1 hSorted).2 hKeysR⟩
    intro kv hkv
    obtain ⟨-, v, hMem, -⟩ := (mem_rangeOutput decode hns hKeysR kv).1 hkv
    have hLt := (List.pairwise_cons.1 hSorted).1 _ hMem
    rw [hEnc, encodeDataKey_lt_iff hns hns] at hLt
    rcases hLt with hLt | ⟨-, hLt⟩
    · exact absurd hLt (lt_irrefl ns)
    · exact hLt

theorem mem_fullOutput (toSkip : Bytes → Bool) {r : List (Bytes × Bytes)}
    (hKeys : ∀ e ∈ r, ∃ ns key, (0 : UInt8) ∉ ns ∧ e.1 = encodeDataKey ns key) (kv : VersionedKV) :
    kv ∈ fullOutput decode toSkip r ↔
      (0 : UInt8) ∉ kv.ns ∧ toSkip kv.ns = false ∧
        ∃ v, (encodeDataKey kv.ns kv.key, v) ∈ r ∧ decode v = kv.versionedValue := by
  rw [fullOutput, List.mem_filterMap]
  constructor
  · rintro ⟨e, he, hOut⟩
    obtain ⟨ns, key, hns, hEnc⟩ := hKeys e he
    rw [hEnc, decodeDataKey_encodeDataKey hns] at hOut
    dsimp only at hOut
    cases hSkip : toSkip ns with
    | true => rw [hSkip, if_pos rfl] at hOut; cases hOut
    | false =>
      rw [hSkip, if_neg Bool.false_ne_true, Option.some.injEq] at hOut
      subst hOut
      exact ⟨hns, hSkip, e.2, hEnc ▸ he, rfl⟩
  · rintro ⟨hns, hSkip, v, hMem, hDecode⟩
    refine ⟨_, hMem, ?_⟩
    dsimp only
    rw [decodeDataKey_encodeDataKey hns]
    dsimp only
    rw [hSkip, if_neg Bool.false_ne_true, hDecode]

theorem pairwise_fullOutput (toSkip : Bytes → Bool) {r : List (Bytes × Bytes)}
    (hSorted : r.Pairwise fun a b => a.1 < b.1)
    (hKeys : ∀ e ∈ r, ∃ ns key, (0 : UInt8) ∉ ns ∧ e.1 = encodeDataKey ns key) :
    (fullOutput decode toSkip r).Pairwise
      fun a b => a.ns < b.ns ∨ (a.ns = b.ns ∧ a.key < b.key) := by
  induction r with
  | nil => exact .nil
  | cons e r ih =>
    obtain ⟨ns, key, hns, hEnc⟩ := hKeys e List.mem_cons_self
    have hKeysR : ∀ x ∈ r, ∃ ns key, (0 : UInt8) ∉ ns ∧ x.1 = encodeDataKey ns key :=
      fun x hx => hKeys x (List.mem_cons_of_mem e hx)
    have hTail := ih (List.pairwise_cons.1 hSorted).2 hKeysR
    cases hSkip : toSkip ns with
    | true =>
      have hOut : fullOutput decode toSkip (e :: r) = fullOutput decode toSkip r := by
        simp only [fullOutput, List.filterMap_cons, hEnc, decodeDataKey_encodeDataKey hns, hSkip,
          if_true]
      rwa [hOut]
    | false =>
      have hOut : fullOutput decode toSkip (e :: r) =
          ⟨ns, key, decode e.2⟩ :: fullOutput decode toSkip r := by
        simp only [fullOutput, List.filterMap_cons, hEnc, decodeDataKey_encodeDataKey hns, hSkip,
          Bool.false_eq_true, if_false]
      rw [hOut, List.pairwise_cons]
      refine ⟨?_, hTail⟩
      intro kv hkv
      obtain ⟨hns', -, v, hMem, -⟩ := (mem_fullOutput decode toSkip hKeysR kv).1 hkv
      have hLt := (List.pairwise_cons.1 hSorted).1 _ hMem
      rwa [hEnc, encodeDataKey_lt_iff hns hns'] at hLt

end Outputs

section Commit

def updateOp (encodeValue : VersionedValue → Run Bytes) (ns key : String) (vv : VersionedValue) :
    Run (BatchOp Bytes Bytes) :=
  let dataKey := encodeDataKey (History.goBytes ns) (History.goBytes key)
  match vv.value with
  | none => .ok (.delete dataKey)
  | some _ => do
    let encodedVal ← encodeValue vv
    pure (.put dataKey encodedVal)

/-- `ApplyUpdates`: the puts and deletes of the batch's updates, then the savepoint unless the
height is nil, written as one batch. The source visits the namespaces, then the keys of each; the
batch's updates are one map over pairs here, visited in its order. -/
def applyUpdates (encodeValue : VersionedValue → Run Bytes) (db : VersionedDB)
    (batch : UpdateBatch) (height : Option Height) : Run VersionedDB := do
  let ops ← batch.updates.entries.mapM fun e => updateOp encodeValue e.1.1 e.1.2 e.2
  let ops := match height with
    | some height => ops ++ [.put savePointKey height.toBytes]
    | none => ops
  pure (db.writeBatch ops)

theorem stateKeysWellFormed_empty : StateKeysWellFormed .empty :=
  fun _ he => absurd he List.not_mem_nil

theorem StateKeysWellFormed.applyUpdates {encodeValue : VersionedValue → Run Bytes}
    {db db' : VersionedDB} (hWF : StateKeysWellFormed db) {batch : UpdateBatch}
    {height : Option Height}
    (hBatch : ∀ e ∈ batch.updates.entries, (0 : UInt8) ∉ History.goBytes e.1.1)
    (h : applyUpdates encodeValue db batch height = .ok db') : StateKeysWellFormed db' := by
  obtain ⟨ops, hOps, hWrite⟩ := (bind_eq_ok _ _ _).1 h
  have hOpsKeys : ∀ k v, BatchOp.put k v ∈ ops →
      ∃ ns key, (0 : UInt8) ∉ ns ∧ k = encodeDataKey ns key := by
    intro k v hMem
    obtain ⟨u, hu, hOp⟩ := exists_of_mem_mapM hOps hMem
    refine ⟨History.goBytes u.1.1, History.goBytes u.1.2, hBatch u hu, ?_⟩
    unfold updateOp at hOp
    split at hOp
    · cases hOp
    · obtain ⟨encodedVal, -, hPut⟩ := (bind_eq_ok _ _ _).1 hOp
      cases hPut
      rfl
  intro e he
  have hGet := (SortedMap.get?_eq_some_iff _ e.1 e.2).2 he
  cases height with
  | none =>
    cases hWrite
    rcases SortedMap.get?_writeBatch_eq_some db ops hGet with hPut | hOld
    · exact .inr (hOpsKeys _ _ hPut)
    · exact hWF e ((SortedMap.get?_eq_some_iff _ _ _).1 hOld)
  | some height =>
    cases hWrite
    rcases SortedMap.get?_writeBatch_eq_some db _ hGet with hPut | hOld
    · rcases List.mem_append.1 hPut with hPut | hSave
      · exact .inr (hOpsKeys _ _ hPut)
      · rw [List.mem_singleton, BatchOp.put.injEq] at hSave
        exact .inl hSave.1
    · exact hWF e ((SortedMap.get?_eq_some_iff _ _ _).1 hOld)

inductive Committed (encodeValue : VersionedValue → Run Bytes) : VersionedDB → Prop
  | empty : Committed encodeValue .empty
  | applyUpdates {db db' : VersionedDB} {batch : UpdateBatch} {height : Option Height} :
      Committed encodeValue db →
      (∀ e ∈ batch.updates.entries, (0 : UInt8) ∉ History.goBytes e.1.1) →
      applyUpdates encodeValue db batch height = .ok db' → Committed encodeValue db'

theorem Committed.wellFormed {encodeValue : VersionedValue → Run Bytes} {db : VersionedDB}
    (h : Committed encodeValue db) : StateKeysWellFormed db := by
  induction h with
  | empty => exact stateKeysWellFormed_empty
  | applyUpdates _ hBatch hApply ih => exact ih.applyUpdates hBatch hApply

end Commit

section Specs

variable (decode : Bytes → VersionedValue)

theorem getStateRangeScanIterator_spec {db : VersionedDB} (hWF : StateKeysWellFormed db)
    {ns : Bytes} (hns : (0 : UInt8) ∉ ns) (startKey endKey : Bytes) :
    ∃ out, Yields (KVScanner.next fun b => .ok (decode b))
        (getStateRangeScanIterator db ns startKey endKey) out ∧
      out.Pairwise (fun a b => a.key < b.key) ∧
      ∀ kv, kv ∈ out ↔ kv.ns = ns ∧ startKey ≤ kv.key ∧ (endKey = [] ∨ kv.key < endKey) ∧
        getState (fun b => .ok (decode b)) db ns kv.key = .ok (some kv.versionedValue) := by
  have hRest := rest_getStateRangeScanIterator db ns startKey endKey
  have hBelow : ∀ k, decide (encodeDataKey ns startKey ≤ k ∧ k <
      if endKey = [] then dataKeyStarterForNextNamespace ns else encodeDataKey ns endKey) = true →
      k < savePointKey := by
    intro k hk
    rw [decide_eq_true_eq] at hk
    refine lt_trans hk.2 ?_
    split
    · rw [dataKeyStarterForNextNamespace_eq]
      exact lt_savePointKey (by decide) _
    · rw [encodeDataKey_eq]
      exact lt_savePointKey (by decide) _
  have hRange : ∀ e ∈ (getStateRangeScanIterator db ns startKey endKey).dbItr.rest,
      ∃ key, e.1 = encodeDataKey ns key := by
    rw [hRest]
    intro e he
    obtain ⟨ns', key, hns', hEnc⟩ := dataKey_of_mem_scan hWF hBelow he
    have hIn := (List.mem_filter.1 he).2
    rw [decide_eq_true_eq, hEnc, encodeDataKey_mem_range_iff hns hns'] at hIn
    exact ⟨key, hIn.1 ▸ hEnc⟩
  refine ⟨rangeOutput decode ns (getStateRangeScanIterator db ns startKey endKey).dbItr.rest,
    KVScanner.yields_rangeOutput decode _ rfl fun e he => ?_,
    pairwise_rangeOutput decode hns (Iterator.sorted_rest _) hRange, fun kv => ?_⟩
  · obtain ⟨key, hEnc⟩ := hRange e he
    exact ⟨ns, key, hEnc ▸ decodeDataKey_encodeDataKey hns key⟩
  · rw [mem_rangeOutput decode hns hRange, hRest, getState_eq_ok_some_iff]
    simp only [SortedMap.mem_scan, decide_eq_true_eq, encodeDataKey_mem_range_iff hns hns, true_and]
    constructor
    · rintro ⟨hNs, v, ⟨hGet, hStart, hEnd⟩, hDecode⟩
      exact ⟨hNs, hStart, hEnd, v, hGet, hDecode⟩
    · rintro ⟨hNs, hStart, hEnd, v, hGet, hDecode⟩
      exact ⟨hNs, v, ⟨hGet, hStart, hEnd⟩, hDecode⟩

theorem fullDBScanner_spec {db : VersionedDB} (hWF : StateKeysWellFormed db)
    (toSkip : Bytes → Bool) :
    ∃ out, Yields (FullDBScanner.next fun b => .ok (decode b)) (newFullDBScanner db toSkip) out ∧
      out.Pairwise (fun a b => a.ns < b.ns ∨ (a.ns = b.ns ∧ a.key < b.key)) ∧
      ∀ kv, kv ∈ out ↔ (0 : UInt8) ∉ kv.ns ∧ toSkip kv.ns = false ∧
        getState (fun b => .ok (decode b)) db kv.ns kv.key = .ok (some kv.versionedValue) := by
  have hRest : (newFullDBScanner db toSkip).dbItr.rest = _ :=
    SortedMap.rest_iterator db dataKeyPrefix dataKeyStopper
  have hKeys : ∀ e ∈ (newFullDBScanner db toSkip).dbItr.rest,
      ∃ ns key, (0 : UInt8) ∉ ns ∧ e.1 = encodeDataKey ns key := by
    rw [hRest]
    intro e he
    refine dataKey_of_mem_scan hWF (fun k hk => ?_) he
    simp only [decide_eq_true_eq] at hk
    exact lt_trans hk.2 (lt_savePointKey (b := 0x65) (by decide) [])
  refine ⟨fullOutput decode toSkip (newFullDBScanner db toSkip).dbItr.rest,
    FullDBScanner.yields_fullOutput decode _ hKeys,
    pairwise_fullOutput decode toSkip (Iterator.sorted_rest _) hKeys, fun kv => ?_⟩
  rw [mem_fullOutput decode toSkip hKeys, hRest, getState_eq_ok_some_iff]
  simp only [SortedMap.mem_scan, decide_eq_true_eq, encodeDataKey_mem_dataRange, and_true]

/-- The LevelDB encoding of the state keeps namespaces without `0x00` apart: `decodeDataKey`
reads back what `encodeDataKey` writes; over a database whose namespaces hold no `0x00`, the
range query of a namespace returns exactly its keys in the range, in byte order; and the full
scan returns every entry of each namespace it does not skip once, in the order of namespace and
key, and none of a skipped one. -/
theorem stateLevelDB_scans_isolate_namespaces (decode : Bytes → VersionedValue) :
    (∀ ns key, (0 : UInt8) ∉ ns → decodeDataKey (encodeDataKey ns key) = .ok (ns, key)) ∧
    (∀ db, StateKeysWellFormed db → ∀ ns startKey endKey, (0 : UInt8) ∉ ns →
      ∃ out, Yields (KVScanner.next fun b => .ok (decode b))
          (getStateRangeScanIterator db ns startKey endKey) out ∧
        out.Pairwise (fun a b => a.key < b.key) ∧
        ∀ kv, kv ∈ out ↔ kv.ns = ns ∧ startKey ≤ kv.key ∧ (endKey = [] ∨ kv.key < endKey) ∧
          getState (fun b => .ok (decode b)) db ns kv.key = .ok (some kv.versionedValue)) ∧
    (∀ db, StateKeysWellFormed db → ∀ toSkip : Bytes → Bool,
      ∃ out, Yields (FullDBScanner.next fun b => .ok (decode b)) (newFullDBScanner db toSkip) out ∧
        out.Pairwise (fun a b => a.ns < b.ns ∨ (a.ns = b.ns ∧ a.key < b.key)) ∧
        ∀ kv, kv ∈ out ↔ (0 : UInt8) ∉ kv.ns ∧ toSkip kv.ns = false ∧
          getState (fun b => .ok (decode b)) db kv.ns kv.key = .ok (some kv.versionedValue)) :=
  ⟨fun _ key hns => decodeDataKey_encodeDataKey hns key,
    fun _ hWF _ startKey endKey hns => getStateRangeScanIterator_spec decode hWF hns startKey endKey,
    fun _ hWF toSkip => fullDBScanner_spec decode hWF toSkip⟩

def batchAX : UpdateBatch := UpdateBatch.newUpdateBatch.update "a" "x" ⟨some [1], [], ⟨1, 0⟩⟩

def encodeValueBytes (vv : VersionedValue) : Run Bytes := .ok (vv.value.getD [])

theorem stateLevelDB_scans_isolate_namespaces_batchAX :
    ∃ db, applyUpdates encodeValueBytes .empty batchAX none = .ok db ∧
      Committed encodeValueBytes db ∧
      ∃ out, Yields (KVScanner.next fun b => .ok ⟨some b, [], ⟨1, 0⟩⟩)
          (getStateRangeScanIterator db [0x61] [] []) out ∧
        out.Pairwise (fun a b => a.key < b.key) ∧
        ∀ kv, kv ∈ out ↔ kv.ns = [0x61] ∧ [] ≤ kv.key ∧ (([] : Bytes) = [] ∨ kv.key < []) ∧
          getState (fun b => .ok ⟨some b, [], ⟨1, 0⟩⟩) db [0x61] kv.key =
            .ok (some kv.versionedValue) := by
  obtain ⟨db, hApply⟩ : ∃ db, applyUpdates encodeValueBytes .empty batchAX none = .ok db :=
    ⟨_, rfl⟩
  have hCommitted : Committed encodeValueBytes db := .applyUpdates .empty (by decide +kernel) hApply
  exact ⟨db, hApply, hCommitted,
    (stateLevelDB_scans_isolate_namespaces fun b => ⟨some b, [], ⟨1, 0⟩⟩).2.1 db
      hCommitted.wellFormed [0x61] [] [] (by decide)⟩

theorem getStateRangeScanIterator_returns_key_of_other_namespace :
    Yields (KVScanner.next fun _ => .ok ⟨some [], [], ⟨0, 0⟩⟩)
      (getStateRangeScanIterator
        (SortedMap.empty.writeBatch [.put (encodeDataKey [0x61] [0x78]) [],
          .put (encodeDataKey [0x61, 0x00, 0x62] [0x79]) []])
        [0x61] [] [])
      [⟨[0x61], [0x62, 0x00, 0x79], ⟨some [], [], ⟨0, 0⟩⟩⟩, ⟨[0x61], [0x78], ⟨some [], [], ⟨0, 0⟩⟩⟩] := by
  have hRest : (getStateRangeScanIterator
      (SortedMap.empty.writeBatch [.put (encodeDataKey [0x61] [0x78]) [],
        .put (encodeDataKey [0x61, 0x00, 0x62] [0x79]) []])
      [0x61] [] []).dbItr.rest =
      [(encodeDataKey [0x61, 0x00, 0x62] [0x79], []), (encodeDataKey [0x61] [0x78], [])] := by
    decide
  have hYields := KVScanner.yields_rangeOutput (fun _ => ⟨some [], [], ⟨0, 0⟩⟩) _ rfl (by
    rw [hRest]
    intro e he
    rcases List.mem_pair.1 he with rfl | rfl
    · exact ⟨[0x61], [0x62, 0x00, 0x79], rfl⟩
    · exact ⟨[0x61], [0x78], rfl⟩)
  rw [hRest] at hYields
  exact hYields

end Specs

end FabricPeer.StateLevelDB
