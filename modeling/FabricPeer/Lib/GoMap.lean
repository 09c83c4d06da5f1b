import Mathlib.Data.List.Dedup
import Mathlib.Algebra.GroupWithZero.Nat

/-! # Go maps

A Go `map[K]V` is kept as the list of the assignments made to it, the latest first: a read
finds the latest assignment of its key, and `delete` drops every assignment of its key. Go
leaves the order in which `range` visits the keys unspecified; here it is the order of the
keys' latest assignments, which serves every loop whose effect does not depend on the order.
Nothing in this module refers to a particular program.
-/

namespace GoRun

set_option autoImplicit false

/-- A Go map, as the assignments made to it, the latest first. -/
structure GoMap (κ α : Type) where
  assignments : List (κ × α)
  deriving Repr

namespace GoMap

variable {κ α β : Type} [DecidableEq κ]

def empty : GoMap κ α := ⟨[]⟩

def get? (m : GoMap κ α) (k : κ) : Option α := m.assignments.lookup k

/-- `_, ok := m[k]`. -/
def contains (m : GoMap κ α) (k : κ) : Bool := (m.get? k).isSome

def insert (m : GoMap κ α) (k : κ) (v : α) : GoMap κ α := ⟨(k, v) :: m.assignments⟩

/-- `delete(m, k)`. -/
def delete (m : GoMap κ α) (k : κ) : GoMap κ α := ⟨m.assignments.filter fun e => e.1 != k⟩

/-- The keys of the map, each once, in the order `range` visits them. -/
def keys (m : GoMap κ α) : List κ := (m.assignments.map Prod.fst).dedup

/-- `for k, v := range m`: each key with its value. -/
def entries (m : GoMap κ α) : List (κ × α) :=
  m.keys.filterMap fun k => (m.get? k).map (k, ·)

def filterMapVal (m : GoMap κ α) (f : κ → α → Option β) : GoMap κ β :=
  ⟨m.entries.filterMap fun e => (f e.1 e.2).map (e.1, ·)⟩

@[simp] theorem get?_empty (k : κ) : (empty : GoMap κ α).get? k = none := rfl

@[simp] theorem get?_insert_self (m : GoMap κ α) (k : κ) (v : α) : (m.insert k v).get? k = some v :=
  List.lookup_cons_self

theorem get?_insert_of_ne (m : GoMap κ α) {k k' : κ} (v : α) (hNe : k' ≠ k) :
    (m.insert k v).get? k' = m.get? k' := by
  have hBeq : (k' == k) = false := beq_eq_false_iff_ne.mpr hNe
  simp only [get?, insert, List.lookup_cons, hBeq]

theorem get?_insert (m : GoMap κ α) (k k' : κ) (v : α) :
    (m.insert k v).get? k' = if k' = k then some v else m.get? k' := by
  split
  · subst_vars
    exact get?_insert_self m k' v
  · exact get?_insert_of_ne m v ‹_›

theorem forall_get?_insert {P : κ → α → Prop} {m : GoMap κ α}
    (hm : ∀ k v, m.get? k = some v → P k v) {k : κ} {v : α} (hNew : P k v) :
    ∀ k' v', (m.insert k v).get? k' = some v' → P k' v' := by
  intro k' v' h
  rw [get?_insert] at h
  split at h
  · cases h
    subst_vars
    exact hNew
  · exact hm k' v' h

theorem get?_foldl_insert {β : Type} (l : List β) (key : β → κ) (val : β → α) (m : GoMap κ α)
    (k : κ) :
    (l.foldl (fun m b => m.insert (key b) (val b)) m).get? k =
      ((l.reverse.find? fun b => key b = k).map val).or (m.get? k) := by
  induction l generalizing m with
  | nil => simp
  | cons b l ih =>
    rw [List.foldl_cons, ih, List.reverse_cons, List.find?_append, get?_insert]
    by_cases hk : key b = k
    · cases l.reverse.find? fun b => key b = k <;> simp [hk]
    · have hNe : ¬k = key b := fun h => hk h.symm
      cases l.reverse.find? fun b => key b = k <;> simp [hk, hNe]

theorem contains_eq_isSome (m : GoMap κ α) (k : κ) : m.contains k = (m.get? k).isSome := rfl

theorem get?_of_mem_entries (m : GoMap κ α) {e : κ × α} (h : e ∈ m.entries) :
    m.get? e.1 = some e.2 := by
  simp only [entries, List.mem_filterMap, Option.map_eq_some_iff] at h
  obtain ⟨k, -, v, hGet, rfl⟩ := h
  exact hGet

theorem isSome_lookup_iff (l : List (κ × α)) (k : κ) :
    (l.lookup k).isSome ↔ k ∈ l.map Prod.fst := by
  induction l with
  | nil => simp
  | cons e l ih =>
    obtain ⟨k', v'⟩ := e
    by_cases hk : k = k'
    · subst hk
      simp
    · have hBeq : (k == k') = false := beq_eq_false_iff_ne.mpr hk
      simp [List.lookup_cons, hBeq, ih, hk]

theorem lookup_of_mem_of_nodup {l : List (κ × α)} (hNodup : (l.map Prod.fst).Nodup) {k : κ} {v : α}
    (hMem : (k, v) ∈ l) : l.lookup k = some v := by
  induction l with
  | nil => cases hMem
  | cons e l ih =>
    obtain ⟨k', v'⟩ := e
    rw [List.map_cons, List.nodup_cons] at hNodup
    rcases List.mem_cons.1 hMem with hHead | hTail
    · obtain ⟨rfl, rfl⟩ := Prod.mk.inj hHead
      exact List.lookup_cons_self
    · have hNe : k ≠ k' := fun hEq => hNodup.1 (hEq ▸ List.mem_map.2 ⟨(k, v), hTail, rfl⟩)
      simp only [List.lookup_cons, beq_eq_false_iff_ne.2 hNe]
      exact ih hNodup.2 hTail

theorem mem_of_lookup_eq_some {l : List (κ × α)} {k : κ} {v : α} (h : l.lookup k = some v) :
    (k, v) ∈ l := by
  induction l with
  | nil => cases h
  | cons e l ih =>
    obtain ⟨k', v'⟩ := e
    by_cases hk : k = k'
    · subst hk
      rw [List.lookup_cons_self] at h
      cases h
      exact List.mem_cons_self
    · rw [List.lookup_cons, beq_eq_false_iff_ne.2 hk] at h
      exact List.mem_cons_of_mem _ (ih h)

theorem mem_keys (m : GoMap κ α) (k : κ) : k ∈ m.keys ↔ (m.get? k).isSome := by
  rw [keys, List.mem_dedup, get?, isSome_lookup_iff]

theorem mem_entries (m : GoMap κ α) (e : κ × α) : e ∈ m.entries ↔ m.get? e.1 = some e.2 := by
  refine ⟨get?_of_mem_entries m, fun hGet => ?_⟩
  simp only [entries, List.mem_filterMap, Option.map_eq_some_iff]
  exact ⟨e.1, (mem_keys m e.1).2 (by rw [hGet]; rfl), e.2, hGet, rfl⟩

theorem get?_delete (m : GoMap κ α) (k k' : κ) :
    (m.delete k).get? k' = if k' = k then none else m.get? k' := by
  unfold get? delete
  split
  · subst_vars
    rw [← Option.not_isSome_iff_eq_none, isSome_lookup_iff]
    simp
  · rename_i hNe
    induction m.assignments with
    | nil => rfl
    | cons e l ih =>
      obtain ⟨k'', v⟩ := e
      by_cases hk : k'' = k
      · have hBeq : (k' == k) = false := beq_eq_false_iff_ne.mpr hNe
        simp [hk, ih, List.lookup_cons, hBeq]
      · by_cases hk' : k' = k''
        · subst hk'
          simp [hk]
        · simp [hk, ih, List.lookup_cons, beq_eq_false_iff_ne.mpr hk']

theorem nodup_keys (m : GoMap κ α) : m.keys.Nodup := List.nodup_dedup _

theorem map_fst_entries (m : GoMap κ α) : m.entries.map Prod.fst = m.keys := by
  have hAll : ∀ k ∈ m.keys, (m.get? k).isSome := fun k hk => (mem_keys m k).1 hk
  unfold entries
  generalize m.keys = ks at hAll ⊢
  induction ks with
  | nil => rfl
  | cons k ks ih =>
    obtain ⟨v, hv⟩ := Option.isSome_iff_exists.1 (hAll k List.mem_cons_self)
    rw [List.filterMap_cons, hv, Option.map_some, List.map_cons,
      ih fun k' hk' => hAll k' (List.mem_cons_of_mem _ hk')]

theorem lookup_entries (m : GoMap κ α) (k : κ) : m.entries.lookup k = m.get? k := by
  cases hGet : m.get? k with
  | none =>
    have hNot : k ∉ m.entries.map Prod.fst := by
      rw [map_fst_entries, mem_keys, hGet]
      simp
    rw [← Option.not_isSome_iff_eq_none, isSome_lookup_iff]
    exact hNot
  | some v =>
    have hMem : (k, v) ∈ m.entries := (mem_entries m (k, v)).2 hGet
    have hNodup : (m.entries.map Prod.fst).Nodup := by
      rw [map_fst_entries]
      exact nodup_keys m
    obtain ⟨l₁, l₂, hSplit⟩ := List.append_of_mem hMem
    rw [hSplit] at hNodup ⊢
    have hNotIn : k ∉ l₁.map Prod.fst := by
      intro hIn
      simp only [List.map_append, List.map_cons] at hNodup
      exact (List.nodup_append.1 hNodup).2.2 k hIn k List.mem_cons_self rfl
    have hNone : l₁.lookup k = none := by
      rw [← Option.not_isSome_iff_eq_none, isSome_lookup_iff]
      exact hNotIn
    rw [List.lookup_append, hNone, Option.none_or, List.lookup_cons_self]

@[simp] theorem entries_insert_empty (k : κ) (v : α) :
    ((empty : GoMap κ α).insert k v).entries = [(k, v)] := by
  simp [entries, keys, insert, empty, get?]

theorem filterMapVal_insert_empty (k : κ) (v : α) (f : κ → α → Option β) (w : β)
    (hKeep : f k v = some w) : ((empty : GoMap κ α).insert k v).filterMapVal f = empty.insert k w := by
  simp only [filterMapVal, entries_insert_empty, List.filterMap_cons, hKeep, Option.map_some,
    List.filterMap_nil]
  rfl

theorem lookup_filterMap_of_nodup (f : κ → α → Option β) (l : List (κ × α))
    (hNodup : (l.map Prod.fst).Nodup) (k : κ) :
    (l.filterMap fun e => (f e.1 e.2).map (e.1, ·)).lookup k = (l.lookup k).bind (f k) := by
  induction l with
  | nil => rfl
  | cons e l ih =>
    obtain ⟨k', v'⟩ := e
    rw [List.map_cons, List.nodup_cons] at hNodup
    obtain ⟨hFresh, hNodup⟩ := hNodup
    by_cases hk : k = k'
    · subst hk
      have hNone : l.lookup k = none :=
        Option.not_isSome_iff_eq_none.1 fun h => hFresh ((isSome_lookup_iff l k).1 h)
      have hTail : (l.filterMap fun e => (f e.1 e.2).map (e.1, ·)).lookup k = none := by
        rw [ih hNodup, hNone]
        rfl
      cases hf : f k v' with
      | none => simp [hf, hTail]
      | some w => simp [hf]
    · have hBeq : (k == k') = false := beq_eq_false_iff_ne.mpr hk
      cases hf : f k' v' with
      | none => simp [hf, List.lookup_cons, hBeq, ih hNodup]
      | some w => simp [hf, List.lookup_cons, hBeq, ih hNodup]

theorem get?_filterMapVal (m : GoMap κ α) (f : κ → α → Option β) (k : κ) :
    (m.filterMapVal f).get? k = (m.get? k).bind (f k) := by
  have hNodup : (m.entries.map Prod.fst).Nodup := by
    rw [map_fst_entries]
    exact nodup_keys m
  rw [get?, filterMapVal, lookup_filterMap_of_nodup f _ hNodup, lookup_entries]

@[simp] theorem filterMapVal_assignments (m : GoMap κ α) (f : κ → α → Option β) :
    (m.filterMapVal f).assignments = m.entries.filterMap fun e => (f e.1 e.2).map (e.1, ·) := rfl

theorem get?_foldl_insert_entries (m init : GoMap κ α) (p : κ × α → Bool) (k : κ) :
    ((m.entries.filter p).foldl (fun r e => r.insert e.1 e.2) init).get? k =
      ((m.get? k).filter fun v => p (k, v)).or (init.get? k) := by
  rw [get?_foldl_insert]
  congr 1
  cases hFind : (m.entries.filter p).reverse.find? (fun e => e.1 = k) with
  | none =>
    rw [List.find?_eq_none] at hFind
    cases hGet : m.get? k with
    | none => rfl
    | some v =>
      have hNotP : p (k, v) = false := by
        by_contra hp
        have hMem : (k, v) ∈ (m.entries.filter p).reverse := by
          rw [List.mem_reverse, List.mem_filter, mem_entries]
          exact ⟨hGet, by simpa using hp⟩
        exact hFind (k, v) hMem (by simp)
      rw [Option.filter_some, hNotP]
      rfl
  | some e =>
    obtain ⟨k', v⟩ := e
    have hKey : k' = k := by simpa using List.find?_some hFind
    subst hKey
    have hMem := List.mem_of_find?_eq_some hFind
    rw [List.mem_reverse, List.mem_filter, mem_entries] at hMem
    rw [hMem.1, Option.filter_some, hMem.2]
    rfl

structure RangeOrder (κ α : Type) where
  visit : List (κ × α) → List (κ × α)
  perm : ∀ entries, (visit entries).Perm entries

def RangeOrder.ofEntries : RangeOrder κ α := ⟨id, fun _ => List.Perm.refl _⟩

end GoMap

end GoRun
