import Mathlib.Data.List.Sort
import Mathlib.Algebra.GroupWithZero.Nat

/-! # Sorted key-value stores

A key-value store such as LevelDB keeps its entries in the order of their keys: a read finds
the one entry of its key, an iterator visits the entries of a key range in that order, and a
write batch applies its puts and deletes one after the other, as one atomic write. A store is
kept here as the list of its entries, strictly increasing in the key. The order is part of the
value, so two stores that answer every read alike are equal, and a range scan is a filter of
the list. Nothing in this module refers to a particular program.
-/

namespace KVStore

set_option autoImplicit false

structure SortedMap (κ α : Type) [LinearOrder κ] where
  entries : List (κ × α)
  sorted : entries.Pairwise (fun a b => a.1 < b.1)

inductive BatchOp (κ α : Type) where
  | put (k : κ) (v : α)
  | delete (k : κ)
  deriving DecidableEq, Repr

def BatchOp.key {κ α : Type} : BatchOp κ α → κ
  | .put k _ => k
  | .delete k => k

def BatchOp.value? {κ α : Type} : BatchOp κ α → Option α
  | .put _ v => some v
  | .delete _ => none

namespace SortedMap

variable {κ α : Type} [LinearOrder κ]

def empty : SortedMap κ α := ⟨[], .nil⟩

def get? (m : SortedMap κ α) (k : κ) : Option α := m.entries.lookup k

def insertEntry (k : κ) (v : α) : List (κ × α) → List (κ × α)
  | [] => [(k, v)]
  | e :: rest =>
    if k < e.1 then (k, v) :: e :: rest
    else if k = e.1 then (k, v) :: rest
    else e :: insertEntry k v rest

theorem mem_insertEntry {k : κ} {v : α} {l : List (κ × α)} {e : κ × α}
    (h : e ∈ insertEntry k v l) : e = (k, v) ∨ e ∈ l := by
  induction l with
  | nil => simpa [insertEntry] using h
  | cons e' rest ih =>
    simp only [insertEntry] at h
    split_ifs at h with hLt hEq
    · simpa using h
    · rcases List.mem_cons.1 h with rfl | hRest
      · exact .inl rfl
      · exact .inr (List.mem_cons_of_mem _ hRest)
    · rcases List.mem_cons.1 h with rfl | hRest
      · exact .inr List.mem_cons_self
      · exact (ih hRest).imp_right (List.mem_cons_of_mem _)

theorem pairwise_insertEntry (k : κ) (v : α) {l : List (κ × α)}
    (hl : l.Pairwise (fun a b => a.1 < b.1)) :
    (insertEntry k v l).Pairwise (fun a b => a.1 < b.1) := by
  induction l with
  | nil => simp [insertEntry]
  | cons e rest ih =>
    rw [List.pairwise_cons] at hl
    simp only [insertEntry]
    split_ifs with hLt hEq
    · refine List.Pairwise.cons (fun e' he' => ?_) (List.Pairwise.cons hl.1 hl.2)
      rcases List.mem_cons.1 he' with rfl | hRest
      · exact hLt
      · exact hLt.trans (hl.1 e' hRest)
    · exact List.Pairwise.cons (fun e' he' => hEq ▸ hl.1 e' he') hl.2
    · have hGt : e.1 < k := lt_of_le_of_ne (not_lt.1 hLt) (Ne.symm hEq)
      refine List.Pairwise.cons (fun e' he' => ?_) (ih hl.2)
      rcases mem_insertEntry he' with rfl | hRest
      · exact hGt
      · exact hl.1 e' hRest

/-- `Put(k, v)`. -/
def put (m : SortedMap κ α) (k : κ) (v : α) : SortedMap κ α :=
  ⟨insertEntry k v m.entries, pairwise_insertEntry k v m.sorted⟩

/-- `Delete(k)`. -/
def delete (m : SortedMap κ α) (k : κ) : SortedMap κ α :=
  ⟨m.entries.filter (fun e => e.1 ≠ k), m.sorted.filter _⟩

def apply (m : SortedMap κ α) : BatchOp κ α → SortedMap κ α
  | .put k v => m.put k v
  | .delete k => m.delete k

/-- `WriteBatch`: the operations of the batch, in order. -/
def writeBatch (m : SortedMap κ α) (ops : List (BatchOp κ α)) : SortedMap κ α :=
  ops.foldl apply m

def scan (m : SortedMap κ α) (p : κ → Bool) : List (κ × α) := m.entries.filter (fun e => p e.1)

theorem lookup_cons_ite (k k' : κ) (v' : α) (rest : List (κ × α)) :
    ((k', v') :: rest).lookup k = if k = k' then some v' else rest.lookup k := by
  by_cases h : k = k'
  · subst h
    simp [List.lookup_cons_self]
  · have hBeq : (k == k') = false := beq_eq_false_iff_ne.mpr h
    simp only [List.lookup_cons, hBeq, if_neg h]

theorem lookup_reverse_append_singleton (l : List (κ × α)) (k k' : κ) (v : α) :
    (l ++ [(k, v)]).reverse.lookup k' = if k' = k then some v else l.reverse.lookup k' := by
  rw [List.reverse_append, List.reverse_singleton, List.singleton_append, lookup_cons_ite]

theorem lookup_eq_some_iff {l : List (κ × α)} (hl : l.Pairwise (fun a b => a.1 < b.1)) (k : κ)
    (v : α) : l.lookup k = some v ↔ (k, v) ∈ l := by
  induction l with
  | nil => simp
  | cons e rest ih =>
    obtain ⟨k', v'⟩ := e
    rw [List.pairwise_cons] at hl
    by_cases hk : k = k'
    · subst hk
      have hNotMem : (k, v) ∉ rest := fun hMem => lt_irrefl k (hl.1 _ hMem)
      simp [hNotMem, eq_comm]
    · simp [lookup_cons_ite, hk, ih hl.2]

theorem get?_eq_some_iff (m : SortedMap κ α) (k : κ) (v : α) :
    m.get? k = some v ↔ (k, v) ∈ m.entries :=
  lookup_eq_some_iff m.sorted k v

theorem eq_of_mem_iff {l l' : List (κ × α)} (hl : l.Pairwise (fun a b => a.1 < b.1))
    (hl' : l'.Pairwise (fun a b => a.1 < b.1)) (h : ∀ e, e ∈ l ↔ e ∈ l') : l = l' := by
  have hNodup : ∀ {l : List (κ × α)}, l.Pairwise (fun a b => a.1 < b.1) → l.Nodup := by
    intro l hSorted
    apply hSorted.imp
    intro a b hab hEq
    subst hEq
    exact lt_irrefl _ hab
  have hPerm : l.Perm l' := (List.perm_ext_iff_of_nodup (hNodup hl) (hNodup hl')).2 h
  exact hPerm.eq_of_pairwise (fun _ _ _ _ hab hba => absurd (hab.trans hba) (lt_irrefl _)) hl hl'

theorem ext_get? {m m' : SortedMap κ α} (h : ∀ k, m.get? k = m'.get? k) : m = m' := by
  have hMem : ∀ e, e ∈ m.entries ↔ e ∈ m'.entries := by
    rintro ⟨k, v⟩
    rw [← get?_eq_some_iff, ← get?_eq_some_iff, h]
  have hEntries : m.entries = m'.entries := eq_of_mem_iff m.sorted m'.sorted hMem
  cases m
  cases m'
  simp only at hEntries
  subst hEntries
  rfl

@[simp] theorem get?_empty (k : κ) : (empty : SortedMap κ α).get? k = none := rfl

theorem lookup_insertEntry (k k' : κ) (v : α) (l : List (κ × α)) :
    (insertEntry k v l).lookup k' = if k' = k then some v else l.lookup k' := by
  induction l with
  | nil => simp [insertEntry, lookup_cons_ite]
  | cons e rest ih =>
    obtain ⟨k'', v''⟩ := e
    simp only [insertEntry]
    split_ifs with hLt hEq <;> simp_all [lookup_cons_ite]

@[simp] theorem get?_put (m : SortedMap κ α) (k k' : κ) (v : α) :
    (m.put k v).get? k' = if k' = k then some v else m.get? k' :=
  lookup_insertEntry k k' v m.entries

@[simp] theorem get?_delete (m : SortedMap κ α) (k k' : κ) :
    (m.delete k).get? k' = if k' = k then none else m.get? k' := by
  simp only [get?, delete]
  induction m.entries with
  | nil => simp
  | cons e rest ih =>
    obtain ⟨k'', v''⟩ := e
    by_cases hKey : k'' = k
    · subst hKey
      rw [List.filter_cons_of_neg (by simp), ih, lookup_cons_ite]
      by_cases hk : k' = k'' <;> simp [hk]
    · rw [List.filter_cons_of_pos (by simpa using hKey), lookup_cons_ite, ih, lookup_cons_ite]
      by_cases hk : k' = k'' <;> simp_all

theorem get?_apply (m : SortedMap κ α) (op : BatchOp κ α) (k : κ) :
    (m.apply op).get? k = if k = op.key then
      (match op with | .put _ v => some v | .delete _ => none) else m.get? k := by
  cases op with
  | put k' v => exact get?_put m k' k v
  | delete k' => exact get?_delete m k' k

@[simp] theorem writeBatch_nil (m : SortedMap κ α) : m.writeBatch [] = m := rfl

@[simp] theorem writeBatch_cons (m : SortedMap κ α) (op : BatchOp κ α) (ops : List (BatchOp κ α)) :
    m.writeBatch (op :: ops) = (m.apply op).writeBatch ops := rfl

theorem writeBatch_append (m : SortedMap κ α) (ops ops' : List (BatchOp κ α)) :
    m.writeBatch (ops ++ ops') = (m.writeBatch ops).writeBatch ops' :=
  List.foldl_append

theorem get?_writeBatch_of_forall_ne (m : SortedMap κ α) (ops : List (BatchOp κ α)) (k : κ)
    (h : ∀ op ∈ ops, op.key ≠ k) : (m.writeBatch ops).get? k = m.get? k := by
  induction ops generalizing m with
  | nil => rfl
  | cons op ops ih =>
    rw [writeBatch_cons, ih _ fun op' hMem => h op' (List.mem_cons_of_mem _ hMem), get?_apply,
      if_neg (Ne.symm (h op List.mem_cons_self))]

theorem get?_writeBatch_deletes (m : SortedMap κ α) (ks : List κ) (k : κ) :
    (m.writeBatch (ks.map .delete)).get? k = if k ∈ ks then none else m.get? k := by
  induction ks generalizing m with
  | nil => simp
  | cons k' ks ih =>
    rw [List.map_cons, writeBatch_cons, ih, get?_apply]
    by_cases hk : k = k' <;> simp [hk, BatchOp.key]

theorem get?_writeBatch_eq_some (m : SortedMap κ α) (ops : List (BatchOp κ α)) {k : κ} {v : α}
    (h : (m.writeBatch ops).get? k = some v) : BatchOp.put k v ∈ ops ∨ m.get? k = some v := by
  induction ops generalizing m with
  | nil => exact .inr h
  | cons op ops ih =>
    rcases ih (m.apply op) h with hPut | hApply
    · exact .inl (List.mem_cons_of_mem _ hPut)
    · rw [get?_apply] at hApply
      split_ifs at hApply with hKey
      · cases op with
        | put k' v' =>
          simp only [BatchOp.key] at hKey
          subst hKey
          cases hApply
          exact .inl List.mem_cons_self
        | delete k' => cases hApply
      · exact .inr hApply

theorem get?_writeBatch_puts (m : SortedMap κ α) (l : List (κ × α)) (k : κ) :
    (m.writeBatch (l.map fun e => .put e.1 e.2)).get? k = (l.reverse.lookup k).or (m.get? k) := by
  induction l generalizing m with
  | nil => simp
  | cons e l ih =>
    obtain ⟨k', v'⟩ := e
    rw [List.map_cons, writeBatch_cons, ih, List.reverse_cons, List.lookup_append]
    show (l.reverse.lookup k).or ((m.put k' v').get? k) =
      ((l.reverse.lookup k).or ([(k', v')].lookup k)).or (m.get? k)
    rw [get?_put, Option.or_assoc, lookup_cons_ite, List.lookup_nil]
    split_ifs <;> rfl

theorem isSome_get?_writeBatch_puts (m : SortedMap κ α) (l : List (κ × α)) (k : κ) :
    ((m.writeBatch (l.map fun e => .put e.1 e.2)).get? k).isSome ↔
      k ∈ l.map Prod.fst ∨ (m.get? k).isSome := by
  induction l generalizing m with
  | nil => simp
  | cons e l ih =>
    rw [List.map_cons, writeBatch_cons, ih, List.map_cons, List.mem_cons]
    show _ ∨ ((m.put e.1 e.2).get? k).isSome ↔ _
    rw [get?_put]
    by_cases hk : k = e.1 <;> simp [hk]

theorem get?_writeBatch_of_mem_nodup (m : SortedMap κ α) {ops : List (BatchOp κ α)}
    (hNodup : (ops.map BatchOp.key).Nodup) {op : BatchOp κ α} (hMem : op ∈ ops) :
    (m.writeBatch ops).get? op.key = op.value? := by
  induction ops generalizing m with
  | nil => cases hMem
  | cons op' ops ih =>
    rw [List.map_cons, List.nodup_cons] at hNodup
    rw [writeBatch_cons]
    rcases List.mem_cons.1 hMem with rfl | hRest
    · have hOthers : ∀ op'' ∈ ops, op''.key ≠ op.key := by
        intro op'' hOp hKey
        apply hNodup.1
        rw [← hKey]
        exact List.mem_map_of_mem hOp
      rw [get?_writeBatch_of_forall_ne _ _ _ hOthers, get?_apply, if_pos rfl]
      cases op <;> rfl
    · exact ih _ hNodup.2 hRest

theorem lookup_reverse {l : List (κ × α)} (hl : l.Pairwise (fun a b => a.1 < b.1)) (k : κ) :
    l.reverse.lookup k = l.lookup k := by
  induction l with
  | nil => rfl
  | cons e l ih =>
    obtain ⟨k', v'⟩ := e
    rw [List.pairwise_cons] at hl
    rw [List.reverse_cons, List.lookup_append, ih hl.2, lookup_cons_ite, lookup_cons_ite,
      List.lookup_nil]
    by_cases hk : k = k'
    · subst hk
      have hNone : l.lookup k = none := by
        rw [← Option.not_isSome_iff_eq_none]
        intro hSome
        obtain ⟨v, hv⟩ := Option.isSome_iff_exists.1 hSome
        exact lt_irrefl k (hl.1 _ ((lookup_eq_some_iff hl.2 k v).1 hv))
      simp [hNone]
    · simp [hk]

theorem empty_writeBatch_entries (m : SortedMap κ α) :
    (empty : SortedMap κ α).writeBatch (m.entries.map fun e => .put e.1 e.2) = m := by
  apply ext_get?
  intro k
  rw [get?_writeBatch_puts, get?_empty, Option.or_none, lookup_reverse m.sorted]
  rfl

theorem mem_scan (m : SortedMap κ α) (p : κ → Bool) (k : κ) (v : α) :
    (k, v) ∈ m.scan p ↔ m.get? k = some v ∧ p k = true := by
  simp [scan, get?_eq_some_iff]

theorem pairwise_scan (m : SortedMap κ α) (p : κ → Bool) :
    (m.scan p).Pairwise (fun a b => a.1 < b.1) :=
  m.sorted.filter _

theorem scan_eq_entries (m : SortedMap κ α) {p : κ → Bool}
    (h : ∀ k v, m.get? k = some v → p k = true) : m.scan p = m.entries := by
  apply List.filter_eq_self.2
  rintro ⟨k, v⟩ hMem
  exact h k v ((get?_eq_some_iff m k v).2 hMem)

theorem filter_scan (m : SortedMap κ α) (p q : κ → Bool) :
    (m.scan p).filter (fun e => q e.1) = m.scan fun k => q k && p k :=
  List.filter_filter

theorem dropWhile_lt_eq_filter {l : List (κ × α)} (hl : l.Pairwise (fun a b => a.1 < b.1))
    (k : κ) : l.dropWhile (fun e => decide (e.1 < k)) = l.filter fun e => decide (k ≤ e.1) := by
  induction l with
  | nil => rfl
  | cons e l ih =>
    rw [List.pairwise_cons] at hl
    by_cases hk : e.1 < k
    · rw [List.dropWhile_cons_of_pos (by simpa using hk), ih hl.2,
        List.filter_cons_of_neg (by simpa using hk)]
    · have hAll : ∀ x ∈ l, decide (k ≤ x.1) = true := fun x hx =>
        decide_eq_true ((not_lt.1 hk).trans (hl.1 x hx).le)
      rw [List.dropWhile_cons_of_neg (by simpa using hk),
        List.filter_cons_of_pos (by simpa using not_lt.1 hk), List.filter_eq_self.2 hAll]

section Search

/-! Searching an increasing list, as `sort.Search` does: the elements before the first one not
below `x`, and those from it on. -/

theorem take_length_takeWhile {β : Type} (p : β → Bool) (l : List β) :
    l.take (l.takeWhile p).length = l.takeWhile p := by
  induction l with
  | nil => rfl
  | cons a l ih =>
    cases hp : p a
    · rw [List.takeWhile_cons_of_neg (by simp [hp]), List.length_nil, List.take_zero]
    · rw [List.takeWhile_cons_of_pos hp, List.length_cons, List.take_succ_cons, ih]

theorem mem_takeWhile_lt_iff {l : List κ} (hl : l.Pairwise (· < ·)) (x k : κ) :
    k ∈ l.takeWhile (fun a => decide (a < x)) ↔ k ∈ l ∧ k < x := by
  induction l with
  | nil => simp
  | cons a l ih =>
    rw [List.pairwise_cons] at hl
    by_cases ha : a < x
    · rw [List.takeWhile_cons_of_pos (by simpa using ha), List.mem_cons, List.mem_cons, ih hl.2]
      constructor
      · rintro (rfl | ⟨hk, hlt⟩)
        · exact ⟨.inl rfl, ha⟩
        · exact ⟨.inr hk, hlt⟩
      · rintro ⟨rfl | hk, hlt⟩
        · exact .inl rfl
        · exact .inr ⟨hk, hlt⟩
    · rw [List.takeWhile_cons_of_neg (by simpa using ha)]
      simp only [List.not_mem_nil, List.mem_cons, false_iff, not_and]
      rintro (rfl | hk) hlt
      · exact ha hlt
      · exact ha ((hl.1 k hk).trans hlt)

theorem mem_drop_takeWhile_lt_iff {l : List κ} (hl : l.Pairwise (· < ·)) (x k : κ) :
    k ∈ l.drop (l.takeWhile (fun a => decide (a < x))).length ↔ k ∈ l ∧ x ≤ k := by
  induction l with
  | nil => simp
  | cons a l ih =>
    rw [List.pairwise_cons] at hl
    by_cases ha : a < x
    · rw [List.takeWhile_cons_of_pos (by simpa using ha), List.length_cons, List.drop_succ_cons,
        ih hl.2, List.mem_cons]
      constructor
      · rintro ⟨hk, hle⟩
        exact ⟨.inr hk, hle⟩
      · rintro ⟨rfl | hk, hle⟩
        · exact absurd ha (not_lt.2 hle)
        · exact ⟨hk, hle⟩
    · rw [List.takeWhile_cons_of_neg (by simpa using ha), List.length_nil, List.drop_zero]
      constructor
      · intro hk
        refine ⟨hk, ?_⟩
        rcases List.mem_cons.1 hk with rfl | hk
        · exact not_lt.1 ha
        · exact (not_lt.1 ha).trans (hl.1 k hk).le
      · exact fun h => h.1

theorem mem_drop_take_iff {l : List κ} (hl : l.Pairwise (· < ·)) (m : ℕ) (x k : κ) :
    k ∈ (l.take m).drop (l.takeWhile (fun a => decide (a < x))).length ↔ k ∈ l.take m ∧ x ≤ k := by
  have hTake : (l.take m).Pairwise (· < ·) := hl.sublist (List.take_sublist _ _)
  have hDrop : (l.take m).drop (l.takeWhile (fun a => decide (a < x))).length =
      (l.take m).drop ((l.take m).takeWhile (fun a => decide (a < x))).length := by
    rw [← List.take_takeWhile, List.length_take]
    rcases le_total (l.takeWhile (fun a => decide (a < x))).length m with h | h
    · rw [min_eq_right h]
    · rw [min_eq_left h, List.drop_eq_nil_of_le (List.length_take_le _ _),
        List.drop_eq_nil_of_le ((List.length_take_le _ _).trans h)]
  rw [hDrop, mem_drop_takeWhile_lt_iff hTake]

end Search

end SortedMap

end KVStore
