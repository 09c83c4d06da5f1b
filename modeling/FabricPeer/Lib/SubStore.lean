import FabricPeer.Lib.SortedMap
import FabricPeer.Lib.ByteOrder

/-! # The sub-store under a front

The keys of a byte-keyed store that start with a front `p`, with the front taken off, form a
store of their own: `m.under p` reads at `k` what `m` reads at `p ++ k`. A write under another
front leaves it as it is, a write under `p` is the same write to it, and a range of `m` whose
bounds share the front `p` is, with the front taken off, the same range of `m.under p`. Nothing
in this module refers to a particular program.
-/

namespace KVStore

open ByteOrder

set_option autoImplicit false

variable {α : Type}

theorem prefix_of_mem_range {p k : List UInt8} (y z : List UInt8) (hLow : p ++ y ≤ k)
    (hHigh : k < p ++ z) : p <+: k := by
  have hLow' : p ++ y ≤ k ++ [] := by rwa [List.append_nil]
  have hHigh' : k ++ [] < p ++ z := by rwa [List.append_nil]
  rcases comparable_of_mem_range [] y z hLow' hHigh' with hk | hp
  · have hLe : k ≤ p ++ y := by
      obtain ⟨r, rfl⟩ := hk
      exact (le_append k r).trans (le_append (k ++ r) y)
    rw [le_antisymm hLe hLow]
    exact List.prefix_append p y
  · exact hp

theorem prefix_zero_of_mem_range_one {q k : List UInt8} (hLow : q ++ [0] ≤ k)
    (hHigh : k < q ++ [1]) : q ++ [0] <+: k := by
  obtain ⟨r, rfl⟩ := prefix_of_mem_range [0] [1] hLow hHigh
  rw [append_le_append_left_iff] at hLow
  rw [append_lt_append_left_iff] at hHigh
  cases r with
  | nil => exact absurd hLow (not_le.2 (List.nil_lt_cons 0 []))
  | cons c r =>
    have hc : c = 0 := by
      rcases List.cons_lt_cons_iff.1 hHigh with hLt | ⟨-, hRest⟩
      · rw [UInt8.lt_iff_toNat_lt, UInt8.toNat_one] at hLt
        exact UInt8.toNat_inj.1 (by rw [UInt8.toNat_zero]; omega)
      · exact absurd hRest (List.not_lt_nil _)
    subst hc
    exact ⟨r, by simp⟩

def BatchOp.behind (p : List UInt8) : BatchOp (List UInt8) α → BatchOp (List UInt8) α
  | .put k v => .put (p ++ k) v
  | .delete k => .delete (p ++ k)

namespace SortedMap

def under (m : SortedMap (List UInt8) α) (p : List UInt8) : SortedMap (List UInt8) α :=
  ⟨(m.entries.filter fun e => p.isPrefixOf e.1).map fun e => (e.1.drop p.length, e.2), by
    rw [List.pairwise_map]
    apply (m.sorted.filter _).imp_of_mem
    intro a b ha hb hLt
    obtain ⟨ra, hra⟩ := List.isPrefixOf_iff_prefix.1 (List.mem_filter.1 ha).2
    obtain ⟨rb, hrb⟩ := List.isPrefixOf_iff_prefix.1 (List.mem_filter.1 hb).2
    rw [← hra, ← hrb, append_lt_append_left_iff] at hLt
    rw [← hra, ← hrb, List.drop_left, List.drop_left]
    exact hLt⟩

theorem mem_under (m : SortedMap (List UInt8) α) (p k : List UInt8) (v : α) :
    (k, v) ∈ (m.under p).entries ↔ (p ++ k, v) ∈ m.entries := by
  simp only [under, List.mem_map, List.mem_filter, List.isPrefixOf_iff_prefix]
  constructor
  · rintro ⟨⟨k', v'⟩, ⟨hMem, hPrefix⟩, hEq⟩
    obtain ⟨r, rfl⟩ := hPrefix
    simp only [List.drop_left, Prod.mk.injEq] at hEq
    obtain ⟨rfl, rfl⟩ := hEq
    exact hMem
  · intro hMem
    exact ⟨(p ++ k, v), ⟨hMem, List.prefix_append p k⟩, by simp⟩

@[simp] theorem get?_under (m : SortedMap (List UInt8) α) (p k : List UInt8) :
    (m.under p).get? k = m.get? (p ++ k) := by
  apply Option.ext
  intro v
  rw [get?_eq_some_iff, get?_eq_some_iff, mem_under]

theorem append_eq_iff_eq_drop {p k k' : List UInt8} (hp : p <+: k) :
    p ++ k' = k ↔ k' = k.drop p.length := by
  obtain ⟨r, rfl⟩ := hp
  rw [List.drop_left, List.append_cancel_left_eq]

theorem under_put (m : SortedMap (List UInt8) α) (p k : List UInt8) (v : α) :
    (m.put k v).under p = if p <+: k then (m.under p).put (k.drop p.length) v else m.under p := by
  apply ext_get?
  intro k'
  split
  · rename_i hp
    rw [get?_under, get?_put, get?_put, get?_under]
    by_cases hk : k' = k.drop p.length
    · rw [if_pos hk, if_pos ((append_eq_iff_eq_drop hp).2 hk)]
    · rw [if_neg hk, if_neg fun h => hk ((append_eq_iff_eq_drop hp).1 h)]
  · rename_i hp
    rw [get?_under, get?_put, get?_under, if_neg]
    rintro rfl
    exact hp (List.prefix_append p k')

theorem under_delete (m : SortedMap (List UInt8) α) (p k : List UInt8) :
    (m.delete k).under p = if p <+: k then (m.under p).delete (k.drop p.length) else m.under p := by
  apply ext_get?
  intro k'
  split
  · rename_i hp
    rw [get?_under, get?_delete, get?_delete, get?_under]
    by_cases hk : k' = k.drop p.length
    · rw [if_pos hk, if_pos ((append_eq_iff_eq_drop hp).2 hk)]
    · rw [if_neg hk, if_neg fun h => hk ((append_eq_iff_eq_drop hp).1 h)]
  · rename_i hp
    rw [get?_under, get?_delete, get?_under, if_neg]
    rintro rfl
    exact hp (List.prefix_append p k')

theorem under_writeBatch_of_forall (m : SortedMap (List UInt8) α) (p : List UInt8)
    (ops : List (BatchOp (List UInt8) α)) (h : ∀ op ∈ ops, ¬ p <+: op.key) :
    (m.writeBatch ops).under p = m.under p := by
  apply ext_get?
  intro k
  rw [get?_under, get?_under, get?_writeBatch_of_forall_ne]
  intro op hMem hKey
  exact h op hMem (hKey ▸ List.prefix_append p k)

theorem under_writeBatch_under (m : SortedMap (List UInt8) α) (p : List UInt8)
    (ops : List (BatchOp (List UInt8) α)) :
    (m.writeBatch (ops.map (BatchOp.behind p))).under p = (m.under p).writeBatch ops := by
  induction ops generalizing m with
  | nil => rfl
  | cons op ops ih =>
    rw [List.map_cons, writeBatch_cons, ih, writeBatch_cons]
    congr 1
    cases op with
    | put k v =>
      rw [BatchOp.behind, apply, under_put, if_pos (List.prefix_append p k), List.drop_left]
      rfl
    | delete k =>
      rw [BatchOp.behind, apply, under_delete, if_pos (List.prefix_append p k), List.drop_left]
      rfl

theorem scan_map_drop {m : SortedMap (List UInt8) α} {p : List UInt8}
    {P Q : List UInt8 → Bool} (hUnder : ∀ k, P k = true → p <+: k) (hSame : ∀ k, P (p ++ k) = Q k) :
    (m.scan P).map (fun e => (e.1.drop p.length, e.2)) = (m.under p).scan Q := by
  apply eq_of_mem_iff
  · rw [List.pairwise_map]
    apply (pairwise_scan m P).imp_of_mem
    intro a b ha hb hLt
    obtain ⟨ra, hra⟩ := hUnder a.1 ((mem_scan m P a.1 a.2).1 ha).2
    obtain ⟨rb, hrb⟩ := hUnder b.1 ((mem_scan m P b.1 b.2).1 hb).2
    rw [← hra, ← hrb, append_lt_append_left_iff] at hLt
    rw [← hra, ← hrb, List.drop_left, List.drop_left]
    exact hLt
  · exact pairwise_scan _ _
  · rintro ⟨k, v⟩
    rw [mem_scan, get?_under, ← hSame, List.mem_map]
    constructor
    · rintro ⟨⟨k', v'⟩, hMem, hEq⟩
      obtain ⟨hGet, hP⟩ := (mem_scan m P k' v').1 hMem
      obtain ⟨r, rfl⟩ := hUnder k' hP
      simp only [List.drop_left, Prod.mk.injEq] at hEq
      obtain ⟨rfl, rfl⟩ := hEq
      exact ⟨hGet, hP⟩
    · rintro ⟨hGet, hP⟩
      exact ⟨(p ++ k, v), (mem_scan m P _ v).2 ⟨hGet, hP⟩, by simp⟩

end SortedMap

end KVStore
