import FabricPeer.Lib.SortedMap

/-! # Iterators over a key range of a sorted store

An iterator of a LevelDB-like store visits the entries of a key range in key order. It stands
before the first entry, at one of them, or past the last. `Next` and `Prev` move it one entry,
`Prev` from past the end going to the last entry, and `Seek` moves it to the first entry whose
key is not below the key sought, or past the end.

What a loop over an iterator depends on is the list of the entries after it (`rest`): `Next`
stands at the first of them (`next_of_rest_cons`), and `Seek` followed by `Prev` leaves after the
iterator the entries not below the key sought, from wherever it stood (`rest_prev_seek`).
`Yields` says what a call repeated until it returns nothing returns. Nothing in this module
refers to a particular program.
-/

namespace KVStore

set_option autoImplicit false

inductive Cursor (n : ℕ) where
  | soi
  | entry (i : Fin n)
  | eoi
  deriving DecidableEq, Repr

namespace Cursor

variable {n : ℕ}

/-- How many entries lie at or before the cursor, past the end counting as one more. -/
def index : Cursor n → ℕ
  | soi => 0
  | entry i => i + 1
  | eoi => n + 1

def atOrEnd (j : ℕ) : Cursor n := if h : j < n then entry ⟨j, h⟩ else eoi

def next : Cursor n → Cursor n
  | soi => atOrEnd 0
  | entry i => atOrEnd (i + 1)
  | eoi => eoi

def prev : Cursor n → Cursor n
  | soi => soi
  | entry i => if 0 < i.val then entry ⟨i.val - 1, Nat.lt_of_le_of_lt (Nat.sub_le _ _) i.isLt⟩ else soi
  | eoi => if h : 0 < n then entry ⟨n - 1, Nat.sub_lt h Nat.one_pos⟩ else soi

theorem atOrEnd_of_lt {j : ℕ} (h : j < n) : (atOrEnd j : Cursor n) = entry ⟨j, h⟩ := dif_pos h

theorem atOrEnd_of_le {j : ℕ} (h : n ≤ j) : (atOrEnd j : Cursor n) = eoi := dif_neg (Nat.not_lt.2 h)

theorem next_eq_atOrEnd (c : Cursor n) (h : c.index ≤ n) : c.next = atOrEnd c.index := by
  cases c with
  | soi => rfl
  | entry i => rfl
  | eoi =>
    simp only [index] at h
    omega

theorem index_prev_atOrEnd (j : ℕ) (h : j ≤ n) : (atOrEnd j : Cursor n).prev.index = j := by
  rcases Nat.lt_or_ge j n with hj | hj
  · rw [atOrEnd_of_lt hj]
    rcases Nat.eq_zero_or_pos j with rfl | hPos
    · rfl
    · simp only [prev, if_pos hPos, index]
      omega
  · have hEq : j = n := by omega
    subst hEq
    rw [atOrEnd_of_le hj]
    rcases Nat.eq_zero_or_pos j with rfl | hPos
    · rfl
    · simp only [prev, dif_pos hPos, index]
      omega

theorem next_prev_atOrEnd (j : ℕ) (h : j ≤ n) : (atOrEnd j : Cursor n).prev.next = atOrEnd j := by
  rw [next_eq_atOrEnd _ (by rw [index_prev_atOrEnd j h]; exact h), index_prev_atOrEnd j h]

end Cursor

/-- An iterator: the entries of its range in increasing key order, and where it stands. -/
structure Iterator (κ α : Type) [LinearOrder κ] where
  entries : List (κ × α)
  sorted : entries.Pairwise (fun a b => a.1 < b.1)
  cursor : Cursor entries.length

namespace Iterator

variable {κ α : Type} [LinearOrder κ]

def next (it : Iterator κ α) : Iterator κ α := { it with cursor := it.cursor.next }

def prev (it : Iterator κ α) : Iterator κ α := { it with cursor := it.cursor.prev }

/-- `Seek`: to the first entry whose key is not below `k`. -/
def seek (it : Iterator κ α) (k : κ) : Iterator κ α :=
  { it with cursor := Cursor.atOrEnd (it.entries.takeWhile fun e => decide (e.1 < k)).length }

def current? (it : Iterator κ α) : Option (κ × α) :=
  match it.cursor with
  | .entry i => some (it.entries.get i)
  | _ => none

/-- The entries after the iterator. -/
def rest (it : Iterator κ α) : List (κ × α) := it.entries.drop it.cursor.index

theorem drop_length_takeWhile {β : Type} (p : β → Bool) (l : List β) :
    l.drop (l.takeWhile p).length = l.dropWhile p := by
  induction l with
  | nil => rfl
  | cons a l ih =>
    cases hp : p a
    · rw [List.takeWhile_cons_of_neg (by simp [hp]), List.dropWhile_cons_of_neg (by simp [hp]),
        List.length_nil, List.drop_zero]
    · rw [List.takeWhile_cons_of_pos hp, List.dropWhile_cons_of_pos hp, List.length_cons,
        List.drop_succ_cons, ih]

theorem mem_of_current? {it : Iterator κ α} {e : κ × α} (h : it.current? = some e) :
    e ∈ it.entries := by
  unfold current? at h
  split at h
  · cases h
    exact List.get_mem _ _
  · cases h

theorem index_le_of_rest_ne_nil {it : Iterator κ α} (h : it.rest ≠ []) :
    it.cursor.index < it.entries.length := by
  by_contra hLe
  exact h (List.drop_eq_nil_of_le (by omega))

theorem next_of_rest_cons {it : Iterator κ α} {e : κ × α} {r : List (κ × α)}
    (h : it.rest = e :: r) : it.next.current? = some e ∧ it.next.rest = r := by
  have hj := index_le_of_rest_ne_nil (h ▸ List.cons_ne_nil e r)
  rw [rest, List.drop_eq_getElem_cons hj, List.cons.injEq] at h
  obtain ⟨hHead, hTail⟩ := h
  have hNext : it.cursor.next = .entry ⟨it.cursor.index, hj⟩ := by
    rw [Cursor.next_eq_atOrEnd _ hj.le, Cursor.atOrEnd_of_lt hj]
  constructor
  · dsimp only [current?, next]
    rw [hNext, ← hHead]
    rfl
  · show it.entries.drop it.cursor.next.index = r
    rw [hNext, ← hTail]
    rfl

theorem next_of_rest_nil {it : Iterator κ α} (h : it.rest = []) :
    it.next.current? = none ∧ it.next.rest = [] := by
  have hLe : it.entries.length ≤ it.cursor.index := List.drop_eq_nil_iff.1 h
  have hNext : it.cursor.next = .eoi := by
    cases hc : it.cursor with
    | eoi => rfl
    | soi =>
      rw [hc] at hLe
      exact Cursor.atOrEnd_of_le hLe
    | entry i =>
      rw [hc] at hLe
      exact Cursor.atOrEnd_of_le hLe
  constructor
  · dsimp only [current?, next]
    rw [hNext]
  · show it.entries.drop it.cursor.next.index = []
    rw [hNext]
    exact List.drop_eq_nil_of_le (by simp only [Cursor.index]; omega)

theorem rest_prev_seek (it : Iterator κ α) (k : κ) :
    (it.seek k).prev.rest = it.entries.dropWhile fun e => decide (e.1 < k) := by
  have hLen := (List.takeWhile_sublist (fun e : κ × α => decide (e.1 < k)) (l := it.entries)).length_le
  show it.entries.drop (Cursor.atOrEnd _ : Cursor it.entries.length).prev.index = _
  rw [Cursor.index_prev_atOrEnd _ hLen, drop_length_takeWhile]

theorem next_prev_seek (it : Iterator κ α) (k : κ) : (it.seek k).prev.next = it.seek k := by
  have hLen := (List.takeWhile_sublist (fun e : κ × α => decide (e.1 < k)) (l := it.entries)).length_le
  simp only [seek, prev, next, Cursor.next_prev_atOrEnd _ hLen]

theorem sorted_rest (it : Iterator κ α) : it.rest.Pairwise (fun a b => a.1 < b.1) :=
  it.sorted.sublist (List.drop_sublist _ _)

theorem entries_eq_of_current? {it : Iterator κ α} {e : κ × α} (h : it.current? = some e) :
    ∃ pre, it.entries = pre ++ e :: it.rest := by
  unfold current? at h
  split at h
  · rename_i i hc
    cases h
    refine ⟨it.entries.take i, ?_⟩
    rw [rest, hc, Cursor.index, List.get_eq_getElem, ← List.drop_eq_getElem_cons,
      List.take_append_drop]
  · cases h

theorem rest_prev_seek_of_current? {it : Iterator κ α} {e : κ × α} {k : κ}
    (h : it.current? = some e) (hk : e.1 < k) :
    (it.seek k).prev.rest = it.rest.dropWhile fun e => decide (e.1 < k) := by
  obtain ⟨pre, hEntries⟩ := entries_eq_of_current? h
  have hSorted := it.sorted
  rw [hEntries, List.pairwise_append] at hSorted
  have hBelow : ∀ x ∈ pre ++ [e], decide (x.1 < k) = true := by
    intro x hx
    rw [decide_eq_true_eq]
    rcases List.mem_append.1 hx with hPre | hSelf
    · exact lt_trans (hSorted.2.2 x hPre e List.mem_cons_self) hk
    · rw [List.mem_singleton.1 hSelf]
      exact hk
  rw [rest_prev_seek, hEntries, ← List.singleton_append, ← List.append_assoc,
    List.dropWhile_append_of_pos hBelow]

end Iterator

/-- An iterator over the entries with keys from `lo` up to `hi` excluded, before the first. -/
def SortedMap.iterator {κ α : Type} [LinearOrder κ] (m : SortedMap κ α) (lo hi : κ) :
    Iterator κ α :=
  ⟨m.scan fun k => decide (lo ≤ k ∧ k < hi), m.pairwise_scan _, .soi⟩

theorem SortedMap.rest_iterator {κ α : Type} [LinearOrder κ] (m : SortedMap κ α) (lo hi : κ) :
    (m.iterator lo hi).rest = m.scan fun k => decide (lo ≤ k ∧ k < hi) :=
  List.drop_zero

section Yields

variable {σ β ε : Type}

/-- Calling `step` from `s` until it returns nothing returns `out`, in order. -/
inductive Yields (step : σ → Except ε (Option β × σ)) : σ → List β → Prop
  | done {s s' : σ} : step s = .ok (none, s') → Yields step s []
  | more {s s' : σ} {b : β} {out : List β} :
      step s = .ok (some b, s') → Yields step s' out → Yields step s (b :: out)

variable {step : σ → Except ε (Option β × σ)}

theorem Yields.of_step_eq {s t : σ} {out : List β} (h : step s = step t)
    (hYields : Yields step t out) : Yields step s out := by
  cases hYields with
  | done hStep => exact .done (h.trans hStep)
  | more hStep hRest => exact .more (h.trans hStep) hRest

theorem Yields.unique {s : σ} {out out' : List β} (h : Yields step s out)
    (h' : Yields step s out') : out = out' := by
  induction h generalizing out' with
  | done hStep =>
    cases h' with
    | done => rfl
    | more hStep' => simp [hStep] at hStep'
  | more hStep _ ih =>
    cases h' with
    | done hStep' => simp [hStep] at hStep'
    | more hStep' hRest' =>
      rw [hStep, Except.ok.injEq, Prod.mk.injEq, Option.some.injEq] at hStep'
      obtain ⟨rfl, rfl⟩ := hStep'
      rw [ih hRest']

end Yields

end KVStore
