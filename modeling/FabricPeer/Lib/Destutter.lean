import Mathlib.Data.List.Destutter
import Mathlib.Algebra.GroupWithZero.Nat

/-! # Skipping repeats

A loop that remembers the last item it emitted, starting from `a`, and skips an item equal to it,
emits `(l.destutter' (· ≠ ·) a).tail`. When the items are ordered by an antisymmetric relation
with `a` below all of them, equal items stand together and copies of `a` can only lead: the loop
then emits every item other than `a` exactly once, in order. Nothing in this module refers to a
particular program.
-/

namespace Destutter

open List

set_option autoImplicit false

variable {α : Type} [DecidableEq α]

theorem destutter'_eq_cons_tail (a : α) (l : List α) :
    l.destutter' (· ≠ ·) a = a :: (l.destutter' (· ≠ ·) a).tail := by
  induction l generalizing a with
  | nil => rfl
  | cons b l ih =>
    rw [destutter'_cons]
    split
    · rfl
    · exact ih a

theorem tail_destutter'_eq_dedup_filter {r : α → α → Prop} [Std.Antisymm r] {a : α} :
    ∀ {l : List α}, (a :: l).Pairwise r →
      (l.destutter' (· ≠ ·) a).tail = (l.filter (· ≠ a)).dedup
  | [], _ => rfl
  | b :: l, h => by
    by_cases hb : b = a
    · subst hb
      rw [destutter'_cons_neg _ (not_not.2 rfl), filter_cons_of_neg (by simp)]
      exact tail_destutter'_eq_dedup_filter h.of_cons
    · have hNotMem : a ∉ l := by
        intro haMem
        rw [pairwise_cons, pairwise_cons] at h
        exact hb (Std.Antisymm.antisymm _ _ (h.2.1 a haMem) (h.1 b mem_cons_self))
      have hKept : (b :: l).filter (· ≠ a) = b :: l := by
        rw [filter_eq_self]
        rintro c hc
        rcases mem_cons.1 hc with rfl | hc
        · simpa using hb
        · simpa using fun hca : c = a => hNotMem (hca ▸ hc)
      rw [destutter'_cons_pos _ (Ne.symm hb), tail_cons, ← destutter_cons', hKept,
        h.of_cons.destutter_eq_dedup]

end Destutter
