import Mathlib.Data.Finset.Card
import Mathlib.Data.Finset.Max
import Mathlib.Algebra.GroupWithZero.Nat

/-! # The highest elements of a finite set

`topRanked S m` holds the `m` highest elements of `S`, or all of `S` when it has fewer: those
with fewer than `m` elements of `S` above them. A scan that visits the elements from the
highest down and stops after the `m`-th has seen exactly these. Nothing in this module refers
to a particular program.
-/

namespace TopRanked

open Finset

set_option autoImplicit false

variable {α : Type} [LinearOrder α]

def topRanked (S : Finset α) (m : ℕ) : Finset α := S.filter fun b => (S.filter (b < ·)).card < m

theorem mem_topRanked {S : Finset α} {m : ℕ} {b : α} :
    b ∈ topRanked S m ↔ b ∈ S ∧ (S.filter (b < ·)).card < m := mem_filter

theorem topRanked_of_card_le {S : Finset α} {m : ℕ} (h : S.card ≤ m) : topRanked S m = S :=
  filter_true_of_mem fun b hb =>
    (card_lt_card (filter_ssubset.2 ⟨b, hb, lt_irrefl b⟩)).trans_le h

theorem topRanked_union_of_lt {A B : Finset α} {m : ℕ} (hBelow : ∀ a ∈ A, ∀ b ∈ B, b < a)
    (hA : A.card = m) : topRanked (A ∪ B) m = A := by
  ext x
  rw [mem_topRanked, mem_union]
  constructor
  · rintro ⟨hx | hx, hRank⟩
    · exact hx
    · have hSub : A ⊆ (A ∪ B).filter (x < ·) := fun a ha =>
        mem_filter.2 ⟨mem_union_left B ha, hBelow a ha x hx⟩
      exact absurd (hA ▸ card_le_card hSub) (not_le.2 hRank)
  · intro hx
    have hSub : (A ∪ B).filter (x < ·) ⊂ A := by
      refine ssubset_iff_of_subset (fun y hy => ?_) |>.2 ⟨x, hx, by simp⟩
      rw [mem_filter, mem_union] at hy
      obtain ⟨hy | hy, hxy⟩ := hy
      · exact hy
      · exact absurd (hBelow x hx y hy) (not_lt.2 hxy.le)
    exact ⟨.inl hx, hA ▸ card_lt_card hSub⟩

end TopRanked
