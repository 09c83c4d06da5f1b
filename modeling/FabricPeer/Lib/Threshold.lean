import Mathlib.Data.Finset.Basic
import Mathlib.Algebra.GroupWithZero.Nat

/-! # Threshold formulas and their witnesses

A threshold formula asks at a leaf for one witness meeting the leaf's condition, and at a gate
for at least `n` of its children. It is met by a set of witnesses when the witnesses can be
handed out to leaves, each witness to at most one leaf and only to a leaf whose condition it
meets, so that every gate counted has enough children met. Nothing in this module refers to a
particular program.
-/

namespace Threshold

set_option autoImplicit false

inductive Formula (α : Type) where
  | leaf (a : α)
  | gate (n : Int) (children : List (Formula α))
  deriving Repr

variable {ω α : Type}

/-- `Covers sat t S`: the witnesses of `S` meet `t`. A gate is met by children it picks in
order, at least `n` of them, each met by its own part of `S`, the parts pairwise disjoint. -/
inductive Covers (sat : ω → α → Prop) : Formula α → Finset ω → Prop where
  | leaf {a : α} {w : ω} {S : Finset ω} : w ∈ S → sat w a → Covers sat (.leaf a) S
  | gate {n : Int} {children : List (Formula α)} {S : Finset ω}
      (chosen : List (Formula α × Finset ω)) :
      (chosen.map Prod.fst).Sublist children → n ≤ chosen.length →
      chosen.Pairwise (fun p q => Disjoint p.2 q.2) → (∀ p ∈ chosen, p.2 ⊆ S) →
      (∀ p ∈ chosen, Covers sat p.1 p.2) → Covers sat (.gate n children) S

variable {sat : ω → α → Prop}

theorem Covers.mono {t : Formula α} {S S' : Finset ω} (h : Covers sat t S) (hSub : S ⊆ S') :
    Covers sat t S' := by
  cases h with
  | leaf hw hSat => exact .leaf (hSub hw) hSat
  | gate chosen hChildren hCount hDisjoint hParts hCovers =>
    exact .gate chosen hChildren hCount hDisjoint (fun p hp => (hParts p hp).trans hSub) hCovers

section Union

variable [DecidableEq ω]

def unionAll : List (Finset ω) → Finset ω
  | [] => ∅
  | T :: Ts => T ∪ unionAll Ts

theorem subset_unionAll {Ts : List (Finset ω)} {T : Finset ω} (h : T ∈ Ts) : T ⊆ unionAll Ts := by
  induction Ts with
  | nil => simp at h
  | cons T' Ts ih =>
    rcases List.mem_cons.1 h with rfl | h
    · exact Finset.subset_union_left
    · exact (ih h).trans Finset.subset_union_right

theorem covers_gate_unionAll {n : Int} {children : List (Formula α)}
    (chosen : List (Formula α × Finset ω)) (hChildren : (chosen.map Prod.fst).Sublist children)
    (hCount : n ≤ chosen.length) (hDisjoint : chosen.Pairwise (fun p q => Disjoint p.2 q.2))
    (hCovers : ∀ p ∈ chosen, Covers sat p.1 p.2) :
    Covers sat (.gate n children) (unionAll (chosen.map Prod.snd)) := by
  refine .gate chosen hChildren hCount hDisjoint ?_ hCovers
  intro p hp
  exact subset_unionAll (List.mem_map_of_mem hp)

end Union

end Threshold
