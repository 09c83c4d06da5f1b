import Mathlib.Logic.Relation
import Mathlib.Algebra.GroupWithZero.Nat

/-! # Transition systems

A concurrent program is a step relation on its global states: each step is one atomic action
of one of its threads, and any interleaving of the threads' actions is a run. The states of
the program are those reached from the initial state by finitely many steps, and a property of
all of them is proved as an inductive invariant. Nothing in this module refers to a
particular program.
-/

namespace Transition

set_option autoImplicit false

variable {σ : Type}

/-- The states that `step` reaches from `init` in finitely many steps. -/
def Reachable (step : σ → σ → Prop) (init : σ) (s : σ) : Prop :=
  Relation.ReflTransGen step init s

theorem Reachable.invariant {step : σ → σ → Prop} {init : σ} (inv : σ → Prop)
    (hInit : inv init) (hStep : ∀ s s', inv s → step s s' → inv s') {s : σ}
    (hReach : Reachable step init s) : inv s := by
  induction hReach with
  | refl => exact hInit
  | tail _ hLast ih => exact hStep _ _ ih hLast

theorem Reachable.refl (step : σ → σ → Prop) (init : σ) : Reachable step init init :=
  Relation.ReflTransGen.refl

theorem Reachable.tail {step : σ → σ → Prop} {init s s' : σ} (hReach : Reachable step init s)
    (hStep : step s s') : Reachable step init s' :=
  Relation.ReflTransGen.tail hReach hStep

theorem Reachable.head {step : σ → σ → Prop} {s s' s'' : σ} (hStep : step s s')
    (hReach : Reachable step s' s'') : Reachable step s s'' :=
  Relation.ReflTransGen.head hStep hReach

theorem Reachable.trans {step : σ → σ → Prop} {s s' s'' : σ} (h : Reachable step s s')
    (h' : Reachable step s' s'') : Reachable step s s'' :=
  Relation.ReflTransGen.trans h h'

end Transition
