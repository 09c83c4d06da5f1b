import Mathlib.Order.Monotone.Basic
import Mathlib.Order.Interval.Set.Basic
import Mathlib.Algebra.GroupWithZero.Nat

/-! # Searching for the last position whose key is at most a target

The loop `for end != begin { mid := begin + (end-begin)/2 + 1; ... }` over positions whose keys
a fallible probe reads: a key equal to the target returns its position at once, a larger one
moves the end below the probe and a smaller one moves the beginning to it. The midpoint is
rounded up, so the beginning is never probed: its key is known, to be at most the target, from
the step that moved it there. The search terminates, as the range shrinks at every step.

With keys that increase strictly and a probe that reads them, the search returns the last
position whose key is at most the target (`searchLast_eq_ok`), provided the range starts
bracketing it; a probe that fails at the end of the range, when every key below is smaller than
the target, makes the search fail (`searchLast_eq_error`).
-/

namespace BinarySearch

set_option autoImplicit false

section

variable {ε : Type} (probe : ℕ → Except ε ℕ) (target : ℕ)

def searchLast (beginPos endPos : ℕ) : Except ε ℕ :=
  if endPos ≤ beginPos then .ok beginPos
  else
    let mid := beginPos + (endPos - beginPos) / 2 + 1
    match probe mid with
    | .error e => .error e
    | .ok n =>
      if n = target then .ok mid
      else if target < n then searchLast beginPos (mid - 1)
      else searchLast mid endPos
termination_by endPos - beginPos

variable {probe target}

theorem searchLast_of_probe_error {beginPos endPos : ℕ} {e : ε} (h : beginPos < endPos)
    (hProbe : probe (beginPos + (endPos - beginPos) / 2 + 1) = .error e) :
    searchLast probe target beginPos endPos = .error e := by
  rw [searchLast, if_neg (Nat.not_le.2 h)]
  simp only [hProbe]

theorem searchLast_of_probe_lt {beginPos endPos n : ℕ} (h : beginPos < endPos)
    (hProbe : probe (beginPos + (endPos - beginPos) / 2 + 1) = .ok n) (hn : n < target) :
    searchLast probe target beginPos endPos =
      searchLast probe target (beginPos + (endPos - beginPos) / 2 + 1) endPos := by
  rw [searchLast, if_neg (Nat.not_le.2 h)]
  simp only [hProbe, if_neg (Nat.ne_of_lt hn), if_neg (Nat.not_lt.2 (Nat.le_of_lt hn))]

theorem mid_mem {beginPos endPos : ℕ} (h : beginPos < endPos) :
    beginPos < beginPos + (endPos - beginPos) / 2 + 1 ∧
      beginPos + (endPos - beginPos) / 2 + 1 ≤ endPos := by
  omega

/-! ## The answer -/

def IsLastAtMost (first : ℕ → ℕ) (top target f : ℕ) : Prop :=
  f ≤ top ∧ first f ≤ target ∧ ∀ g, f < g → g ≤ top → target < first g

structure Bracket (first : ℕ → ℕ) (top target beginPos endPos : ℕ) : Prop where
  le : beginPos ≤ endPos
  le_top : endPos ≤ top
  first_begin : first beginPos ≤ target
  first_after : endPos < top → target < first (endPos + 1)

variable {first : ℕ → ℕ} {top : ℕ}

theorem Bracket.isLastAtMost (hMono : StrictMonoOn first (Set.Iic top)) {f : ℕ}
    (h : Bracket first top target f f) : IsLastAtMost first top target f := by
  refine ⟨h.le_top, h.first_begin, fun g hfg hg => ?_⟩
  have hAfter := h.first_after (by omega)
  calc target < first (f + 1) := hAfter
    _ ≤ first g := hMono.monotoneOn (Set.mem_Iic.2 (by omega)) (Set.mem_Iic.2 hg) (by omega)

theorem isLastAtMost_of_eq (hMono : StrictMonoOn first (Set.Iic top)) {f : ℕ} (hf : f ≤ top)
    (hEq : first f = target) : IsLastAtMost first top target f :=
  ⟨hf, hEq.le, fun _ hfg hg => hEq ▸ hMono (Set.mem_Iic.2 hf) (Set.mem_Iic.2 hg) hfg⟩

theorem Bracket.below {beginPos endPos mid : ℕ} (h : Bracket first top target beginPos endPos)
    (hMid : beginPos < mid ∧ mid ≤ endPos) (hAbove : target < first mid) :
    Bracket first top target beginPos (mid - 1) :=
  ⟨by omega, by have := h.le_top; omega, h.first_begin,
    fun _ => by rwa [Nat.sub_add_cancel (by omega)]⟩

theorem Bracket.above {beginPos endPos mid : ℕ} (h : Bracket first top target beginPos endPos)
    (hMid : beginPos < mid ∧ mid ≤ endPos) (hBelow : first mid ≤ target) :
    Bracket first top target mid endPos :=
  ⟨hMid.2, h.le_top, hBelow, h.first_after⟩

theorem searchLast_eq_ok (hProbe : ∀ i, 0 < i → i ≤ top → probe i = .ok (first i))
    (hMono : StrictMonoOn first (Set.Iic top)) {beginPos endPos : ℕ}
    (hInv : Bracket first top target beginPos endPos) :
    ∃ f, searchLast probe target beginPos endPos = .ok f ∧ IsLastAtMost first top target f := by
  fun_induction searchLast probe target beginPos endPos with
  | case1 beginPos endPos hLe =>
    obtain rfl : endPos = beginPos := Nat.le_antisymm hLe hInv.le
    exact ⟨endPos, rfl, hInv.isLastAtMost hMono⟩
  | case2 beginPos endPos hLt mid e hErr =>
    have hMid := mid_mem (Nat.lt_of_not_le hLt)
    rw [hProbe mid (by omega) (by have := hInv.le_top; omega)] at hErr
    cases hErr
  | case3 beginPos endPos hLt mid hEq =>
    have hMid := mid_mem (Nat.lt_of_not_le hLt)
    rw [hProbe mid (by omega) (by have := hInv.le_top; omega), Except.ok.injEq] at hEq
    exact ⟨mid, rfl, isLastAtMost_of_eq hMono (by have := hInv.le_top; omega) hEq⟩
  | case4 beginPos endPos hLt mid n hOk hNe hAbove ih =>
    have hMid := mid_mem (Nat.lt_of_not_le hLt)
    rw [hProbe mid (by omega) (by have := hInv.le_top; omega), Except.ok.injEq] at hOk
    subst hOk
    exact ih (hInv.below hMid hAbove)
  | case5 beginPos endPos hLt mid n hOk hNe hBelow ih =>
    have hMid := mid_mem (Nat.lt_of_not_le hLt)
    rw [hProbe mid (by omega) (by have := hInv.le_top; omega), Except.ok.injEq] at hOk
    subst hOk
    exact ih (hInv.above hMid (Nat.le_of_not_lt hBelow))

theorem searchLast_eq_error {e : ε} (hTop : probe top = .error e)
    (hBelow : ∀ i, 0 < i → i < top → ∃ n, probe i = .ok n ∧ n < target) {beginPos : ℕ}
    (hBegin : beginPos < top) : searchLast probe target beginPos top = .error e := by
  induction hMeasure : top - beginPos using Nat.strong_induction_on generalizing beginPos with
  | _ k ih =>
    have hMid := mid_mem hBegin
    by_cases hEnd : beginPos + (top - beginPos) / 2 + 1 = top
    · rw [searchLast_of_probe_error hBegin (by rw [hEnd]; exact hTop)]
    · have hNext : beginPos + (top - beginPos) / 2 + 1 < top := by omega
      obtain ⟨n, hProbe, hn⟩ := hBelow _ (by omega) hNext
      rw [searchLast_of_probe_lt hBegin hProbe hn]
      exact ih (top - (beginPos + (top - beginPos) / 2 + 1)) (by omega) hNext rfl

end

end BinarySearch
