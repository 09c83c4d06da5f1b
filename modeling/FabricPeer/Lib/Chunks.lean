import Mathlib.Data.List.Basic
import Mathlib.Algebra.GroupWithZero.Nat

/-! # Lists cut into chunks

A list cut into consecutive chunks of `d + 1` elements, the last one possibly shorter, and the
split of a list into the elements of its complete chunks and the fewer than `d + 1` after them.
One more element either joins that rest or completes a chunk, as one more unit moves a counter in
base `d + 1`. Nothing in this module refers to a particular program.
-/

namespace Chunking

set_option autoImplicit false

variable {α : Type} (d : ℕ)

/-- The consecutive chunks of `d + 1` elements of a list, the last one possibly shorter. -/
def chunksOf : List α → List (List α)
  | [] => []
  | a :: l => (a :: l).take (d + 1) :: chunksOf ((a :: l).drop (d + 1))
termination_by l => l.length
decreasing_by simp only [List.length_drop, List.length_cons]; omega

def completeLength (n : ℕ) : ℕ := (d + 1) * (n / (d + 1))

def completePart (l : List α) : List α := l.take (completeLength d l.length)

def restPart (l : List α) : List α := l.drop (completeLength d l.length)

section Chunks

variable {d}

@[simp] theorem chunksOf_nil : chunksOf d ([] : List α) = [] := by
  rw [chunksOf]

theorem chunksOf_of_ne_nil {l : List α} (h : l ≠ []) :
    chunksOf d l = l.take (d + 1) :: chunksOf d (l.drop (d + 1)) := by
  cases l with
  | nil => contradiction
  | cons a l => rw [chunksOf]

theorem chunksOf_eq_nil_iff (l : List α) : chunksOf d l = [] ↔ l = [] := by
  cases l with
  | nil => simp
  | cons a l => simp [chunksOf]

theorem chunksOf_of_length_le {l : List α} (h : l ≠ []) (hLen : l.length ≤ d + 1) :
    chunksOf d l = [l] := by
  rw [chunksOf_of_ne_nil h, List.take_of_length_le hLen, List.drop_eq_nil_of_le hLen,
    chunksOf_nil]

theorem chunksOf_append (A C : List α) (hA : (d + 1) ∣ A.length) :
    chunksOf d (A ++ C) = chunksOf d A ++ chunksOf d C := by
  fun_induction chunksOf d A with
  | case1 => simp
  | case2 a l ih =>
    have hChunk : d + 1 ≤ (a :: l).length := Nat.le_of_dvd (by simp) hA
    have hRest : (d + 1) ∣ ((a :: l).drop (d + 1)).length := by
      rw [List.length_drop]
      exact Nat.dvd_sub hA (Nat.dvd_refl _)
    rw [chunksOf_of_ne_nil (by simp), List.take_append_of_le_length hChunk,
      List.drop_append_of_le_length hChunk, ih hRest, List.cons_append]

theorem length_chunksOf (l : List α) : (chunksOf d l).length = (l.length + d) / (d + 1) := by
  fun_induction chunksOf d l with
  | case1 => simp [Nat.div_eq_of_lt (Nat.lt_succ_self d)]
  | case2 a l ih =>
    rw [List.length_cons, ih, List.length_drop, List.length_cons]
    by_cases hShort : l.length ≤ d
    · have hNone : l.length + 1 - (d + 1) + d = d := by omega
      rw [hNone, Nat.div_eq_of_lt (Nat.lt_succ_self d)]
      exact (Nat.div_eq_of_lt_le (by omega) (by omega)).symm
    · have hSplit : l.length + 1 + d = (l.length + 1 - (d + 1) + d) + (d + 1) := by omega
      rw [hSplit, Nat.add_div_right _ (Nat.succ_pos d)]

theorem length_chunksOf_lt (hd : 0 < d) {l : List α} (h : d < l.length) :
    (chunksOf d l).length < l.length := by
  rw [length_chunksOf, Nat.div_lt_iff_lt_mul (Nat.succ_pos d)]
  calc l.length + d < l.length * 2 := by omega
    _ ≤ l.length * (d + 1) := Nat.mul_le_mul_left _ (by omega)

theorem length_of_mem_chunksOf (l : List α) (hl : (d + 1) ∣ l.length) :
    ∀ c ∈ chunksOf d l, c.length = d + 1 := by
  fun_induction chunksOf d l with
  | case1 => simp
  | case2 a l ih =>
    have hChunk : d + 1 ≤ (a :: l).length := Nat.le_of_dvd (by simp) hl
    intro c hc
    rcases List.mem_cons.1 hc with rfl | hc
    · simp only [List.length_take]
      omega
    · exact ih (by rw [List.length_drop]; exact Nat.dvd_sub hl (Nat.dvd_refl _)) c hc

end Chunks

section Split

variable {d}

theorem completePart_append_restPart (l : List α) : completePart d l ++ restPart d l = l :=
  List.take_append_drop _ _

theorem completeLength_le (n : ℕ) : completeLength d n ≤ n := Nat.mul_div_le n (d + 1)

theorem length_completePart (l : List α) : (completePart d l).length = completeLength d l.length := by
  rw [completePart, List.length_take, Nat.min_eq_left (completeLength_le _)]

theorem dvd_length_completePart (l : List α) : (d + 1) ∣ (completePart d l).length := by
  rw [length_completePart]
  exact Nat.dvd_mul_right _ _

theorem length_restPart (l : List α) : (restPart d l).length = l.length % (d + 1) := by
  rw [restPart, List.length_drop, completeLength]
  have := Nat.div_add_mod l.length (d + 1)
  omega

theorem length_restPart_le (l : List α) : (restPart d l).length ≤ d := by
  rw [length_restPart]
  exact Nat.le_of_lt_succ (Nat.mod_lt _ (Nat.succ_pos d))

theorem completePart_eq_nil_iff (l : List α) : completePart d l = [] ↔ l.length ≤ d := by
  rw [← List.length_eq_zero_iff, length_completePart, completeLength, Nat.mul_eq_zero,
    Nat.div_eq_zero_iff]
  omega

theorem restPart_of_length_le {l : List α} (h : l.length ≤ d) : restPart d l = l := by
  have hSplit := completePart_append_restPart (d := d) l
  rwa [(completePart_eq_nil_iff l).2 h, List.nil_append] at hSplit

theorem completeLength_succ_of_lt {n : ℕ} (h : n % (d + 1) < d) :
    completeLength d (n + 1) = completeLength d n := by
  have hSplit := Nat.div_add_mod n (d + 1)
  have hComm : n / (d + 1) * (d + 1) = (d + 1) * (n / (d + 1)) := Nat.mul_comm _ _
  have hDiv : (n + 1) / (d + 1) = n / (d + 1) := by
    apply Nat.div_eq_of_lt_le
    · omega
    · rw [Nat.succ_mul]
      omega
  rw [completeLength, completeLength, hDiv]

theorem completeLength_succ_of_eq {n : ℕ} (h : n % (d + 1) = d) :
    completeLength d (n + 1) = n + 1 := by
  have hSplit := Nat.div_add_mod n (d + 1)
  have hComm : n / (d + 1) * (d + 1) = (d + 1) * (n / (d + 1)) := Nat.mul_comm _ _
  have hDiv : (n + 1) / (d + 1) = n / (d + 1) + 1 := by
    apply Nat.div_eq_of_lt_le
    · rw [Nat.succ_mul]
      omega
    · rw [Nat.succ_mul, Nat.succ_mul]
      omega
  rw [completeLength, hDiv, Nat.mul_succ]
  omega

theorem restPart_concat_of_lt {l : List α} (h : (restPart d l).length < d) (a : α) :
    completePart d (l ++ [a]) = completePart d l ∧ restPart d (l ++ [a]) = restPart d l ++ [a] := by
  rw [length_restPart] at h
  have hLe := completeLength_le (d := d) l.length
  rw [completePart, restPart, List.length_append, List.length_singleton,
    completeLength_succ_of_lt h]
  exact ⟨List.take_append_of_le_length hLe, List.drop_append_of_le_length hLe⟩

theorem restPart_concat_of_eq {l : List α} (h : (restPart d l).length = d) (a : α) :
    completePart d (l ++ [a]) = completePart d l ++ (restPart d l ++ [a]) ∧
      restPart d (l ++ [a]) = [] := by
  rw [length_restPart] at h
  have hAll : completeLength d (l ++ [a]).length = (l ++ [a]).length := by
    rw [List.length_append, List.length_singleton, completeLength_succ_of_eq h]
  constructor
  · rw [completePart, hAll, List.take_length, ← List.append_assoc, completePart_append_restPart]
  · rw [restPart, hAll, List.drop_length]

theorem length_completeChunks (l : List α) :
    (d + 1) * (chunksOf d (completePart d l)).length + (restPart d l).length = l.length := by
  rw [length_chunksOf, length_completePart, completeLength, Nat.mul_add_div (Nat.succ_pos d),
    Nat.div_eq_of_lt (Nat.lt_succ_self d), Nat.add_zero, length_restPart]
  exact Nat.div_add_mod _ _

theorem chunksOf_completePart_concat_of_lt {l : List α} (h : (restPart d l).length < d) (a : α) :
    chunksOf d (completePart d (l ++ [a])) = chunksOf d (completePart d l) := by
  rw [(restPart_concat_of_lt h a).1]

theorem chunksOf_completePart_concat_of_eq {l : List α} (h : (restPart d l).length = d) (a : α) :
    chunksOf d (completePart d (l ++ [a])) = chunksOf d (completePart d l) ++ [restPart d l ++ [a]] := by
  rw [(restPart_concat_of_eq h a).1, chunksOf_append _ _ (dvd_length_completePart l),
    chunksOf_of_length_le (l := restPart d l ++ [a]) (by simp) (by simp [h])]

theorem chunksOf_eq_completePart_append (l : List α) :
    chunksOf d l = chunksOf d (completePart d l) ++ chunksOf d (restPart d l) := by
  conv_lhs => rw [← completePart_append_restPart (d := d) l]
  exact chunksOf_append _ _ (dvd_length_completePart l)

end Split

end Chunking
