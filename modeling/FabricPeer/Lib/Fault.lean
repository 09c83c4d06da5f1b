import Mathlib.Data.List.Basic
import Mathlib.Algebra.GroupWithZero.Nat

/-! # Calls that return an error or panic

A Go function either returns normally, returns an `error` value to its caller, or stops the
goroutine with a runtime panic (an index out of range, an explicit `panic`). The three ends are
kept apart here, so that a statement about a program can say which one it reaches. Nothing in
this module refers to a particular program.
-/

namespace GoRun

set_option autoImplicit false

/-- The ways a call can end other than by returning normally. -/
inductive Fault where
  | error (msg : String)
  | indexOutOfRange (index : Int) (length : Nat)
  | panic (msg : String)
  deriving DecidableEq, Repr

abbrev Run (α : Type) := Except Fault α

def Fault.isPanic : Fault → Bool
  | .error _ => false
  | .indexOutOfRange _ _ => true
  | .panic _ => true

def ofExcept {α : Type} : Except String α → Run α
  | .ok a => .ok a
  | .error msg => .error (.error msg)

@[simp] theorem ofExcept_ok {α : Type} (a : α) : ofExcept (.ok a) = .ok a := rfl

theorem ofExcept_eq_ok {α : Type} {x : Except String α} {a : α} :
    ofExcept x = .ok a ↔ x = .ok a := by
  cases x <;> simp [ofExcept]

def panicOnError {α : Type} (msg : String) : Run α → Run α
  | .error (.error err) => .error (.panic (msg ++ ": " ++ err))
  | r => r

/-- Indexing a slice: `xs[i]`, a panic when `i` is negative or not below the length. -/
def index {α : Type} (xs : List α) (i : Int) : Run α :=
  if h : 0 ≤ i ∧ i.toNat < xs.length then .ok (xs.get ⟨i.toNat, h.2⟩)
  else .error (.indexOutOfRange i xs.length)

theorem index_of_lt {α : Type} (xs : List α) (i : Nat) (h : i < xs.length) :
    index xs i = .ok (xs.get ⟨i, h⟩) := by
  have hIn : 0 ≤ (i : Int) ∧ (i : Int).toNat < xs.length := ⟨by omega, by simpa using h⟩
  simp only [index, dif_pos hIn]
  rfl

theorem index_of_le {α : Type} (xs : List α) (i : Nat) (h : xs.length ≤ i) :
    index xs i = .error (.indexOutOfRange i xs.length) := by
  have hOut : ¬ (0 ≤ (i : Int) ∧ (i : Int).toNat < xs.length) := by
    rintro ⟨-, hLt⟩
    simp only [Int.toNat_natCast] at hLt
    omega
  simp only [index, dif_neg hOut]

theorem index_eq_error {α : Type} {xs : List α} {i : Int} {e : Fault} (h : index xs i = .error e) :
    e = .indexOutOfRange i xs.length ∧ ¬ (0 ≤ i ∧ i.toNat < xs.length) := by
  unfold index at h
  split_ifs at h with hIn
  cases h
  exact ⟨rfl, hIn⟩

theorem index_eq_ok {α : Type} {xs : List α} {i : Int} {a : α} (h : index xs i = .ok a) :
    0 ≤ i ∧ i.toNat < xs.length ∧ xs[i.toNat]? = some a := by
  unfold index at h
  split_ifs at h with hIn
  cases h
  exact ⟨hIn.1, hIn.2, by simp [hIn.2]⟩

def sliceFrom {α : Type} (xs : List α) (lo : Nat) : Run (List α) :=
  if lo ≤ xs.length then .ok (xs.drop lo) else .error (.panic "slice bounds out of range")

theorem sliceFrom_of_le {α : Type} (xs : List α) {lo : Nat} (h : lo ≤ xs.length) :
    sliceFrom xs lo = .ok (xs.drop lo) := if_pos h

theorem index_append_length {α : Type} (xs ys : List α) (y : α) :
    index (xs ++ y :: ys) xs.length = .ok y := by
  rw [index_of_lt _ _ (by simp)]
  simp

@[simp] theorem bind_ok {α β : Type} (a : α) (f : α → Run β) :
    ((Except.ok a : Run α) >>= f) = f a := rfl

@[simp] theorem bind_error {α β : Type} (e : Fault) (f : α → Run β) :
    ((Except.error e : Run α) >>= f) = .error e := rfl

@[simp] theorem throw_eq_error {ε α : Type} (e : ε) : (throw e : Except ε α) = .error e := rfl

@[simp] theorem error_bind {ε α β : Type} (e : ε) (f : α → Except ε β) :
    (Except.error e >>= f) = .error e := rfl

@[simp] theorem ok_bind {ε α β : Type} (a : α) (f : α → Except ε β) :
    (Except.ok a >>= f) = f a := rfl

theorem bind_eq_ok {ε α β : Type} (x : Except ε α) (f : α → Except ε β) (b : β) :
    x >>= f = .ok b ↔ ∃ a, x = .ok a ∧ f a = .ok b := by
  cases x with
  | error e => simp
  | ok a => simp

theorem bind_eq_ok_unit {ε β : Type} (x : Except ε Unit) (f : Unit → Except ε β) (b : β) :
    x >>= f = .ok b ↔ x = .ok () ∧ f () = .ok b := by
  cases x <;> simp

theorem bind_eq_error_of {ε α β : Type} {x : Except ε α} {f : α → Except ε β}
    (h : ∀ a, x = .ok a → ∃ e, f a = .error e) : ∃ e, x >>= f = .error e := by
  cases x with
  | error e => exact ⟨e, rfl⟩
  | ok a => exact h a rfl

theorem bind_eq_error_of_eq_error {ε α β : Type} {x : Except ε α} (f : α → Except ε β)
    (h : ∃ e, x = .error e) : ∃ e, x >>= f = .error e := by
  obtain ⟨e, rfl⟩ := h
  exact ⟨e, rfl⟩

theorem mapM_eq_ok_of_forall {ε α β : Type} (f : α → Except ε β) (l : List α)
    (h : ∀ a ∈ l, ∃ b, f a = .ok b) :
    ∃ bs, l.mapM f = .ok bs ∧ ∀ a ∈ l, ∀ b, f a = .ok b → b ∈ bs := by
  induction l with
  | nil => exact ⟨[], rfl, by simp⟩
  | cons a l ih =>
    obtain ⟨b, hb⟩ := h a List.mem_cons_self
    obtain ⟨bs, hbs, hMem⟩ := ih fun a' hMem => h a' (List.mem_cons_of_mem _ hMem)
    refine ⟨b :: bs, by rw [List.mapM_cons, hb, hbs]; rfl, ?_⟩
    intro a' hMem' b' hb'
    rcases List.mem_cons.1 hMem' with rfl | hTail
    · rw [hb] at hb'
      cases hb'
      exact List.mem_cons_self
    · exact List.mem_cons_of_mem _ (hMem a' hTail b' hb')

theorem mapM_eq_ok_map {ε α β : Type} (f : α → Except ε β) (g : α → β) (l : List α)
    (h : ∀ a ∈ l, f a = .ok (g a)) : l.mapM f = .ok (l.map g) := by
  induction l with
  | nil => rfl
  | cons a l ih =>
    rw [List.mapM_cons, h a List.mem_cons_self,
      ih fun a' hMem => h a' (List.mem_cons_of_mem _ hMem)]
    rfl

theorem mapM_eq_ok_self {ε α : Type} (f : α → Except ε α) (l : List α)
    (h : ∀ a ∈ l, f a = .ok a) : l.mapM f = .ok l := by
  induction l with
  | nil => rfl
  | cons a l ih =>
    rw [List.mapM_cons, h a List.mem_cons_self,
      ih fun a' hMem => h a' (List.mem_cons_of_mem _ hMem)]
    rfl

theorem exists_of_mem_mapM {ε α β : Type} {f : α → Except ε β} {l : List α} {bs : List β}
    (h : l.mapM f = .ok bs) {b : β} (hb : b ∈ bs) : ∃ a ∈ l, f a = .ok b := by
  induction l generalizing bs with
  | nil =>
    cases h
    cases hb
  | cons a l ih =>
    rw [List.mapM_cons] at h
    cases hfa : f a with
    | error e =>
      rw [hfa] at h
      cases h
    | ok b' =>
      cases hl : l.mapM f with
      | error e =>
        rw [hfa, hl] at h
        cases h
      | ok bs' =>
        rw [hfa, hl] at h
        cases h
        rcases List.mem_cons.1 hb with rfl | hTail
        · exact ⟨a, List.mem_cons_self, hfa⟩
        · obtain ⟨a', hMem, hfa'⟩ := ih hl hTail
          exact ⟨a', List.mem_cons_of_mem a hMem, hfa'⟩

theorem exists_mem_mapM_of_mem {ε α β : Type} {f : α → Except ε β} {l : List α} {bs : List β}
    (h : l.mapM f = .ok bs) {a : α} (ha : a ∈ l) : ∃ b ∈ bs, f a = .ok b := by
  induction l generalizing bs with
  | nil => cases ha
  | cons a' l ih =>
    rw [List.mapM_cons] at h
    cases hfa : f a' with
    | error e =>
      rw [hfa] at h
      cases h
    | ok b' =>
      cases hl : l.mapM f with
      | error e =>
        rw [hfa, hl] at h
        cases h
      | ok bs' =>
        rw [hfa, hl] at h
        cases h
        rcases List.mem_cons.1 ha with rfl | hTail
        · exact ⟨b', List.mem_cons_self, hfa⟩
        · obtain ⟨b, hb, hfb⟩ := ih hl hTail
          exact ⟨b, List.mem_cons_of_mem _ hb, hfb⟩

theorem foldlM_eq_ok_foldl {ε α β : Type} (f : β → α → Except ε β) (g : β → α → β) (l : List α)
    (h : ∀ b, ∀ a ∈ l, f b a = .ok (g b a)) (b : β) : l.foldlM f b = .ok (l.foldl g b) := by
  induction l generalizing b with
  | nil => rfl
  | cons a l ih =>
    rw [List.foldlM_cons, h b a List.mem_cons_self]
    exact ih (fun b' a' hMem => h b' a' (List.mem_cons_of_mem _ hMem)) (g b a)

theorem exists_of_foldlM_eq_ok {ε α β : Type} {f : β → α → Except ε β} :
    ∀ {l : List α} {b r : β}, l.foldlM f b = .ok r → ∀ a ∈ l, ∃ b' r', f b' a = .ok r'
  | [], _, _, _, _, ha => nomatch ha
  | a' :: l, b, r, h, a, ha => by
    rw [List.foldlM_cons] at h
    cases hStep : f b a' with
    | error e =>
      rw [hStep] at h
      cases h
    | ok b'' =>
      rw [hStep] at h
      rcases List.mem_cons.1 ha with rfl | hTail
      · exact ⟨b, b'', hStep⟩
      · exact exists_of_foldlM_eq_ok h a hTail

theorem foldlM_eq_error_of_mem {ε α β : Type} (f : β → α → Except ε β) {l : List α} {a : α}
    (ha : a ∈ l) (h : ∀ b, ∃ e, f b a = .error e) (b : β) : ∃ e, l.foldlM f b = .error e := by
  induction l generalizing b with
  | nil => cases ha
  | cons a' l ih =>
    rw [List.foldlM_cons]
    cases hStep : f b a' with
    | error e => exact ⟨e, rfl⟩
    | ok b' =>
      rcases List.mem_cons.1 ha with rfl | hTail
      · obtain ⟨e, he⟩ := h b
        rw [he] at hStep
        cases hStep
      · exact ih hTail b'

theorem forM_eq_ok_iff {ε α : Type} (f : α → Except ε Unit) (l : List α) :
    l.forM f = .ok () ↔ ∀ a ∈ l, f a = .ok () := by
  induction l with
  | nil => exact iff_of_true rfl (fun _ h => nomatch h)
  | cons a l ih =>
    change (f a >>= fun _ => l.forM f) = _ ↔ _
    rw [bind_eq_ok, List.forall_mem_cons, ← ih]
    constructor
    · rintro ⟨⟨⟩, ha, hl⟩
      exact ⟨ha, hl⟩
    · rintro ⟨ha, hl⟩
      exact ⟨(), ha, hl⟩

def wrapf {α : Type} (msg : String) : Run α → Run α
  | .error (.error err) => .error (.error (msg ++ ": " ++ err))
  | r => r

@[simp] theorem wrapf_eq_ok {α : Type} {msg : String} {r : Run α} {a : α} :
    wrapf msg r = .ok a ↔ r = .ok a := by
  unfold wrapf
  split <;> simp_all

theorem foldl_invariant {α β : Type} {f : β → α → β} (P : β → Prop)
    (hStep : ∀ b a, P b → P (f b a)) : ∀ (l : List α) (b : β), P b → P (l.foldl f b)
  | [], _, hb => hb
  | a :: l, b, hb => foldl_invariant P hStep l (f b a) (hStep b a hb)

theorem foldlM_eq_ok_invariant {ε α β : Type} {f : β → α → Except ε β} (P : β → Prop)
    (hStep : ∀ b a b', P b → f b a = .ok b' → P b') :
    ∀ {l : List α} {b r : β}, l.foldlM f b = .ok r → P b → P r
  | [], _, _, h, hb => Except.ok.inj h ▸ hb
  | a :: l, b, r, h, hb => by
    rw [List.foldlM_cons] at h
    cases hPass : f b a with
    | error e =>
      rw [hPass] at h
      cases h
    | ok b' =>
      rw [hPass] at h
      exact foldlM_eq_ok_invariant P hStep h (hStep b a b' hb hPass)

def uint64Pred (x : ℕ) : ℕ := (x + 2 ^ 64 - 1) % 2 ^ 64

theorem uint64Pred_of_pos {x : ℕ} (hPos : 0 < x) (hLe : x ≤ 2 ^ 64) : uint64Pred x = x - 1 := by
  unfold uint64Pred
  omega

theorem uint64Pred_succ {n : ℕ} (h : n < 2 ^ 64) : uint64Pred (n + 1) = n := by
  rw [uint64Pred]
  omega

end GoRun
