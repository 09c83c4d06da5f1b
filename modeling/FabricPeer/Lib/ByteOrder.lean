import Mathlib.Data.List.Lex
import FabricPeer.Lib.Asn1

/-! # Byte strings in lexicographic order

Go's `bytes.Compare`, the lexicographic order `<` of lists that it computes, and how that order
meets concatenation and big-endian numbers: byte strings of one length compare as the numbers
they stand for, and a field that no other value of its kind extends decides the order of what is
written after it. `binary.BigEndian` writes and reads the eight bytes of a `uint64`. Bytes are
ordered by their values, so that byte strings, in the order of Mathlib's `List` instance, can key
a sorted store. Nothing in this module refers to a particular program.
-/

namespace ByteOrder

open Asn1

set_option autoImplicit false

/-- `bytes.Compare`: `-1`, `0` or `+1` as `a` is less than, equal to or greater than `b`; a
proper prefix is the smaller. -/
def bytesCompare : List UInt8 → List UInt8 → Int
  | [], [] => 0
  | [], _ :: _ => -1
  | _ :: _, [] => 1
  | x :: xs, y :: ys => if x < y then -1 else if y < x then 1 else bytesCompare xs ys

def putUint64 (v : UInt64) : List UInt8 :=
  [(v >>> 56).toUInt8, (v >>> 48).toUInt8, (v >>> 40).toUInt8, (v >>> 32).toUInt8,
    (v >>> 24).toUInt8, (v >>> 16).toUInt8, (v >>> 8).toUInt8, v.toUInt8]

def uint64 (b : List UInt8) : UInt64 := UInt64.ofNat (ofBigEndian (b.take 8))

instance instLinearOrderUInt8 : LinearOrder UInt8 where
  le_refl := UInt8.le_refl
  le_trans _ _ _ := UInt8.le_trans
  le_antisymm _ _ := UInt8.le_antisymm
  le_total := UInt8.le_total
  lt_iff_le_not_ge a b := by
    rw [UInt8.lt_iff_toNat_lt, UInt8.le_iff_toNat_le, UInt8.le_iff_toNat_le]
    omega
  toDecidableLE := inferInstance
  toDecidableLT := inferInstance
  toDecidableEq := inferInstance

def trimPrefix (s pre : List UInt8) : List UInt8 := if pre <+: s then s.drop pre.length else s

theorem trimPrefix_append (pre rest : List UInt8) : trimPrefix (pre ++ rest) pre = rest := by
  rw [trimPrefix, if_pos (List.prefix_append _ _), List.drop_left]

theorem eq_of_not_lt_of_not_lt {x y : UInt8} (hxy : ¬ x < y) (hyx : ¬ y < x) : x = y := by
  rw [UInt8.not_lt] at hxy hyx
  exact UInt8.le_antisymm hyx hxy

theorem bytesCompare_eq (a b : List UInt8) :
    bytesCompare a b = if a < b then -1 else if a = b then 0 else 1 := by
  induction a generalizing b with
  | nil =>
    cases b with
    | nil => simp [bytesCompare]
    | cons y b => simp [bytesCompare, List.nil_lt_cons]
  | cons x a ih =>
    cases b with
    | nil => simp [bytesCompare, List.not_lt_nil]
    | cons y b =>
      rw [bytesCompare]
      by_cases hxy : x < y
      · simp [hxy, List.cons_lt_cons_iff]
      · by_cases hyx : y < x
        · have hNe : x ≠ y := by
            rintro rfl
            exact UInt8.lt_irrefl _ hyx
          simp [hxy, hyx, hNe, List.cons_lt_cons_iff]
        · obtain rfl := eq_of_not_lt_of_not_lt hxy hyx
          simp [ih]

theorem bytesCompare_of_iff {a b : List UInt8} {p q : Prop} [Decidable p] [Decidable q]
    (hLt : a < b ↔ p) (hEq : a = b ↔ q) : bytesCompare a b = if p then -1 else if q then 0 else 1 := by
  rw [bytesCompare_eq]
  simp only [hLt, hEq]

theorem append_lt_append_left_iff (c : List UInt8) {x y : List UInt8} :
    c ++ x < c ++ y ↔ x < y := by
  induction c with
  | nil => rfl
  | cons b c ih =>
    rw [List.cons_append, List.cons_append, List.cons_lt_cons_iff, ih]
    constructor
    · rintro (hLt | ⟨-, h⟩)
      · exact absurd hLt (UInt8.lt_irrefl b)
      · exact h
    · exact fun h => .inr ⟨rfl, h⟩

theorem append_lt_append_iff {a b : List UInt8} (x y : List UInt8) (hAB : ¬ a <+: b)
    (hBA : ¬ b <+: a) : a ++ x < b ++ y ↔ a < b := by
  induction a generalizing b with
  | nil => exact absurd (List.nil_prefix) hAB
  | cons p a ih =>
    cases b with
    | nil => exact absurd (List.nil_prefix) hBA
    | cons q b =>
      rw [List.cons_append, List.cons_append, List.cons_lt_cons_iff, List.cons_lt_cons_iff]
      by_cases hpq : p = q
      · subst hpq
        rw [List.cons_prefix_cons] at hAB hBA
        have hTails := ih (fun h => hAB ⟨rfl, h⟩) (fun h => hBA ⟨rfl, h⟩)
        simp [hTails]
      · simp [hpq]

theorem le_append (a x : List UInt8) : a ≤ a ++ x := by
  rw [← not_lt]
  intro hLt
  have hNil : a ++ x < a ++ [] := by rwa [List.append_nil]
  exact List.not_lt_nil _ ((append_lt_append_left_iff a).1 hNil)

theorem append_le_append_left_iff (c : List UInt8) {x y : List UInt8} :
    c ++ x ≤ c ++ y ↔ x ≤ y := by
  rw [← not_lt, ← not_lt, append_lt_append_left_iff]

theorem comparable_of_mem_range {a b : List UInt8} (x y z : List UInt8) (hLow : b ++ y ≤ a ++ x)
    (hHigh : a ++ x < b ++ z) : a <+: b ∨ b <+: a := by
  by_contra hNeither
  rw [not_or] at hNeither
  obtain ⟨hAB, hBA⟩ := hNeither
  rw [append_lt_append_iff _ _ hAB hBA] at hHigh
  rw [← not_lt, append_lt_append_iff _ _ hAB hBA] at hLow
  exact hLow hHigh

theorem eq_of_prefix_append_sep {sep : UInt8} {a b : List UInt8} (ha : sep ∉ a) (hb : sep ∉ b)
    (h : a ++ [sep] <+: b ++ [sep]) : a = b := by
  induction a generalizing b with
  | nil =>
    cases b with
    | nil => rfl
    | cons y b => exact absurd ((List.cons_prefix_cons.1 h).1 ▸ List.mem_cons_self) hb
  | cons x a ih =>
    cases b with
    | nil => exact absurd ((List.cons_prefix_cons.1 h).1 ▸ List.mem_cons_self) ha
    | cons y b =>
      obtain ⟨rfl, hTail⟩ := List.cons_prefix_cons.1 h
      rw [ih (fun h' => ha (List.mem_cons_of_mem _ h')) (fun h' => hb (List.mem_cons_of_mem _ h'))
        hTail]

theorem eq_of_prefix_append_sep_cons {sep : UInt8} {a b x y : List UInt8} (ha : sep ∉ a)
    (hb : sep ∉ b) (h : a ++ sep :: x <+: b ++ sep :: y) : a = b := by
  have hA : a ++ [sep] <+: b ++ sep :: y := by
    refine List.IsPrefix.trans ?_ h
    exact ⟨x, by rw [List.append_assoc, List.singleton_append]⟩
  have hB : b ++ [sep] <+: b ++ sep :: y := ⟨y, by rw [List.append_assoc, List.singleton_append]⟩
  rcases List.prefix_or_prefix_of_prefix hA hB with hAB | hBA
  · exact eq_of_prefix_append_sep ha hb hAB
  · exact (eq_of_prefix_append_sep hb ha hBA).symm

theorem idxOf?_append_cons {a x : List UInt8} {c : UInt8} (ha : c ∉ a) :
    (a ++ c :: x).idxOf? c = some a.length := by
  have hNone : a.findIdx? (· == c) = none := by
    rw [List.findIdx?_eq_none_iff]
    intro y hy
    simpa using fun h : y = c => ha (h ▸ hy)
  simp [List.idxOf?, List.findIdx?_append, List.findIdx?_cons, hNone]

theorem zero_lt_of_ne_zero {c : UInt8} (h : c ≠ 0) : 0 < c := by
  rw [UInt8.lt_iff_toNat_lt, UInt8.toNat_zero]
  exact Nat.pos_of_ne_zero fun h0 => h (UInt8.toNat_inj.1 (h0.trans UInt8.toNat_zero.symm))

theorem append_zero_lt_append_zero_iff {a b : List UInt8} (ha : (0 : UInt8) ∉ a)
    (hb : (0 : UInt8) ∉ b) (x y : List UInt8) :
    a ++ 0 :: x < b ++ 0 :: y ↔ a < b ∨ (a = b ∧ x < y) := by
  induction a generalizing b with
  | nil =>
    cases b with
    | nil => simp
    | cons d b =>
      have hd := zero_lt_of_ne_zero fun h0 => hb (h0 ▸ List.mem_cons_self)
      exact iff_of_true (List.cons_lt_cons_iff.2 (.inl hd)) (.inl (List.nil_lt_cons d b))
  | cons c a ih =>
    have hc := zero_lt_of_ne_zero fun h0 => ha (h0 ▸ List.mem_cons_self)
    cases b with
    | nil =>
      refine iff_of_false ?_ (by simp [List.not_lt_nil])
      rw [List.cons_append, List.nil_append, List.cons_lt_cons_iff]
      rintro (hLt | ⟨rfl, -⟩)
      · exact lt_asymm hLt hc
      · exact lt_irrefl 0 hc
    | cons d b =>
      rw [List.cons_append, List.cons_append, List.cons_lt_cons_iff, List.cons_lt_cons_iff,
        ih (fun h0 => ha (List.mem_cons_of_mem c h0)) (fun h0 => hb (List.mem_cons_of_mem d h0))]
      simp only [List.cons.injEq, and_or_left, or_assoc, and_assoc]

theorem append_zero_lt_append_one_iff {a b : List UInt8} (ha : (0 : UInt8) ∉ a)
    (hb : (0 : UInt8) ∉ b) (x : List UInt8) : a ++ 0 :: x < b ++ [1] ↔ a < b ∨ a = b := by
  induction a generalizing b with
  | nil =>
    cases b with
    | nil => exact iff_of_true (List.cons_lt_cons_iff.2 (.inl (by decide))) (.inr rfl)
    | cons d b =>
      have hd := zero_lt_of_ne_zero fun h0 => hb (h0 ▸ List.mem_cons_self)
      exact iff_of_true (List.cons_lt_cons_iff.2 (.inl hd)) (.inl (List.nil_lt_cons d b))
  | cons c a ih =>
    have hc := zero_lt_of_ne_zero fun h0 => ha (h0 ▸ List.mem_cons_self)
    cases b with
    | nil =>
      refine iff_of_false ?_ (by simp [List.not_lt_nil])
      rw [List.cons_append, List.nil_append, List.cons_lt_cons_iff]
      rintro (hLt | ⟨-, hRest⟩)
      · rw [UInt8.lt_iff_toNat_lt, UInt8.toNat_one] at hLt
        rw [UInt8.lt_iff_toNat_lt, UInt8.toNat_zero] at hc
        omega
      · exact List.not_lt_nil _ hRest
    | cons d b =>
      rw [List.cons_append, List.cons_append, List.cons_lt_cons_iff, List.cons_lt_cons_iff,
        ih (fun h0 => ha (List.mem_cons_of_mem c h0)) (fun h0 => hb (List.mem_cons_of_mem d h0))]
      simp only [List.cons.injEq, and_or_left, or_assoc]

theorem ofBigEndian_cons (b : UInt8) (bytes : List UInt8) :
    ofBigEndian (b :: bytes) = b.toNat * 256 ^ bytes.length + ofBigEndian bytes := by
  simp only [ofBigEndian, List.reverse_cons, List.map_append, List.map_cons, List.map_nil,
    Nat.ofDigits_append, Nat.ofDigits_singleton, List.length_map, List.length_reverse]
  ring

theorem ofBigEndian_lt (bytes : List UInt8) : ofBigEndian bytes < 256 ^ bytes.length := by
  have hDigits : ∀ d ∈ bytes.reverse.map UInt8.toNat, d < 256 := by
    intro d hd
    obtain ⟨b, -, rfl⟩ := List.mem_map.1 hd
    exact b.toNat_lt
  simpa [ofBigEndian] using Nat.ofDigits_lt_base_pow_length (by decide) hDigits

@[simp] theorem ofBigEndian_replicate_zero_append (k : ℕ) (bytes : List UInt8) :
    ofBigEndian (List.replicate k 0 ++ bytes) = ofBigEndian bytes := by
  induction k with
  | zero => rfl
  | succ k ih => rw [List.replicate_succ, List.cons_append, ofBigEndian_cons_zero, ih]

theorem lead_lt_lead {x y : UInt8} {a b : List UInt8} (hLen : a.length = b.length)
    (hxy : x < y) : ofBigEndian (x :: a) < ofBigEndian (y :: b) := by
  rw [ofBigEndian_cons, ofBigEndian_cons, ← hLen]
  have hA := ofBigEndian_lt a
  have hLead : x.toNat + 1 ≤ y.toNat := UInt8.lt_iff_toNat_lt.1 hxy
  calc x.toNat * 256 ^ a.length + ofBigEndian a
      < (x.toNat + 1) * 256 ^ a.length := by rw [Nat.succ_mul]; omega
    _ ≤ y.toNat * 256 ^ a.length := Nat.mul_le_mul_right _ hLead
    _ ≤ y.toNat * 256 ^ a.length + ofBigEndian b := Nat.le_add_right _ _

theorem lt_iff_ofBigEndian_lt {a b : List UInt8} (hLen : a.length = b.length) :
    a < b ↔ ofBigEndian a < ofBigEndian b := by
  induction a generalizing b with
  | nil =>
    obtain rfl : b = [] := List.eq_nil_of_length_eq_zero hLen.symm
    exact iff_of_false (List.not_lt_nil _) (Nat.lt_irrefl _)
  | cons x a ih =>
    cases b with
    | nil => cases hLen
    | cons y b =>
      have hTail : a.length = b.length := Nat.succ.inj hLen
      rw [List.cons_lt_cons_iff]
      constructor
      · rintro (hxy | ⟨rfl, hab⟩)
        · exact lead_lt_lead hTail hxy
        · rw [ofBigEndian_cons, ofBigEndian_cons, hTail]
          exact Nat.add_lt_add_left ((ih hTail).1 hab) _
      · intro hLt
        by_cases hxy : x < y
        · exact .inl hxy
        · by_cases hyx : y < x
          · exact absurd hLt (Nat.lt_asymm (lead_lt_lead hTail.symm hyx))
          · obtain rfl := eq_of_not_lt_of_not_lt hxy hyx
            rw [ofBigEndian_cons, ofBigEndian_cons, hTail] at hLt
            exact .inr ⟨rfl, (ih hTail).2 (Nat.lt_of_add_lt_add_left hLt)⟩

theorem eq_of_ofBigEndian_eq {a b : List UInt8} (hLen : a.length = b.length)
    (h : ofBigEndian a = ofBigEndian b) : a = b := by
  induction a generalizing b with
  | nil => exact (List.eq_nil_of_length_eq_zero hLen.symm).symm
  | cons x a ih =>
    cases b with
    | nil => cases hLen
    | cons y b =>
      have hTail : a.length = b.length := Nat.succ.inj hLen
      have hxy : x = y := by
        refine eq_of_not_lt_of_not_lt (fun hLt => ?_) (fun hGt => ?_)
        · exact absurd h (Nat.ne_of_lt (lead_lt_lead hTail hLt))
        · exact absurd h (Nat.ne_of_gt (lead_lt_lead hTail.symm hGt))
      subst hxy
      rw [ofBigEndian_cons, ofBigEndian_cons, hTail] at h
      rw [ih hTail (Nat.add_left_cancel h)]

theorem length_bigEndian_le_of_le {m n : ℕ} (h : m ≤ n) :
    (bigEndian m).length ≤ (bigEndian n).length := by
  rw [length_bigEndian, length_bigEndian]
  exact Nat.le_length_digits_le 256 m n h

theorem head?_bigEndian_ne_zero (n : ℕ) : (bigEndian n).head? ≠ some 0 := by
  rw [bigEndian, List.head?_reverse, List.getLast?_map]
  by_cases hn : n = 0
  · simp [hn]
  · have hDigits : Nat.digits 256 n ≠ [] := Nat.digits_ne_nil_iff_ne_zero.2 hn
    have hLast : (Nat.digits 256 n).getLast hDigits ∈ Nat.digits 256 n := List.getLast_mem hDigits
    rw [List.getLast?_eq_some_getLast hDigits, Option.map_some, Ne, Option.some_inj,
      ← UInt8.toNat_inj, toNat_ofNat_digit hLast]
    exact Nat.getLast_digit_ne_zero 256 hn

theorem findIdx?_replicate_zero_append (k : ℕ) {bytes : List UInt8}
    (hHead : bytes.head? ≠ some 0) :
    (List.replicate k 0 ++ bytes).findIdx? (· != 0) = if bytes = [] then none else some k := by
  rw [List.findIdx?_append, List.findIdx?_replicate]
  cases bytes with
  | nil => simp
  | cons b bytes =>
    have hb : b ≠ 0 := fun hb => hHead (by rw [hb]; rfl)
    simp [List.findIdx?_cons, hb]

@[simp] theorem length_putUint64 (v : UInt64) : (putUint64 v).length = 8 := rfl

theorem ofBigEndian_putUint64 (v : UInt64) : ofBigEndian (putUint64 v) = v.toNat := by
  have hv := v.toNat_lt
  simp [putUint64, ofBigEndian, Nat.ofDigits, UInt64.toNat_shiftRight]
  omega

theorem uint64_putUint64 (v : UInt64) : uint64 (putUint64 v) = v := by
  rw [uint64, List.take_of_length_le (by simp), ofBigEndian_putUint64, UInt64.ofNat_toNat]

theorem putUint64_eq (v : UInt64) :
    putUint64 v = List.replicate (8 - (bigEndian v.toNat).length) 0 ++ bigEndian v.toNat := by
  have hLen : (bigEndian v.toNat).length ≤ 8 := (length_bigEndian_le_iff _ 8).2 v.toNat_lt
  apply eq_of_ofBigEndian_eq
  · simp only [length_putUint64, List.length_append, List.length_replicate]
    omega
  · rw [ofBigEndian_putUint64, ofBigEndian_replicate_zero_append, ofBigEndian_bigEndian]

theorem uint64_replicate_zero_append (n : ℕ) (hn : n < 2 ^ 64) :
    uint64 (List.replicate (8 - (bigEndian n).length) 0 ++ bigEndian n) = UInt64.ofNat n := by
  have hLen : (bigEndian n).length ≤ 8 := (length_bigEndian_le_iff _ 8).2 hn
  have hTake : (List.replicate (8 - (bigEndian n).length) 0 ++ bigEndian n).take 8 =
      List.replicate (8 - (bigEndian n).length) 0 ++ bigEndian n := by
    apply List.take_of_length_le
    simp only [List.length_append, List.length_replicate]
    omega
  rw [uint64, hTake, ofBigEndian_replicate_zero_append, ofBigEndian_bigEndian]

/-! ## Complements

`0xff - b` turns the order of bytes round, and so the order of byte strings of one length:
`MaxUint64 - v` is written as the complements of the bytes of `v`. -/

theorem toNat_complement (b : UInt8) : (0xff - b).toNat = 255 - b.toNat := by
  have hb := b.toNat_lt
  rw [UInt8.toNat_sub_of_le _ _ (UInt8.le_iff_toNat_le.2 (by simp only [UInt8.reduceToNat]; omega))]
  rfl

theorem ofBigEndian_map_complement (l : List UInt8) :
    ofBigEndian (l.map (0xff - ·)) + ofBigEndian l = 256 ^ l.length - 1 := by
  induction l with
  | nil => rfl
  | cons b l ih =>
    have hb := b.toNat_lt
    have hPos : 0 < 256 ^ l.length := Nat.pos_of_ne_zero (by positivity)
    rw [List.map_cons, ofBigEndian_cons, ofBigEndian_cons, List.length_map, toNat_complement,
      List.length_cons, pow_succ]
    have hLead : (255 - b.toNat) * 256 ^ l.length + b.toNat * 256 ^ l.length =
        255 * 256 ^ l.length := by
      rw [← Nat.add_mul, Nat.sub_add_cancel (by omega)]
    omega

theorem map_complement_lt_iff {a b : List UInt8} (hLen : a.length = b.length) :
    a.map (0xff - ·) < b.map (0xff - ·) ↔ b < a := by
  rw [lt_iff_ofBigEndian_lt (by simpa using hLen), lt_iff_ofBigEndian_lt hLen.symm]
  have ha := ofBigEndian_map_complement a
  have hb := ofBigEndian_map_complement b
  rw [hLen] at ha
  omega

theorem putUint64_complement (v : UInt64) :
    putUint64 (18446744073709551615 - v) = (putUint64 v).map (0xff - ·) := by
  have hv := v.toNat_lt
  apply eq_of_ofBigEndian_eq (by simp)
  have hSum := ofBigEndian_map_complement (putUint64 v)
  rw [length_putUint64, ofBigEndian_putUint64] at hSum
  rw [ofBigEndian_putUint64, UInt64.toNat_sub_of_le _ _
    (UInt64.le_iff_toNat_le.2 (by simp only [UInt64.reduceToNat]; omega))]
  simp only [UInt64.reduceToNat]
  omega

/-! ## Splitting at a separator byte -/

def splitN (s : List UInt8) (sep : UInt8) : ℕ → List (List UInt8)
  | 0 => []
  | 1 => [s]
  | n + 2 =>
    if s.contains sep then
      s.takeWhile (· != sep) :: splitN ((s.dropWhile (· != sep)).drop 1) sep (n + 1)
    else [s]

theorem splitN_append_sep {pre : List UInt8} {sep : UInt8} (hPre : sep ∉ pre) (r : List UInt8)
    (n : ℕ) :
    splitN (pre ++ sep :: r) sep (n + 2) = pre :: splitN r sep (n + 1) := by
  have hNe : ∀ b ∈ pre, (b != sep) = true := fun b hb => by
    simpa using fun h : b = sep => hPre (h ▸ hb)
  have hTake : (pre ++ sep :: r).takeWhile (· != sep) = pre := by
    rw [List.takeWhile_append_of_pos hNe, List.takeWhile_cons_of_neg (by simp), List.append_nil]
  have hDrop : (pre ++ sep :: r).dropWhile (· != sep) = sep :: r := by
    rw [List.dropWhile_append_of_pos hNe, List.dropWhile_cons_of_neg (by simp)]
  rw [splitN, if_pos (List.contains_iff_mem.2 (List.mem_append_right _ List.mem_cons_self)), hTake,
    hDrop, List.drop_one, List.tail_cons]

theorem splitOn_append_sep {a b : List UInt8} {sep : UInt8} (ha : sep ∉ a) (hb : sep ∉ b) :
    (a ++ sep :: b).splitOn sep = [a, b] := by
  have h := @List.splitOn_intercalate _ [a, b] _ _ sep (by simpa using ⟨ha, hb⟩) (by simp)
  simpa using h

end ByteOrder
