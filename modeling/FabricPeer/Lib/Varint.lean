import Mathlib.Data.List.Basic
import Mathlib.Algebra.GroupWithZero.Nat

/-! # Base-128 varints

The unsigned varint of protocol buffers: seven bits of the value per byte, least significant
group first, with the high bit set on every byte but the last. `encode` writes the shortest
form; `decode` reads one varint from the front of a byte string and returns it with the number
of bytes it took, or nothing when the bytes end inside the varint. Nothing in this module
refers to a particular program.
-/

namespace Varint

set_option autoImplicit false

def encodeGroups : Nat → Nat → List UInt8
  | 0, v => [UInt8.ofNat v]
  | fuel + 1, v =>
    if v < 128 then [UInt8.ofNat v] else UInt8.ofNat (v % 128 + 128) :: encodeGroups fuel (v / 128)

def encode (v : Nat) : List UInt8 := encodeGroups v v

def decode : List UInt8 → Option (Nat × Nat)
  | [] => none
  | b :: rest =>
    if b.toNat < 128 then some (b.toNat, 1)
    else (decode rest).map fun (v, n) => (b.toNat - 128 + 128 * v, n + 1)

theorem encodeGroups_eq (fuel fuel' v : Nat) (hFuel : v ≤ fuel) (hFuel' : v ≤ fuel') :
    encodeGroups fuel v = encodeGroups fuel' v := by
  induction fuel generalizing fuel' v with
  | zero =>
    obtain rfl : v = 0 := by omega
    cases fuel' <;> simp [encodeGroups]
  | succ fuel ih =>
    cases fuel' with
    | zero =>
      obtain rfl : v = 0 := by omega
      simp [encodeGroups]
    | succ fuel' =>
      simp only [encodeGroups]
      split
      · rfl
      · rw [ih fuel' (v / 128) (by omega) (by omega)]

theorem encode_of_lt {v : Nat} (hv : v < 128) : encode v = [UInt8.ofNat v] := by
  cases v with
  | zero => rfl
  | succ v => rw [encode, encodeGroups, if_pos hv]

theorem encode_of_le {v : Nat} (hv : 128 ≤ v) :
    encode v = UInt8.ofNat (v % 128 + 128) :: encode (v / 128) := by
  obtain ⟨fuel, rfl⟩ : ∃ fuel, v = fuel + 1 := ⟨v - 1, by omega⟩
  rw [encode, encodeGroups, if_neg (by omega), encode,
    encodeGroups_eq fuel ((fuel + 1) / 128) _ (by omega) (Nat.le_refl _)]

theorem encode_ne_nil (v : Nat) : encode v ≠ [] := by
  by_cases hv : v < 128
  · simp [encode_of_lt hv]
  · simp [encode_of_le (by omega : 128 ≤ v)]

theorem one_le_length_encode (v : Nat) : 1 ≤ (encode v).length :=
  List.length_pos_iff.mpr (encode_ne_nil v)

theorem length_encode_le {v k : Nat} (hk : 1 ≤ k) (hv : v < 128 ^ k) : (encode v).length ≤ k := by
  induction k generalizing v with
  | zero => omega
  | succ k ih =>
    by_cases hSmall : v < 128
    · rw [encode_of_lt hSmall, List.length_singleton]
      omega
    · have hk' : 1 ≤ k := by
        rcases Nat.eq_zero_or_pos k with rfl | hPos
        · simp at hv
          omega
        · exact hPos
      have hQuotient : v / 128 < 128 ^ k := by
        rw [Nat.div_lt_iff_lt_mul (by decide)]
        rwa [Nat.pow_succ] at hv
      rw [encode_of_le (by omega), List.length_cons]
      have := ih hk' hQuotient
      omega

@[simp] theorem decode_nil : decode [] = none := rfl

theorem toNat_ofNat_of_lt {n : Nat} (hn : n < 256) : (UInt8.ofNat n).toNat = n := by
  rw [UInt8.toNat_ofNat']
  exact Nat.mod_eq_of_lt hn

theorem decode_encode_append (v : Nat) (rest : List UInt8) :
    decode (encode v ++ rest) = some (v, (encode v).length) := by
  induction v using Nat.strongRecOn with
  | ind v ih =>
    by_cases hv : v < 128
    · rw [encode_of_lt hv]
      simp [decode, toNat_ofNat_of_lt (show v < 256 by omega), hv]
    · have hByte : (UInt8.ofNat (v % 128 + 128)).toNat = v % 128 + 128 :=
        toNat_ofNat_of_lt (by omega)
      have hTail := ih (v / 128) (Nat.div_lt_self (by omega) (by decide))
      rw [encode_of_le (by omega), List.cons_append, decode, hByte, if_neg (by omega), hTail]
      simp only [Option.map_some, List.length_cons, Option.some.injEq, Prod.mk.injEq, and_true]
      omega

theorem decode_encode (v : Nat) : decode (encode v) = some (v, (encode v).length) := by
  simpa using decode_encode_append v []

theorem decode_append_of_decode {bs : List UInt8} {v n : Nat} (h : decode bs = some (v, n))
    (rest : List UInt8) : decode (bs ++ rest) = some (v, n) := by
  induction bs generalizing v n with
  | nil => simp at h
  | cons b bs ih =>
    rw [decode] at h
    rw [List.cons_append, decode]
    split
    · simpa [*] using h
    · rename_i hb
      simp only [hb, if_false, Option.map_eq_some_iff, Prod.exists] at h
      obtain ⟨v', n', hTail, hEq⟩ := h
      rw [ih hTail]
      simpa using hEq

theorem decode_length {bs : List UInt8} {v n : Nat} (h : decode bs = some (v, n)) :
    1 ≤ n ∧ n ≤ bs.length := by
  induction bs generalizing v n with
  | nil => simp at h
  | cons b bs ih =>
    rw [decode] at h
    split at h
    · simp only [Option.some.injEq, Prod.mk.injEq] at h
      simp [← h.2]
    · simp only [Option.map_eq_some_iff, Prod.exists] at h
      obtain ⟨v', n', hTail, hEq⟩ := h
      have := ih hTail
      simp only [Prod.mk.injEq] at hEq
      simp only [List.length_cons]
      omega

theorem decode_eq_none_of_prefix {bs : List UInt8} {v : Nat} (hPrefix : bs <+: encode v)
    (hShort : bs.length < (encode v).length) : decode bs = none := by
  obtain ⟨rest, hRest⟩ := hPrefix
  cases hDecode : decode bs with
  | none => rfl
  | some read =>
    obtain ⟨w, n⟩ := read
    have hWhole := decode_append_of_decode hDecode rest
    rw [hRest, decode_encode] at hWhole
    have hLen := decode_length hDecode
    simp only [Option.some.injEq, Prod.mk.injEq] at hWhole
    omega

end Varint
