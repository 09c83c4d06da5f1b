import Mathlib.Data.Nat.Digits.Lemmas

/-! # DER encoding of non-negative integers and octet strings

The distinguished encoding rules of X.690 as Go's `encoding/asn1.Marshal` writes them for a
structure of non-negative `*big.Int` and `[]byte` fields: each value is a tag byte, the length of
its contents, and the contents. A length below `128` is one byte; a longer one is `0x80` plus the
count of its big-endian bytes, followed by those bytes (`lengthLength`, `appendLength`). A
non-negative integer is its minimal big-endian bytes, with a zero byte in front when the first
byte has its top bit set, and zero is the single byte `0` (`makeBigInt`).

The decoder here is the means to show that the encoding loses nothing: `readTlv_tlv` reads a
value back from any stream that starts with it, and `ofBigEndian_integerContent` reads an
integer back from its contents, so that a structure of such fields is read back whole.
-/

namespace Asn1

set_option autoImplicit false

def bigEndian (n : ℕ) : List UInt8 := ((Nat.digits 256 n).map UInt8.ofNat).reverse

def ofBigEndian (bytes : List UInt8) : ℕ := Nat.ofDigits 256 (bytes.reverse.map UInt8.toNat)

def encodeLength (n : ℕ) : List UInt8 :=
  if n < 128 then [UInt8.ofNat n]
  else (0x80 ||| UInt8.ofNat (bigEndian n).length) :: bigEndian n

def tlv (tag : UInt8) (contents : List UInt8) : List UInt8 :=
  tag :: (encodeLength contents.length ++ contents)

def integerContent (n : ℕ) : List UInt8 :=
  if n = 0 then [0]
  else
    let bytes := bigEndian n
    if bytes.head?.any (fun b => b &&& 0x80 != 0) then 0 :: bytes else bytes

def readLength : List UInt8 → Option (ℕ × List UInt8)
  | [] => none
  | b :: rest =>
    if b < 0x80 then some (b.toNat, rest)
    else
      let count := b.toNat - 0x80
      if count ≤ rest.length then some (ofBigEndian (rest.take count), rest.drop count) else none

def readTlv (tag : UInt8) : List UInt8 → Option (List UInt8 × List UInt8)
  | [] => none
  | t :: rest =>
    if t = tag then
      match readLength rest with
      | some (n, rest') => if n ≤ rest'.length then some (rest'.take n, rest'.drop n) else none
      | none => none
    else none

def readTlvs (tag : UInt8) : ℕ → List UInt8 → Option (List (List UInt8))
  | _, [] => some []
  | 0, _ :: _ => none
  | fuel + 1, bytes@(_ :: _) => do
    let (contents, rest) ← readTlv tag bytes
    let values ← readTlvs tag fuel rest
    pure (contents :: values)

theorem toNat_ofNat_digit {n d : ℕ} (hd : d ∈ Nat.digits 256 n) : (UInt8.ofNat d).toNat = d := by
  have hLt : d < 256 := Nat.digits_lt_base (by decide) hd
  rw [UInt8.toNat_ofNat', Nat.mod_eq_of_lt hLt]

@[simp] theorem ofBigEndian_bigEndian (n : ℕ) : ofBigEndian (bigEndian n) = n := by
  have hDigits : ((Nat.digits 256 n).map UInt8.ofNat).map UInt8.toNat = Nat.digits 256 n := by
    rw [List.map_map]
    conv => rhs; rw [← List.map_id (Nat.digits 256 n)]
    exact List.map_congr_left fun d hd => toNat_ofNat_digit hd
  rw [ofBigEndian, bigEndian, List.reverse_reverse, hDigits, Nat.ofDigits_digits]

@[simp] theorem ofBigEndian_cons_zero (bytes : List UInt8) :
    ofBigEndian (0 :: bytes) = ofBigEndian bytes := by
  simp only [ofBigEndian, List.reverse_cons, List.map_append, List.map_cons, List.map_nil,
    UInt8.toNat_zero, Nat.ofDigits_append_zero]

theorem length_bigEndian (n : ℕ) : (bigEndian n).length = (Nat.digits 256 n).length := by
  simp [bigEndian]

theorem length_bigEndian_le_iff (n k : ℕ) : (bigEndian n).length ≤ k ↔ n < 256 ^ k := by
  rw [length_bigEndian]
  exact Nat.digits_length_le_iff (by decide) n

theorem length_bigEndian_le_self (n : ℕ) : (bigEndian n).length ≤ n :=
  (length_bigEndian_le_iff n n).2 (Nat.lt_pow_self (by decide))

@[simp] theorem ofBigEndian_integerContent (n : ℕ) : ofBigEndian (integerContent n) = n := by
  unfold integerContent
  split
  case isTrue hZero =>
    subst hZero
    rfl
  case isFalse =>
    dsimp only
    split
    · rw [ofBigEndian_cons_zero, ofBigEndian_bigEndian]
    · rw [ofBigEndian_bigEndian]

theorem length_integerContent_le (n : ℕ) : (integerContent n).length ≤ (bigEndian n).length + 1 := by
  unfold integerContent
  split
  · simp
  · dsimp only
    split <;> simp

theorem toNat_longFormByte (count : ℕ) (hCount : count < 128) :
    (0x80 ||| UInt8.ofNat count).toNat = 0x80 + count := by
  have hAll : ∀ c : Fin 128, (0x80 ||| UInt8.ofNat c.val).toNat = 0x80 + c.val := by decide
  exact hAll ⟨count, hCount⟩

theorem readLength_encodeLength (n : ℕ) (hn : n < 256 ^ 127) (rest : List UInt8) :
    readLength (encodeLength n ++ rest) = some (n, rest) := by
  unfold encodeLength
  split
  case isTrue hShort =>
    have hToNat : (UInt8.ofNat n).toNat = n := by
      rw [UInt8.toNat_ofNat', Nat.mod_eq_of_lt (by omega)]
    have hLt : UInt8.ofNat n < 0x80 := by
      rw [UInt8.lt_iff_toNat_lt, hToNat]
      exact hShort
    simp only [List.cons_append, List.nil_append, readLength, if_pos hLt, hToNat]
  case isFalse hLong =>
    have hCount : (bigEndian n).length < 128 := by
      have := (length_bigEndian_le_iff n 127).2 hn
      omega
    have hByte := toNat_longFormByte _ hCount
    have hNotLt : ¬ (0x80 ||| UInt8.ofNat (bigEndian n).length) < 0x80 := by
      rw [UInt8.lt_iff_toNat_lt, hByte]
      simp
    have hTake : (bigEndian n ++ rest).take (bigEndian n).length = bigEndian n :=
      List.take_left' rfl
    have hDrop : (bigEndian n ++ rest).drop (bigEndian n).length = rest :=
      List.drop_left' rfl
    simp only [List.cons_append, readLength, if_neg hNotLt, hByte, Nat.add_sub_cancel_left,
      List.length_append, Nat.le_add_right, ↓reduceIte, hTake, hDrop, ofBigEndian_bigEndian]

theorem readTlv_tlv (tag : UInt8) (contents rest : List UInt8)
    (hLength : contents.length < 256 ^ 127) :
    readTlv tag (tlv tag contents ++ rest) = some (contents, rest) := by
  have hRead := readLength_encodeLength contents.length hLength (contents ++ rest)
  simp only [tlv, List.cons_append, List.append_assoc, readTlv, ↓reduceIte, hRead,
    List.length_append, Nat.le_add_right, List.take_left' rfl, List.drop_left' rfl]

theorem length_encodeLength_le (n : ℕ) : (encodeLength n).length ≤ n + 1 := by
  unfold encodeLength
  split
  · simp
  · simp only [List.length_cons]
    have := length_bigEndian_le_self n
    omega

theorem length_tlv_le (tag : UInt8) (contents : List UInt8) :
    (tlv tag contents).length ≤ 2 * contents.length + 2 := by
  have := length_encodeLength_le contents.length
  simp only [tlv, List.length_cons, List.length_append]
  omega

end Asn1
