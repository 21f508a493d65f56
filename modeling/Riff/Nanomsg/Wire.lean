import Riff.Lib.BigEndian

set_option autoImplicit false

namespace Riff.Nanomsg

def puts (val : UInt16) : List UInt8 :=
  [(val >>> 8 &&& 0xff).toUInt8, (val &&& 0xff).toUInt8]

def gets (buf : List UInt8) : UInt16 :=
  (buf.getD 0 0).toUInt16 <<< 8 ||| (buf.getD 1 0).toUInt16

def putll (val : UInt64) : List UInt8 :=
  [(val >>> 56 &&& 0xff).toUInt8, (val >>> 48 &&& 0xff).toUInt8, (val >>> 40 &&& 0xff).toUInt8,
    (val >>> 32 &&& 0xff).toUInt8, (val >>> 24 &&& 0xff).toUInt8, (val >>> 16 &&& 0xff).toUInt8,
    (val >>> 8 &&& 0xff).toUInt8, (val &&& 0xff).toUInt8]

def getll (buf : List UInt8) : UInt64 :=
  (buf.getD 0 0).toUInt64 <<< 56 ||| (buf.getD 1 0).toUInt64 <<< 48 |||
    (buf.getD 2 0).toUInt64 <<< 40 ||| (buf.getD 3 0).toUInt64 <<< 32 |||
    (buf.getD 4 0).toUInt64 <<< 24 ||| (buf.getD 5 0).toUInt64 <<< 16 |||
    (buf.getD 6 0).toUInt64 <<< 8 ||| (buf.getD 7 0).toUInt64 <<< 0

@[simp] theorem putll_length (val : UInt64) : (putll val).length = 8 := rfl

theorem byte_eq (val k : UInt64) (inside : k < 64) :
    (val >>> k &&& 0xff).toUInt8 = .ofNat (val.toNat / 2 ^ k.toNat) := by
  have shift : k.toNat < 64 := inside
  have mask (n : ℕ) : n &&& 255 = n % 256 := Nat.and_two_pow_sub_one_eq_mod n 8
  apply UInt8.toNat.inj
  simp [Nat.shiftRight_eq_div_pow, Nat.mod_eq_of_lt shift, mask]

theorem putll_eq_bytes (val : UInt64) : putll val = BigEndian.bytes 8 val.toNat := by
  have last : (val &&& 0xff).toUInt8 = .ofNat val.toNat := by
    simpa using byte_eq val 0 (by decide)
  rw [putll, byte_eq _ 56 (by decide), byte_eq _ 48 (by decide), byte_eq _ 40 (by decide),
    byte_eq _ 32 (by decide), byte_eq _ 24 (by decide), byte_eq _ 16 (by decide),
    byte_eq _ 8 (by decide), last]
  simp only [BigEndian.bytes, List.nil_append, List.cons_append, Nat.div_div_eq_div_mul]
  rfl

theorem field_eq (b : UInt8) (k : UInt64) (inside : k ≤ 56) :
    (b.toUInt64 <<< k).toNat = b.toNat * 2 ^ k.toNat := by
  have shift : k.toNat ≤ 56 := inside
  have fits : b.toNat * 2 ^ k.toNat < 2 ^ 64 := by
    calc b.toNat * 2 ^ k.toNat < 2 ^ 8 * 2 ^ k.toNat :=
          Nat.mul_lt_mul_of_pos_right b.toNat_lt (Nat.two_pow_pos _)
      _ = 2 ^ (8 + k.toNat) := (Nat.pow_add 2 8 _).symm
      _ ≤ 2 ^ 64 := Nat.pow_le_pow_right (by decide) (by omega)
  have same : k.toNat % 64 = k.toNat := Nat.mod_eq_of_lt (by omega)
  rw [UInt64.toNat_shiftLeft, same, Nat.shiftLeft_eq, UInt8.toNat_toUInt64,
    Nat.mod_eq_of_lt fits]

theorem getll_eq_value (buf : List UInt8) (length : buf.length = 8) :
    (getll buf).toNat = BigEndian.value buf := by
  match buf, length with
  | [b0, b1, b2, b3, b4, b5, b6, b7], _ =>
      have h0 := b0.toNat_lt
      have h1 := b1.toNat_lt
      have h2 := b2.toNat_lt
      have h3 := b3.toNat_lt
      have h4 := b4.toNat_lt
      have h5 := b5.toNat_lt
      have h6 := b6.toNat_lt
      have h7 := b7.toNat_lt
      simp only [getll, List.getD_cons_zero, List.getD_cons_succ, UInt64.toNat_or]
      rw [field_eq _ 56 (by decide), field_eq _ 48 (by decide), field_eq _ 40 (by decide),
        field_eq _ 32 (by decide), field_eq _ 24 (by decide), field_eq _ 16 (by decide),
        field_eq _ 8 (by decide), field_eq _ 0 (by decide)]
      simp only [UInt64.reduceToNat]
      -- Innermost first: each field lies below all that stand before it.
      rw [@BigEndian.or_eq_add _ (b1.toNat * 2 ^ 48) 56 (by omega) (by omega),
        @BigEndian.or_eq_add _ (b2.toNat * 2 ^ 40) 48 (by omega) (by omega),
        @BigEndian.or_eq_add _ (b3.toNat * 2 ^ 32) 40 (by omega) (by omega),
        @BigEndian.or_eq_add _ (b4.toNat * 2 ^ 24) 32 (by omega) (by omega),
        @BigEndian.or_eq_add _ (b5.toNat * 2 ^ 16) 24 (by omega) (by omega),
        @BigEndian.or_eq_add _ (b6.toNat * 2 ^ 8) 16 (by omega) (by omega),
        @BigEndian.or_eq_add _ (b7.toNat * 2 ^ 0) 8 (by omega) (by omega)]
      simp only [BigEndian.value, List.foldl]
      omega

theorem getll_putll (val : UInt64) : getll (putll val) = val := by
  apply UInt64.toNat.inj
  rw [getll_eq_value _ (putll_length val), putll_eq_bytes, BigEndian.value_bytes]
  exact Nat.mod_eq_of_lt val.toNat_lt

theorem putll_getll (buf : List UInt8) (length : buf.length = 8) : putll (getll buf) = buf := by
  rw [putll_eq_bytes, getll_eq_value buf length, ← length]
  exact BigEndian.bytes_value buf

end Riff.Nanomsg
