import Mathlib.Data.List.Induction
import Mathlib.Data.Nat.Bitwise

set_option autoImplicit false

namespace BigEndian

/-- The last `k` bytes of a number, the most significant one first. -/
def bytes : ℕ → ℕ → List UInt8
  | 0, _ => []
  | k + 1, n => bytes k (n / 256) ++ [.ofNat n]

def value (bs : List UInt8) : ℕ := bs.foldl (fun n b => n * 256 + b.toNat) 0

@[simp] theorem bytes_length (k n : ℕ) : (bytes k n).length = k := by
  induction k generalizing n with
  | zero => rfl
  | succ k ih => rw [bytes, List.length_append, ih, List.length_singleton]

theorem value_concat (bs : List UInt8) (b : UInt8) :
    value (bs ++ [b]) = value bs * 256 + b.toNat := by
  rw [value, List.foldl_append]
  rfl

theorem value_bytes (k n : ℕ) : value (bytes k n) = n % 256 ^ k := by
  induction k generalizing n with
  | zero =>
      rw [Nat.pow_zero, Nat.mod_one]
      rfl
  | succ k ih =>
      have split : n % 256 ^ (k + 1) = n % 256 + 256 * (n / 256 % 256 ^ k) := by
        rw [Nat.pow_succ', Nat.mod_mul]
      rw [bytes, value_concat, ih, UInt8.toNat_ofNat', split]
      omega

theorem bytes_value (bs : List UInt8) : bytes bs.length (value bs) = bs := by
  induction bs using List.reverseRecOn with
  | nil => rfl
  | append_singleton bs b ih =>
      have small := b.toNat_lt
      have high : (value bs * 256 + b.toNat) / 256 = value bs := by omega
      have low : UInt8.ofNat (value bs * 256 + b.toNat) = b := by
        apply UInt8.toNat.inj
        rw [UInt8.toNat_ofNat']
        omega
      rw [List.length_append, List.length_singleton, value_concat, bytes, high, low, ih]

/-- Where the bits do not meet, "or" adds. -/
theorem or_eq_add {a b k : ℕ} (divides : 2 ^ k ∣ a) (small : b < 2 ^ k) : a ||| b = a + b := by
  obtain ⟨c, rfl⟩ := divides
  rw [Nat.mul_comm, ← Nat.shiftLeft_eq, Nat.shiftLeft_add_eq_or_of_lt small]

end BigEndian
