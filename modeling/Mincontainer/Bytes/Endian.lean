import Mathlib.Algebra.Order.Ring.Nat
import Mathlib.Tactic.Ring

set_option relaxedAutoImplicit false
set_option autoImplicit false

/-!
# Fixed-width integers as bytes

Little-endian and big-endian encodings of a natural number in a fixed number of bytes, and
their decodings. Encoding truncates to the width, as a narrowing cast does.

## Main results

* `Bytes.ofLE_toLE`, `Bytes.ofBE_toBE` — decoding an encoding gives the number modulo `256 ^ k`.
* `Bytes.toLE_ofLE`, `Bytes.toBE_ofBE` — encoding a decoding gives the bytes back.
-/

namespace Bytes

/-- The `k` low bytes of `n`, least significant first. -/
def toLE : ℕ → ℕ → List UInt8
  | 0, _ => []
  | k + 1, n => UInt8.ofNat n :: toLE k (n / 256)

/-- The number whose bytes, least significant first, are given. -/
def ofLE : List UInt8 → ℕ
  | [] => 0
  | b :: bs => b.toNat + 256 * ofLE bs

/-- The `k` low bytes of `n`, most significant first. -/
def toBE (k n : ℕ) : List UInt8 := (toLE k n).reverse

/-- The number whose bytes, most significant first, are given. -/
def ofBE (bs : List UInt8) : ℕ := ofLE bs.reverse

@[simp] lemma length_toLE (k n : ℕ) : (toLE k n).length = k := by
  induction k generalizing n with
  | zero => rfl
  | succ k ih => simp [toLE, ih]

@[simp] lemma length_toBE (k n : ℕ) : (toBE k n).length = k := by simp [toBE]

/-- Decoding an encoding gives the number truncated to the width.

**Proof sketch.** Induction on the width: the low byte is `n % 256` and the others encode
`n / 256`. -/
lemma ofLE_toLE (k n : ℕ) : ofLE (toLE k n) = n % 256 ^ k := by
  induction k generalizing n with
  | zero => simp [toLE, ofLE, Nat.mod_one]
  | succ k ih =>
    have hlow : (UInt8.ofNat n).toNat = n % 256 := rfl
    rw [toLE, ofLE, ih, hlow, pow_succ, Nat.mul_comm (256 ^ k) 256, Nat.mod_mul]

lemma ofBE_toBE (k n : ℕ) : ofBE (toBE k n) = n % 256 ^ k := by
  simp [ofBE, toBE, ofLE_toLE]

/-- A decoded number fits the width of its bytes. -/
lemma ofLE_lt (bs : List UInt8) : ofLE bs < 256 ^ bs.length := by
  induction bs with
  | nil => simp [ofLE]
  | cons b bs ih =>
    have hb : b.toNat < 256 := b.toNat_lt
    rw [ofLE, List.length_cons, pow_succ]
    omega

/-- Encoding a decoding gives the bytes back. -/
lemma toLE_ofLE (bs : List UInt8) : toLE bs.length (ofLE bs) = bs := by
  induction bs with
  | nil => rfl
  | cons b bs ih =>
    have hb : b.toNat < 256 := b.toNat_lt
    have hdiv : (b.toNat + 256 * ofLE bs) / 256 = ofLE bs := by omega
    have hlow : UInt8.ofNat (b.toNat + 256 * ofLE bs) = b := by
      apply UInt8.toNat_inj.mp
      rw [UInt8.toNat_ofNat']
      omega
    rw [List.length_cons, ofLE, toLE, hdiv, ih, hlow]

lemma toBE_ofBE (bs : List UInt8) : toBE bs.length (ofBE bs) = bs := by
  have := toLE_ofLE bs.reverse
  rw [List.length_reverse] at this
  rw [toBE, ofBE, this, List.reverse_reverse]

/-- Numbers that fit the width are recovered exactly. -/
lemma ofLE_toLE_of_lt {k n : ℕ} (h : n < 256 ^ k) : ofLE (toLE k n) = n := by
  rw [ofLE_toLE, Nat.mod_eq_of_lt h]

lemma ofBE_toBE_of_lt {k n : ℕ} (h : n < 256 ^ k) : ofBE (toBE k n) = n := by
  rw [ofBE_toBE, Nat.mod_eq_of_lt h]

end Bytes
