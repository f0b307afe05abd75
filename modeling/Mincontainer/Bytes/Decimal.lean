import Mathlib.Algebra.Order.Ring.Nat
import Mathlib.Tactic.Ring

set_option relaxedAutoImplicit false
set_option autoImplicit false

/-!
# Decimal numbers of one width

Numbers that are padded with zeros to one width are ordered as texts the way they are ordered as
numbers, and so are texts that are put together from such fields, from the first field on.

## Main definitions

* `Bytes.decimal` — the `k` low digits of a number.
* `Bytes.padded` — a number, padded with zeros on the left to a width of at least `k`.

## Main results

* `Bytes.padded_eq_decimal` — a number that fits is printed in exactly `k` digits.
* `Bytes.decimal_lt` — the order of the texts is the order of the numbers.
* `Bytes.append_lt_append` — a difference in a field decides, whatever follows.
-/

namespace Bytes

/-- The `k` low digits of a number. -/
def decimal : ℕ → ℕ → List Char
  | 0, _ => []
  | k + 1, n => decimal k (n / 10) ++ [Nat.digitChar (n % 10)]

/-- A number, padded with zeros on the left to a width of at least `k`. -/
def padded (k n : ℕ) : List Char := (Nat.toDigits 10 n).leftpad k '0'

@[simp] lemma length_decimal (k n : ℕ) : (decimal k n).length = k := by
  induction k generalizing n with
  | zero => rfl
  | succ k ih => simp [decimal, ih]

@[simp] lemma decimal_zero (k : ℕ) : decimal k 0 = List.replicate k '0' := by
  induction k with
  | zero => rfl
  | succ k ih =>
    rw [decimal, Nat.zero_div, ih, List.replicate_succ']
    rfl

/-- A number that fits is printed in exactly `k` digits.

**Proof sketch.** Induction on the width. A number of more than one digit is printed as its last
digit behind the others; one of a single digit is padded to the left. -/
lemma padded_eq_decimal {k n : ℕ} (hk : 0 < k) (hn : n < 10 ^ k) : padded k n = decimal k n := by
  induction k generalizing n with
  | zero => cases hk
  | succ k ih =>
    unfold decimal padded
    by_cases hsmall : n < 10
    · rw [Nat.toDigits_of_lt_base hsmall, Nat.div_eq_of_lt hsmall, Nat.mod_eq_of_lt hsmall,
        decimal_zero]
      rfl
    · have hwidth : 0 < k := by
        rcases Nat.eq_zero_or_pos k with rfl | hpos
        · omega
        · exact hpos
      have hlt : n / 10 < 10 ^ k := by
        rw [pow_succ] at hn
        omega
      rw [Nat.toDigits_of_base_le (by omega) (by omega), ← ih hwidth hlt, padded]
      unfold List.leftpad
      rw [List.length_append, List.length_singleton, Nat.add_sub_add_right, List.append_assoc]

/-- A difference in a field decides, whatever follows. -/
lemma append_lt_append {a a' : List Char} (b b' : List Char) (hlen : a.length = a'.length)
    (h : a < a') : a ++ b < a' ++ b' := by
  induction a generalizing a' with
  | nil =>
    obtain rfl := List.length_eq_zero_iff.mp hlen.symm
    cases h
  | cons c a ih =>
    cases a' with
    | nil => cases hlen
    | cons c' a' =>
      rw [List.length_cons, List.length_cons, Nat.add_right_cancel_iff] at hlen
      rw [List.cons_append, List.cons_append, List.cons_lt_cons_iff]
      rcases List.cons_lt_cons_iff.mp h with hc | ⟨rfl, hrest⟩
      · exact .inl hc
      · exact .inr ⟨rfl, ih hlen hrest⟩

/-- **Order.** Numbers of one width are ordered as texts the way they are ordered as numbers.

**Proof sketch.** Induction on the width: the leading digits decide, or they are the same and the
last one does. -/
lemma decimal_lt {k n n' : ℕ} (hn' : n' < 10 ^ k) (h : n < n') : decimal k n < decimal k n' := by
  have hdigit : ∀ d' < 10, ∀ d < d', Nat.digitChar d < Nat.digitChar d' := by decide
  induction k generalizing n n' with
  | zero => omega
  | succ k ih =>
    unfold decimal
    by_cases hlead : n / 10 < n' / 10
    · refine append_lt_append _ _ (by simp) (ih ?_ hlead)
      rw [pow_succ] at hn'
      omega
    · have hsame : n / 10 = n' / 10 := by omega
      have hlast : n % 10 < n' % 10 := by omega
      rw [hsame]
      exact List.append_left_lt (List.cons_lt_cons_iff.mpr
        (.inl (hdigit _ (Nat.mod_lt n' (by omega)) _ hlast)))

end Bytes
