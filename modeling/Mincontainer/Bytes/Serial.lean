import Mathlib.Logic.Function.Iterate
import Mathlib.Tactic.Lemma

set_option relaxedAutoImplicit false
set_option autoImplicit false

/-!
# Division one bit at a time

A reflected shift register divides a stream of bits by a polynomial: each bit taken is combined
with the bit that falls out of the register, and where the two differ the polynomial is added to
what is left. The width of the register and the polynomial are parameters.

## Main definitions

* `Bytes.feed` — take one bit.
* `Bytes.shift` — take a zero.
* `Bytes.weight` — the register that holds a string of bits, the first lowest.
* `Bytes.lowFirst` — the bits of a word, the lowest first.

## Main results

* `Bytes.shift_xor`, `Bytes.iterate_shift_xor` — the division is linear.
* `Bytes.foldl_feed` — bits taken one by one may as well be added to the register beforehand.
* `Bytes.iterate_shift_eq` — what `k` bits of division add depends on the `k` low bits only.
-/

namespace Bytes

variable {w : ℕ}

/-- Take one bit: where it differs from the bit that falls out, the polynomial is added. -/
def feed (P : BitVec w) (c : BitVec w) (b : Bool) : BitVec w :=
  (c >>> 1) ^^^ if c.getLsbD 0 ^^ b then P else 0#w

/-- Take a zero. -/
def shift (P : BitVec w) (c : BitVec w) : BitVec w := feed P c false

/-- The register that holds a string of bits, the first one lowest. -/
def weight : List Bool → BitVec w
  | [] => 0#w
  | b :: bs => (BitVec.ofBool b).setWidth w ^^^ (weight bs <<< 1)

/-- The bits of a word, the lowest first. -/
def lowFirst {k : ℕ} (x : BitVec k) : List Bool := (List.range k).map x.getLsbD

variable {P : BitVec w}

@[simp] lemma length_lowFirst {k : ℕ} (x : BitVec k) : (lowFirst x).length = k := by
  simp [lowFirst]

/-- The bits of the register are those of the string, as far as it is wide enough. -/
lemma getLsbD_weight (bs : List Bool) (i : ℕ) :
    (weight bs : BitVec w).getLsbD i = (decide (i < w) && (bs[i]?).getD false) := by
  induction bs generalizing i with
  | nil => simp [weight]
  | cons b bs ih =>
    rw [weight, BitVec.getLsbD_xor, BitVec.getLsbD_setWidth, BitVec.getLsbD_shiftLeft]
    cases i with
    | zero => simp
    | succ i =>
      rw [show i + 1 - 1 = i by omega, ih]
      by_cases h : i + 1 < w
      · simp [h, show i < w by omega]
      · simp [h]

/-- The register that holds the bits of a word is the word. -/
lemma weight_lowFirst {k : ℕ} (x : BitVec k) : (weight (lowFirst x) : BitVec w) = x.setWidth w := by
  apply BitVec.eq_of_getLsbD_eq
  intro i hi
  rw [getLsbD_weight, BitVec.getLsbD_setWidth, lowFirst, List.getElem?_map]
  by_cases h : i < k
  · rw [List.getElem?_range h, Option.map_some, Option.getD_some]
  · rw [List.getElem?_eq_none (by simpa using h), BitVec.getLsbD_of_ge x i (by omega)]
    rfl

/-- **Linearity.** The division of a sum is the sum of the divisions. -/
lemma shift_xor (a b : BitVec w) : shift P (a ^^^ b) = shift P a ^^^ shift P b := by
  unfold shift feed
  rw [BitVec.ushiftRight_xor_distrib, BitVec.getLsbD_xor]
  apply BitVec.eq_of_getLsbD_eq
  intro i _
  cases a.getLsbD 0 <;> cases b.getLsbD 0 <;> simp [Bool.xor_left_comm, Bool.xor_comm]

lemma iterate_shift_xor (k : ℕ) (a b : BitVec w) :
    (shift P)^[k] (a ^^^ b) = (shift P)^[k] a ^^^ (shift P)^[k] b := by
  induction k generalizing a b with
  | zero => rfl
  | succ k ih => rw [Function.iterate_succ_apply, shift_xor, ih]; rfl

/-- One bit taken is one bit added and a zero taken, whatever waits behind it. -/
lemma feed_xor_weight (c : BitVec w) (b : Bool) (bs : List Bool) (hlen : bs.length < w) :
    feed P c b ^^^ weight bs = shift P (c ^^^ weight (b :: bs)) := by
  have hlow : (weight (b :: bs) : BitVec w).getLsbD 0 = b := by
    simp only [getLsbD_weight, show 0 < w by omega, decide_true, Bool.true_and,
      List.getElem?_cons_zero, Option.getD_some]
  have hrest : (weight (b :: bs) : BitVec w) >>> 1 = weight bs := by
    apply BitVec.eq_of_getLsbD_eq
    intro i hi
    rw [BitVec.getLsbD_ushiftRight, Nat.add_comm 1 i, getLsbD_weight, getLsbD_weight,
      List.getElem?_cons_succ]
    by_cases hlast : i + 1 < w
    · simp [hlast, hi]
    · simp [hlast, hi, show bs.length ≤ i by omega]
  unfold shift feed
  rw [BitVec.ushiftRight_xor_distrib, hrest, BitVec.getLsbD_xor, hlow, Bool.xor_false,
    BitVec.xor_assoc, BitVec.xor_assoc, BitVec.xor_comm (weight bs)]

/-- **Bits taken at once.** Taking a string of bits one by one is adding it to the register and
taking as many zeros, as long as the register is wide enough to hold it.

**Proof sketch.** Induction on the string: the bits behind the first are added one place higher,
and come down by that place when the first is taken. -/
lemma foldl_feed (bs : List Bool) (c : BitVec w) (hlen : bs.length ≤ w) :
    bs.foldl (feed P) c = (shift P)^[bs.length] (c ^^^ weight bs) := by
  induction bs generalizing c with
  | nil => simp [weight]
  | cons b bs ih =>
    rw [List.length_cons] at hlen
    rw [List.foldl_cons, ih _ (by omega), feed_xor_weight c b bs (by omega), List.length_cons,
      Function.iterate_succ_apply]

/-- A register whose low bits are clear only moves down. -/
lemma iterate_shift_high (k : ℕ) (c : BitVec w) (hlow : ∀ i < k, c.getLsbD i = false) :
    (shift P)^[k] c = c >>> k := by
  induction k with
  | zero => simp
  | succ k ih =>
    have hbit : (c >>> k).getLsbD 0 = false := by
      simpa using hlow k (Nat.lt_succ_self k)
    rw [Function.iterate_succ_apply', ih fun i hi => hlow i (by omega), shift, feed, hbit,
      BitVec.shiftRight_add]
    simp

/-- **The low bits decide.** Registers with the same `k` low bits differ after `k` bits of division
by what has moved down only.

**Proof sketch.** Their difference has clear low bits, and the division is linear. -/
lemma iterate_shift_eq (k : ℕ) (c d : BitVec w) (hlow : ∀ i < k, c.getLsbD i = d.getLsbD i) :
    (shift P)^[k] c = (shift P)^[k] d ^^^ ((c ^^^ d) >>> k) := by
  have hclear : ∀ i < k, (c ^^^ d).getLsbD i = false := by
    intro i hi
    rw [BitVec.getLsbD_xor, hlow i hi, Bool.xor_self]
  have hsplit : c = d ^^^ (c ^^^ d) := by
    rw [BitVec.xor_comm c d, ← BitVec.xor_assoc, BitVec.xor_self, BitVec.zero_xor]
  calc (shift P)^[k] c = (shift P)^[k] (d ^^^ (c ^^^ d)) := by rw [← hsplit]
    _ = (shift P)^[k] d ^^^ (shift P)^[k] (c ^^^ d) := iterate_shift_xor k d _
    _ = (shift P)^[k] d ^^^ ((c ^^^ d) >>> k) := by rw [iterate_shift_high k _ hclear]

end Bytes
