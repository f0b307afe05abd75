import Mathlib.Data.List.Basic
import Mathlib.Tactic.Lemma
import Mincontainer.Bytes.Endian

set_option relaxedAutoImplicit false
set_option autoImplicit false

/-!
# Table-driven checksums and error bursts

A checksum of 32 bits that takes one byte at a time: the register moves down by a byte, and the byte
that falls out, combined with the byte taken, selects a word of a table that is added to the rest.
All that matters of the table is that its words differ in their top byte.

## Main definitions

* `Bytes.crcStep` — one byte step over a table.
* `Bytes.TopInjective` — different indices have words with different top bytes.

## Main results

* `Bytes.foldl_crcStep_injective` — different registers stay different.
* `Bytes.foldl_crcStep_burst` — up to four different bytes lead to different registers.
* `Bytes.foldl_crcStep_residue` — a register that is fed its own complement forgets itself.
-/

namespace Bytes

/-- Take one byte: the byte that falls out of the register selects a word of the table. -/
def crcStep (T : BitVec 8 → BitVec 32) (c : BitVec 32) (b : BitVec 8) : BitVec 32 :=
  T (c.setWidth 8 ^^^ b) ^^^ (c >>> 8)

/-- The words of the table differ in their top byte. -/
def TopInjective (T : BitVec 8 → BitVec 32) : Prop := ∀ i j, T i >>> 24 = T j >>> 24 → i = j

variable {T : BitVec 8 → BitVec 32}

lemma xor_left_cancel {n : ℕ} {a b c : BitVec n} (h : a ^^^ b = a ^^^ c) : b = c := by
  have := congrArg (a ^^^ ·) h
  simpa [← BitVec.xor_assoc] using this

/-- **One step backwards.** As long as the top byte of the register is known, the index of the last
step is, and with it one byte more of the register before.

**Proof sketch.** Shifted down to the top byte, the rest of the old register is gone, and what is
left is the top byte of the word of the table. -/
lemma crcStep_shift (hT : TopInjective T) {c c' : BitVec 32} {b b' : BitVec 8} {j : ℕ} (hj : j ≤ 24)
    (h : crcStep T c b >>> j = crcStep T c' b' >>> j) :
    c.setWidth 8 ^^^ b = c'.setWidth 8 ^^^ b' ∧ c >>> (8 + j) = c' >>> (8 + j) := by
  have hgone : ∀ x : BitVec 32, x >>> (8 + 24) = 0#32 := fun x => by
    apply BitVec.eq_of_getLsbD_eq
    intro i _
    simp
  have htop : ∀ x y, crcStep T x y >>> j >>> (24 - j) = T (x.setWidth 8 ^^^ y) >>> 24 := fun x y => by
    rw [← BitVec.shiftRight_add, show j + (24 - j) = 24 by omega, crcStep,
      BitVec.ushiftRight_xor_distrib, ← BitVec.shiftRight_add, hgone, BitVec.xor_zero]
  have hidx : c.setWidth 8 ^^^ b = c'.setWidth 8 ^^^ b' := hT _ _ <| by
    rw [← htop, ← htop, h]
  refine ⟨hidx, ?_⟩
  rw [crcStep, crcStep, hidx, BitVec.ushiftRight_xor_distrib, BitVec.ushiftRight_xor_distrib,
    ← BitVec.shiftRight_add, ← BitVec.shiftRight_add] at h
  exact xor_left_cancel h

/-- A register is its low byte and the rest. -/
lemma eq_of_low_of_shift {c c' : BitVec 32} (hlow : c.setWidth 8 = c'.setWidth 8)
    (hhigh : c >>> 8 = c' >>> 8) : c = c' := by
  apply BitVec.eq_of_getLsbD_eq
  intro i hi
  by_cases h : i < 8
  · simpa [h] using congrArg (fun x => x.getLsbD i) hlow
  · have := congrArg (fun x => x.getLsbD (i - 8)) hhigh
    simpa [show 8 + (i - 8) = i by omega] using this

/-- Taking the same byte keeps different registers apart. -/
lemma crcStep_injective (hT : TopInjective T) {c c' : BitVec 32} {b : BitVec 8}
    (h : crcStep T c b = crcStep T c' b) : c = c' := by
  have hzero : crcStep T c b >>> 0 = crcStep T c' b >>> 0 := by rw [h]
  obtain ⟨hidx, hhigh⟩ := crcStep_shift hT (by omega) hzero
  refine eq_of_low_of_shift (xor_left_cancel (a := b) ?_) hhigh
  rwa [BitVec.xor_comm b, BitVec.xor_comm b]

/-- **Nothing is forgotten.** Taking the same bytes keeps different registers apart. -/
lemma foldl_crcStep_injective (hT : TopInjective T) {s : List (BitVec 8)} {c c' : BitVec 32}
    (h : s.foldl (crcStep T) c = s.foldl (crcStep T) c') : c = c' := by
  induction s generalizing c c' with
  | nil => exact h
  | cons b s ih => exact crcStep_injective hT (ih h)

/-- Bytes that lead from one register to registers with the same top are the same, when there are
no more of them than bytes in that top.

**Proof sketch.** Induction from the last byte: it gives back one byte of the register before, so
that the bytes before it are the same, and with them the register it was taken in. -/
lemma foldl_crcStep_shift (hT : TopInjective T) (n : ℕ) {c : BitVec 32} {w w' : List (BitVec 8)}
    {j : ℕ} (hw : w.length = n) (hw' : w'.length = n) (hj : j + 8 * n ≤ 32)
    (h : w.foldl (crcStep T) c >>> j = w'.foldl (crcStep T) c >>> j) : w = w' := by
  induction n generalizing w w' j with
  | zero => rw [List.length_eq_zero_iff.mp hw, List.length_eq_zero_iff.mp hw']
  | succ n ih =>
    obtain ⟨v, b, rfl⟩ := (List.eq_nil_or_concat' w).resolve_left (by rintro rfl; cases hw)
    obtain ⟨v', b', rfl⟩ := (List.eq_nil_or_concat' w').resolve_left (by rintro rfl; cases hw')
    simp only [List.length_append, List.length_singleton, Nat.add_right_cancel_iff] at hw hw'
    simp only [List.foldl_append, List.foldl_cons, List.foldl_nil] at h
    obtain ⟨hidx, hhigh⟩ := crcStep_shift hT (by omega) h
    obtain rfl := ih hw hw' (by omega) hhigh
    rw [xor_left_cancel hidx]

/-- **Bursts.** At most four bytes that lead from one register to the same register are the same. -/
lemma foldl_crcStep_burst (hT : TopInjective T) {c : BitVec 32} {w w' : List (BitVec 8)}
    (hlen : w.length = w'.length) (hfour : w.length ≤ 4)
    (h : w.foldl (crcStep T) c = w'.foldl (crcStep T) c) : w = w' :=
  foldl_crcStep_shift hT w.length (j := 0) rfl hlen.symm (by omega) (by rw [h])

/-- The bytes of a number, least significant first. -/
def bytesOf (n : ℕ) (z : BitVec 32) : List (BitVec 8) :=
  (toLE n z.toNat).map UInt8.toBitVec

lemma bytesOf_succ (n : ℕ) (z : BitVec 32) :
    bytesOf (n + 1) z = z.setWidth 8 :: bytesOf n (z >>> 8) := by
  have hlow : (UInt8.ofNat z.toNat).toBitVec = z.setWidth 8 := by
    apply BitVec.eq_of_toNat_eq
    simp
  have hhigh : (z >>> 8).toNat = z.toNat / 256 := by
    simp [Nat.shiftRight_eq_div_pow]
  simp only [bytesOf, toLE, List.map_cons, hlow, hhigh]

/-- **The residue.** A register that takes the bytes of its own complement ends in a value that does
not depend on what it was.

**Proof sketch.** Induction on the bytes: up to a constant the register is what has not been taken
of its old value, and the complement of a byte cancels that byte in the index. -/
lemma foldl_crcStep_residue (T : BitVec 8 → BitVec 32) (n : ℕ) (k : BitVec 32) :
    ∃ K, ∀ y z : BitVec 32, (∀ i < 8 * n, z.getLsbD i = !y.getLsbD i) →
      (bytesOf n z).foldl (crcStep T) (k ^^^ y) = K ^^^ (y >>> (8 * n)) := by
  induction n generalizing k with
  | zero => exact ⟨k, fun y z _ => by simp [bytesOf, toLE]⟩
  | succ n ih =>
    obtain ⟨K, hK⟩ := ih (T (k.setWidth 8 ^^^ 255#8) ^^^ (k >>> 8))
    refine ⟨K, fun y z hz => ?_⟩
    have hidx : (k ^^^ y).setWidth 8 ^^^ z.setWidth 8 = k.setWidth 8 ^^^ 255#8 := by
      apply BitVec.eq_of_getLsbD_eq
      intro i hi
      have hone : (255#8).getLsbD i = true := by
        have : ∀ i : Fin 8, (255#8).getLsbD i = true := by decide
        exact this ⟨i, hi⟩
      have := hz i (by omega)
      simp only [BitVec.getLsbD_xor, BitVec.getLsbD_setWidth, hi, decide_true, Bool.true_and, this,
        hone]
      cases k.getLsbD i <;> cases y.getLsbD i <;> rfl
    have hstep : crcStep T (k ^^^ y) (z.setWidth 8) =
        (T (k.setWidth 8 ^^^ 255#8) ^^^ (k >>> 8)) ^^^ (y >>> 8) := by
      rw [crcStep, hidx, BitVec.ushiftRight_xor_distrib, BitVec.xor_assoc]
    rw [bytesOf_succ, List.foldl_cons, hstep, hK (y >>> 8) (z >>> 8) fun i hi => ?_]
    · rw [← BitVec.shiftRight_add, show 8 + 8 * n = 8 * (n + 1) by omega]
    · simpa using hz (8 + i) (by omega)

end Bytes
