import Mincontainer.Bytes.Burst
import Mincontainer.Bytes.Serial
import Mincontainer.Snapshot.Crc32

set_option relaxedAutoImplicit false
set_option autoImplicit false

/-!
# The table is the division

The table of the rolling checksum holds eight bits of division for every byte. One look into it,
with the rest of the register moved down a byte, is eight bits of division for every register, so
that the checksum of a stream is the one a shift register computes bit by bit.

## Main definitions

* `Mincontainer.Crc32.word` — the words of the table.
* `Mincontainer.messageBits` — the bits of a byte string, least significant first.
* `Mincontainer.serialCrc32` — CRC-32, one bit at a time.

## Main results

* `Mincontainer.Crc32.topInjective_word` — the words of the table differ in their top byte.
* `Mincontainer.Crc32.crcStep_word` — one look into the table takes eight bits.
* `Mincontainer.Crc32.finish_foldl_update_serial` — the rolling checksum is CRC-32.
-/

namespace Mincontainer

open Bytes

namespace Crc32

/-! ### The table -/

/-- One bit of the division, on bit vectors. -/
def bitStep (c : BitVec 32) : BitVec 32 :=
  (c >>> 1) ^^^ if c.getLsbD 0 then 0xEDB88320#32 else 0#32

/-- The word of the table for a byte. -/
def word (i : BitVec 8) : BitVec 32 := bitStep^[8] (i.setWidth 32)

lemma toBitVec_crcBit (c : UInt32) : (crcBit c).toBitVec = bitStep c.toBitVec := by
  have hbit : (c &&& 1 ≠ 0) ↔ c.toBitVec.getLsbD 0 = true := by
    have hand : (c &&& 1).toBitVec = (BitVec.ofBool (c.toBitVec.getLsbD 0)).setWidth 32 := by
      rw [UInt32.toBitVec_and]
      exact BitVec.and_one_eq_setWidth_ofBool_getLsbD
    rw [ne_eq, ← UInt32.toBitVec_inj, hand]
    cases c.toBitVec.getLsbD 0 <;> decide
  rw [crcBit, bitStep]
  by_cases h : c.toBitVec.getLsbD 0 = true
  · rw [if_pos (hbit.mpr h), if_pos h, BitVec.xor_comm]
    simp
  · rw [if_neg (mt hbit.mp h), if_neg h, BitVec.xor_zero]
    simp

/-- One bit of the division is a zero taken by the shift register of the polynomial. -/
lemma bitStep_eq_shift : bitStep = shift 0xEDB88320#32 := by
  funext c
  unfold bitStep shift feed
  rw [Bool.xor_false]

lemma word_xor (i j : BitVec 8) : word (i ^^^ j) = word i ^^^ word j := by
  unfold word
  rw [BitVec.setWidth_xor, bitStep_eq_shift, iterate_shift_xor]

/-- **The table.** Its words differ in their top byte.

**Proof sketch.** The table is linear, so it is enough that no word but the first has the top byte
zero: 256 cases. -/
lemma topInjective_word : TopInjective word := by
  have hzero : ∀ k : BitVec 8, word k >>> 24 = 0#32 → k = 0#8 := by decide +kernel
  intro i j h
  have hxor : word (i ^^^ j) >>> 24 = 0#32 := by
    rw [word_xor, BitVec.ushiftRight_xor_distrib, h, BitVec.xor_self]
  have := hzero _ hxor
  calc i = (i ^^^ j) ^^^ j := by rw [BitVec.xor_assoc, BitVec.xor_self, BitVec.xor_zero]
    _ = j := by rw [this, BitVec.zero_xor]

lemma toBitVec_crcTable (i : BitVec 8) : (crcTable i.toNat).toBitVec = word i := by
  have hiter : ∀ (n : ℕ) (c : UInt32), (crcBit^[n] c).toBitVec = bitStep^[n] c.toBitVec := by
    intro n
    induction n with
    | zero => exact fun _ => rfl
    | succ n ih =>
      intro c
      rw [Function.iterate_succ_apply, ih, toBitVec_crcBit]
      rfl
  rw [crcTable, hiter, word]
  congr 1
  apply BitVec.eq_of_toNat_eq
  simp

/-- The byte step of the code is the byte step over the table. -/
lemma toBitVec_step (c : UInt32) (b : UInt8) :
    (step c b).toBitVec = crcStep word c.toBitVec b.toBitVec := by
  have hidx : ((c ^^^ b.toUInt32) &&& 0xFF).toNat = (c.toBitVec.setWidth 8 ^^^ b.toBitVec).toNat := by
    have hmask : (0xFF : UInt32).toNat = 2 ^ 8 - 1 := rfl
    rw [UInt32.toNat_and, UInt32.toNat_xor, hmask, Nat.and_two_pow_sub_one_eq_mod,
      Nat.xor_mod_two_pow, BitVec.toNat_xor, BitVec.toNat_setWidth]
    simp
  rw [step, UInt32.toBitVec_xor, hidx, toBitVec_crcTable, crcStep]
  simp

lemma toBitVec_foldl_step (buf : Bytes) (c : UInt32) :
    (buf.foldl step c).toBitVec = (buf.map UInt8.toBitVec).foldl (crcStep word) c.toBitVec := by
  induction buf generalizing c with
  | nil => rfl
  | cons b buf ih => rw [List.foldl_cons, ih, toBitVec_step, List.map_cons, List.foldl_cons]

end Crc32

/-! ### Bit by bit -/

/-- The bits of a byte string in the order in which they are divided: those of each byte from the
least significant one. -/
def messageBits (buf : Bytes) : List Bool := buf.flatMap fun b => lowFirst b.toBitVec

/-- CRC-32, one bit at a time: the reflected polynomial, a register of ones, and a final
complement. -/
def serialCrc32 (buf : Bytes) : UInt32 :=
  .ofBitVec ((messageBits buf).foldl (feed 0xEDB88320#32) 0xFFFFFFFF#32) ^^^ 0xFFFFFFFF

namespace Crc32

/-- **Eight bits at once.** One look into the table, with the rest of the register moved down a
byte, takes the eight bits of a byte.

**Proof sketch.** Taking the bits is adding the byte to the register and dividing for eight bits.
The sum and its low byte have the same eight low bits, so the division of the sum is the word of
the table and what moves down; of the byte itself nothing is left eight places down. -/
lemma crcStep_word (c : BitVec 32) (b : BitVec 8) :
    crcStep word c b = (lowFirst b).foldl (feed 0xEDB88320#32) c := by
  have hlow : ∀ i < 8, (c ^^^ b.setWidth 32).getLsbD i =
      ((c.setWidth 8 ^^^ b).setWidth 32).getLsbD i := by
    intro i hi
    simp [hi, show i < 32 by omega]
  have hrest : ((c ^^^ b.setWidth 32) ^^^ (c.setWidth 8 ^^^ b).setWidth 32) >>> 8 = c >>> 8 := by
    apply BitVec.eq_of_getLsbD_eq
    intro i _
    simp
  rw [foldl_feed _ _ (by simp), length_lowFirst, weight_lowFirst,
    iterate_shift_eq 8 _ _ hlow, hrest, ← bitStep_eq_shift]
  rfl

/-- **A buffer.** The register after a buffer is the shift register after its bits.

**Proof sketch.** Induction on the buffer, one byte at a time. -/
lemma toBitVec_foldl_step_serial (buf : Bytes) (c : UInt32) :
    (buf.foldl step c).toBitVec = (messageBits buf).foldl (feed 0xEDB88320#32) c.toBitVec := by
  unfold messageBits
  induction buf generalizing c with
  | nil => rfl
  | cons b buf ih =>
    rw [List.foldl_cons, ih, toBitVec_step, crcStep_word, List.flatMap_cons, List.foldl_append]

/-- **The rolling checksum is CRC-32.** However a stream is cut into buffers, the checksum of the
buffers taken in turn is the one a shift register computes from the bits of the whole.

**Proof sketch.** The pieces come together to the whole buffer, and its register is that of the
shift register. -/
theorem finish_foldl_update_serial (pieces : List Bytes) :
    (pieces.foldl Crc32.update Crc32.new).finish = serialCrc32 pieces.flatten := by
  have hreg : (pieces.flatten.foldl step 0xFFFFFFFF).toBitVec
      = (messageBits pieces.flatten).foldl (feed 0xEDB88320#32) 0xFFFFFFFF#32 :=
    toBitVec_foldl_step_serial _ _
  unfold serialCrc32
  rw [foldl_update, ← hreg]
  rfl

end Crc32

end Mincontainer
