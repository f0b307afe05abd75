import Mathlib.Logic.Function.Iterate
import Mincontainer.State.Record

set_option relaxedAutoImplicit false
set_option autoImplicit false

/-!
# The rolling CRC-32

The hand-rolled checksum of `snapshot.rs`: a table of 256 entries, a register that takes one
byte at a time, and a final complement.

## Main definitions

* `Mincontainer.Crc32` — the rolling checksum; `Mincontainer.crc32` the one-shot form.

## Main results

* `Mincontainer.Crc32.update_append`, `Mincontainer.Crc32.foldl_update` — the checksum of a
  stream does not depend on how it is cut into buffers.
-/

namespace Mincontainer

/-- One bit of the reflected division. -/
def crcBit (c : UInt32) : UInt32 :=
  if c &&& 1 ≠ 0 then (0xEDB88320 : UInt32) ^^^ (c >>> 1) else c >>> 1

/-- Entry `i` of the table: eight bits of division applied to `i`. -/
def crcTable (i : Nat) : UInt32 := crcBit^[8] (UInt32.ofNat i)

/-- Rolling CRC32 so a stream can be checksummed while it is copied. -/
structure Crc32 where
  reg : UInt32
deriving DecidableEq, Repr

namespace Crc32

/-- A fresh checksum. -/
def new : Crc32 := ⟨0xFFFFFFFF⟩

/-- Take one byte. -/
def step (c : UInt32) (b : UInt8) : UInt32 :=
  crcTable ((c ^^^ b.toUInt32) &&& 0xFF).toNat ^^^ (c >>> 8)

/-- Take a buffer. -/
def update (c : Crc32) (buf : Bytes) : Crc32 := ⟨buf.foldl step c.reg⟩

/-- The checksum of everything taken so far. -/
def finish (c : Crc32) : UInt32 := c.reg ^^^ 0xFFFFFFFF

@[simp] lemma update_nil (c : Crc32) : c.update [] = c := rfl

/-- Two buffers in sequence are one buffer. -/
lemma update_append (c : Crc32) (a b : Bytes) : c.update (a ++ b) = (c.update a).update b := by
  simp [update, List.foldl_append]

/-- Any way of cutting a stream into buffers gives the same checksum. -/
lemma foldl_update (c : Crc32) (chunks : List Bytes) :
    chunks.foldl update c = c.update chunks.flatten := by
  induction chunks generalizing c with
  | nil => rfl
  | cons a chunks ih => rw [List.foldl_cons, ih, List.flatten_cons, update_append]

end Crc32

/-- The checksum of a buffer. -/
def crc32 (buf : Bytes) : UInt32 := (Crc32.new.update buf).finish

/-- Checksumming a stream buffer by buffer gives the checksum of the whole. -/
lemma finish_foldl_update (chunks : List Bytes) :
    (chunks.foldl Crc32.update Crc32.new).finish = crc32 chunks.flatten := by
  rw [Crc32.foldl_update, crc32]

example : crc32 "123456789".toUTF8.toList = 0xCBF43926 := by decide +kernel

end Mincontainer
