import Mathlib.Tactic.Lemma

set_option relaxedAutoImplicit false
set_option autoImplicit false

/-!
# Codecs

An encoder and a decoder between values and bytes, as a serialisation library offers them. What
a development relies on is stated value by value with `Codec.RoundTrips`.
-/

namespace Bytes

/-- An encoder and a decoder of the values in `α`. -/
structure Codec (α : Type) where
  /-- The bytes written for a value. -/
  encode : α → List UInt8
  /-- The value read from bytes, or what is wrong with them. -/
  decode : List UInt8 → Except String α

/-- What the codec wrote for `a` is read back as `a`. -/
def Codec.RoundTrips {α : Type} (c : Codec α) (a : α) : Prop := c.decode (c.encode a) = .ok a

end Bytes
