import Mincontainer.State.Text

set_option relaxedAutoImplicit false
set_option autoImplicit false

/-!
# Paths that are given

A path on the command line is a string of bytes, and the bytes need not be UTF-8. Printed, each broken
sequence of them becomes one replacement character, so that what is printed need not be the path.

The texts of paths are strings. In the text of a path that is not UTF-8 the bytes that belong to no
character stand as characters from the end of the last plane, which is for private use.

## Main definitions

* `Mincontainer.PathArg` — a path that was given.
* `Mincontainer.PathArg.text` — the text that stands for it.
* `Mincontainer.PathArg.shown` — what is printed of it.

## Main results

* `Mincontainer.PathArg.text_ofText`, `Mincontainer.PathArg.shown_ofText` — a path that is UTF-8 is
  printed as it is.
-/

namespace Mincontainer

/-! ### Broken characters -/

/-- The byte goes on with a character. -/
def isContinuation (b : UInt8) : Bool := 0x80 ≤ b && b ≤ 0xBF

/-- The byte goes on with a character of three or four bytes that begins with `lead`. -/
def isSecond (lead b : UInt8) : Bool :=
  if lead = 0xE0 then 0xA0 ≤ b && b ≤ 0xBF
  else if lead = 0xED then 0x80 ≤ b && b ≤ 0x9F
  else if lead = 0xF0 then 0x90 ≤ b && b ≤ 0xBF
  else if lead = 0xF4 then 0x80 ≤ b && b ≤ 0x8F
  else 0xE0 ≤ lead && lead ≤ 0xF4 && isContinuation b

/-- How many of the bytes, which begin with no character, begin one that breaks off. -/
def brokenLength : List UInt8 → Nat
  | lead :: b :: c :: _ =>
    if isSecond lead b then if 0xF0 ≤ lead && isContinuation c then 3 else 2 else 1
  | [lead, b] => if isSecond lead b then 2 else 1
  | _ => 1

/-- The characters among at most `n` bytes, and the broken sequences between them. -/
def utf8Chunks : Nat → Bytes → List (Char ⊕ Bytes)
  | 0, _ => []
  | _, [] => []
  | n + 1, b =>
    match ByteArray.utf8DecodeChar? ⟨b.toArray⟩ 0 with
    | some c => .inl c :: utf8Chunks n (b.drop c.utf8Size)
    | none => .inr (b.take (brokenLength b)) :: utf8Chunks n (b.drop (brokenLength b))

/-! ### Arguments -/

/-- A path that was given. -/
structure PathArg where
  bytes : Bytes
deriving DecidableEq, Repr

namespace PathArg

/-- The character that stands for a byte. -/
def standIn (b : UInt8) : Char := Char.ofNat (0x10FF00 + b.toNat)

/-- The text that stands for the path. -/
def text (a : PathArg) : String :=
  match String.fromUTF8? ⟨a.bytes.toArray⟩ with
  | some s => s
  | none => String.ofList ((utf8Chunks a.bytes.length a.bytes).flatMap (Sum.elim ([·]) (·.map standIn)))

/-- What is printed of the path. -/
def shown (a : PathArg) : String :=
  match String.fromUTF8? ⟨a.bytes.toArray⟩ with
  | some s => s
  | none => String.ofList ((utf8Chunks a.bytes.length a.bytes).map (Sum.elim id fun _ => '\uFFFD'))

/-- A path that is UTF-8. -/
def ofText (s : String) : PathArg := ⟨utf8 s⟩

@[simp] lemma text_ofText (s : String) : (ofText s).text = s := by
  rw [text, ofText, fromUTF8?_utf8]

@[simp] lemma shown_ofText (s : String) : (ofText s).shown = s := by
  rw [shown, ofText, fromUTF8?_utf8]

-- a broken character in the middle, and a byte that begins none at the end
example : (⟨[0x61, 0xE2, 0x82, 0x62, 0xFF]⟩ : PathArg).shown = "a\uFFFDb\uFFFD" := by decide +kernel

end PathArg

end Mincontainer
