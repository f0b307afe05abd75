import Mathlib.Data.List.Basic
import Mathlib.Algebra.Group.Nat.Defs

set_option relaxedAutoImplicit false
set_option autoImplicit false

/-!
# Reading a given number of bytes

A loop that reads a given number of bytes of a file through a buffer, and folds what it reads into a
state. How many bytes a read returns is not up to the loop: at least one, unless the file ends there, and
no more than it asked for. The bytes that remain are counted in a machine word.

## Main definitions

* `Bytes.checkedAdd`, `Bytes.checkedSub` — sums and differences in words of 64 bits.
* `Bytes.MayRead` — what one read may return.
* `Bytes.Replies` — what the reads of a loop may return, one after the other.
* `Bytes.readLoop` — the loop.

## Main results

* `Bytes.readLoop_outcome` — within the file, the loop comes to its end: it has read the bytes in order,
  or a read failed.
-/

namespace Bytes

/-! ### Words of 64 bits -/

/-- The sum, unless it overflows. -/
def checkedAdd (a b : ℕ) : Option ℕ := if a + b < 2 ^ 64 then some (a + b) else none

/-- The difference, unless it underflows. -/
def checkedSub (a b : ℕ) : Option ℕ := if b ≤ a then some (a - b) else none

lemma checkedAdd_of_lt {a b : ℕ} (h : a + b < 2 ^ 64) : checkedAdd a b = some (a + b) := if_pos h

lemma checkedSub_of_le {a b : ℕ} (h : b ≤ a) : checkedSub a b = some (a - b) := if_pos h

/-! ### Reads -/

/-- What a read of at most `want` bytes at an offset of the file may return: an error, or bytes from
there on, and none only if none were asked for or the file ends there. -/
def MayRead (file : List UInt8) (off want : ℕ) : Except String (List UInt8) → Prop
  | .error _ => True
  | .ok b => b <+: file.drop off ∧ b.length ≤ want ∧ (b = [] → want = 0 ∨ file.length ≤ off)

/-- What the reads of a loop may return that is at an offset of the file and has `remaining` bytes to
go: it asks for these, or for what its buffer holds. -/
def Replies (file : List UInt8) (size : ℕ) : ℕ → ℕ → List (Except String (List UInt8)) → Prop
  | _, _, [] => True
  | off, remaining, r :: rs =>
    MayRead file off (min size remaining) r ∧
      ∀ b, r = .ok b → Replies file size (off + b.length) (remaining - b.length) rs

/-- How a loop stands. -/
inductive Reading (σ : Type) where
  /-- It waits for its next read. -/
  | pending
  /-- A number did not fit its word. -/
  | overflow
  /-- A read failed. -/
  | failed (e : String)
  /-- The file ended too early. -/
  | truncated
  | done (s : σ)
deriving DecidableEq, Repr

/-- Read what remains, and fold it into a state. -/
def readLoop {σ : Type} (f : σ → List UInt8 → σ) (remaining : ℕ) (s : σ) :
    List (Except String (List UInt8)) → Reading σ
  | [] => if remaining = 0 then .done s else .pending
  | r :: rs =>
    if remaining = 0 then .done s
    else match r with
      | .error e => .failed e
      | .ok b =>
        if b = [] then .truncated
        else match checkedSub remaining b.length with
          | none => .overflow
          | some left => readLoop f left (f s b) rs

section

variable {σ : Type} {f : σ → List UInt8 → σ} {file : List UInt8} {size off remaining : ℕ} {s : σ}
  {rs : List (Except String (List UInt8))}

lemma readLoop_zero : readLoop f 0 s rs = .done s := by
  cases rs <;> simp [readLoop]

/-- Where nothing remains, reads return nothing. -/
lemma replies_replicate (k : ℕ) : Replies file size off 0 (List.replicate k (.ok [])) := by
  induction k generalizing off with
  | zero => trivial
  | succ k ih =>
    refine ⟨⟨List.nil_prefix, Nat.zero_le _, fun _ => .inl (Nat.min_zero _)⟩, ?_⟩
    rintro b ⟨⟩
    exact ih

/-- **The loop.** Of a file that goes on for as long as bytes remain, with a reply for each of them, the
loop comes to its end: it has folded the bytes into its state, in the pieces that the reads returned, or
it has folded some of them, and then a read failed.

**Proof sketch.** Induction on the replies. A read that returned bytes, as it must before the file ends,
leaves fewer of them; and it returned no more than it was asked for, so the difference does not
underflow. -/
theorem readLoop_outcome (hsize : 0 < size) (hfile : off + remaining ≤ file.length)
    (hmany : remaining ≤ rs.length) (hreplies : Replies file size off remaining rs) :
    (∃ chunks : List (List UInt8), readLoop f remaining s rs = .done (chunks.foldl f s) ∧
      chunks.flatten = (file.drop off).take remaining ∧ ∀ b ∈ chunks, b ≠ []) ∨
    ∃ (e : String) (chunks : List (List UInt8)), readLoop f remaining s rs = .failed e ∧
      .error e ∈ rs ∧ chunks.flatten <+: (file.drop off).take remaining ∧ ∀ b ∈ chunks, b ≠ [] := by
  induction rs generalizing off remaining s with
  | nil =>
    obtain rfl := Nat.le_zero.mp hmany
    exact .inl ⟨[], readLoop_zero, by simp, by simp⟩
  | cons r rs ih =>
    by_cases hzero : remaining = 0
    · subst hzero
      exact .inl ⟨[], readLoop_zero, by simp, by simp⟩
    rcases r with e | b
    · refine .inr ⟨e, [], ?_, List.mem_cons_self, by simp, by simp⟩
      rw [readLoop, if_neg hzero]
    obtain ⟨⟨hpre, hlen, hempty⟩, hrest⟩ := hreplies
    have hb : b ≠ [] := fun hnil => by
      rcases hempty hnil with h | h <;> omega
    have hpos : 0 < b.length := List.length_pos_iff.mpr hb
    have hle : b.length ≤ remaining := Nat.le_trans hlen (Nat.min_le_right _ _)
    have hstep : readLoop f remaining s (.ok b :: rs) = readLoop f (remaining - b.length) (f s b) rs := by
      rw [readLoop, if_neg hzero]
      simp only [hb, if_false, checkedSub_of_le hle]
    -- the bytes that were read, and those that are left
    have htake : (file.drop off).take remaining =
        b ++ (file.drop (off + b.length)).take (remaining - b.length) := by
      obtain ⟨t, ht⟩ := hpre
      have htail : file.drop (off + b.length) = t := by
        rw [← List.drop_drop, ← ht, List.drop_left]
      rw [htail, ← ht, List.take_append, List.take_of_length_le hle]
    rw [List.length_cons] at hmany
    rw [hstep, htake]
    rcases ih (s := f s b) (by omega) (by omega) (hrest b rfl) with
      ⟨chunks, hdone, hflat, hall⟩ | ⟨e, chunks, hfailed, hmem, hflat, hall⟩
    · refine .inl ⟨b :: chunks, hdone, ?_, ?_⟩
      · rw [List.flatten_cons, hflat]
      · rintro c (_ | ⟨_, hc⟩)
        · exact hb
        · exact hall c hc
    · refine .inr ⟨e, b :: chunks, hfailed, List.mem_cons_of_mem _ hmem, ?_, ?_⟩
      · rw [List.flatten_cons]
        exact (List.prefix_append_right_inj b).mpr hflat
      · rintro c (_ | ⟨_, hc⟩)
        · exact hb
        · exact hall c hc

end

end Bytes
