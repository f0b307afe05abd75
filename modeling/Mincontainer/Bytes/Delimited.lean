import Mathlib.Data.List.Infix
import Mathlib.Tactic.Lemma

set_option relaxedAutoImplicit false
set_option autoImplicit false

/-!
# Codes that delimit themselves

A code whose words are told apart at the front of any text. What is written in such a code can be cut
anywhere: the words that are there in full are the first of those that were written.

## Main definitions

* `Bytes.Delimits` — the code words of certain values delimit themselves.

## Main results

* `Bytes.Delimits.words` — the words of a first part of a text are the first words of the text.
-/

namespace Bytes

variable {α β : Type}

/-- The code words of the values that are `P` are not empty, and are told apart at the front of any
text. -/
structure Delimits (code : α → List β) (P : α → Prop) : Prop where
  ne_nil : ∀ a, code a ≠ []
  inj : ∀ a b x y, P a → P b → code a ++ x = code b ++ y → a = b

variable {code : α → List β} {P : α → Prop} {as bs : List α}

/-- **Cut texts.** Words that make up a first part of a text are the first words of the text.

**Proof sketch.** Induction on the words. The first ones of both are at the front of the same text. -/
theorem Delimits.words (h : Delimits code P) (has : ∀ a ∈ as, P a) (hbs : ∀ b ∈ bs, P b)
    (hcut : as.flatMap code <+: bs.flatMap code) : as <+: bs := by
  induction as generalizing bs with
  | nil => exact List.nil_prefix
  | cons a as ih =>
    rw [List.forall_mem_cons] at has
    rw [List.flatMap_cons] at hcut
    cases bs with
    | nil =>
      have hnil := List.append_eq_nil_iff.mp (List.prefix_nil.mp hcut)
      exact absurd hnil.1 (h.ne_nil a)
    | cons b bs =>
      rw [List.forall_mem_cons] at hbs
      rw [List.flatMap_cons] at hcut
      obtain ⟨rest, hrest⟩ := hcut
      rw [List.append_assoc] at hrest
      obtain rfl := h.inj a b _ _ has.1 hbs.1 hrest
      rw [List.prefix_cons_inj]
      exact ih has.2 hbs.2 ⟨rest, List.append_cancel_left hrest⟩

end Bytes
