import Mathlib.Data.List.TakeWhile
import Mathlib.Algebra.Order.Ring.Nat
import Mathlib.Tactic.Ring

set_option relaxedAutoImplicit false
set_option autoImplicit false

/-!
# Taking text apart

Splitting a list once at a separator or into chunks of one length, and numbers in hexadecimal: how
they are printed with a fixed number of digits, and how they are read.

## Main definitions

* `Bytes.splitOnce`, `Bytes.rsplitOnce` — split at the first, or the last, occurrence.
* `Bytes.chunks` — chunks of one length, the last one shorter.
* `Bytes.upperHex` — a number in upper-case hexadecimal, padded with zeros.
* `Bytes.fromHex` — read an unsigned number of a given width in hexadecimal.

## Main results

* `Bytes.splitOnce_append`, `Bytes.rsplitOnce_append` — where a list is split.
* `Bytes.chunks_append` — a block of the right length is the first chunk.
* `Bytes.exists_chunks` — a list of the right length is made up of its chunks.
* `Bytes.fromHex_upperHex` — a printed number is read back.
-/

namespace Bytes

section Split

variable {α : Type*} [DecidableEq α]

/-- Split at the first `c`; there may be none. -/
def splitOnce (c : α) (l : List α) : Option (List α × List α) :=
  match l.dropWhile (· ≠ c) with
  | [] => none
  | _ :: rest => some (l.takeWhile (· ≠ c), rest)

/-- Split at the last `c`; there may be none. -/
def rsplitOnce (c : α) (l : List α) : Option (List α × List α) :=
  (splitOnce c l.reverse).map fun halves => (halves.2.reverse, halves.1.reverse)

/-- A list is split at the first occurrence. -/
lemma splitOnce_append {c : α} {l : List α} (rest : List α) (h : c ∉ l) :
    splitOnce c (l ++ c :: rest) = some (l, rest) := by
  have hne : ∀ a ∈ l, decide (a ≠ c) = true := by
    intro a ha
    exact decide_eq_true (ne_of_mem_of_not_mem ha h)
  have hdrop : (l ++ c :: rest).dropWhile (· ≠ c) = c :: rest := by
    rw [List.dropWhile_append_of_pos hne, List.dropWhile_cons_of_neg (by simp)]
  have htake : (l ++ c :: rest).takeWhile (· ≠ c) = l := by
    rw [List.takeWhile_append_of_pos hne, List.takeWhile_cons_of_neg (by simp), List.append_nil]
  unfold splitOnce
  rw [hdrop, htake]

/-- A list is split at the last occurrence. -/
lemma rsplitOnce_append {c : α} {l : List α} (front : List α) (h : c ∉ l) :
    rsplitOnce c (front ++ c :: l) = some (front, l) := by
  have hrev : (front ++ c :: l).reverse = l.reverse ++ c :: front.reverse := by simp
  unfold rsplitOnce
  rw [hrev, splitOnce_append _ (by simpa using h)]
  simp

end Split

section Chunks

variable {α : Type*}

/-- Chunks of `n` elements, the last one shorter where the length is no multiple of `n`. -/
def chunks (n : ℕ) (l : List α) : List (List α) :=
  (List.range ((l.length + n - 1) / n)).map fun i => (l.drop (i * n)).take n

lemma chunks_nil {n : ℕ} (hn : 0 < n) : chunks n ([] : List α) = [] := by
  have hzero : (([] : List α).length + n - 1) / n = 0 := by
    rw [List.length_nil]
    exact Nat.div_eq_of_lt (by omega)
  rw [chunks, hzero, List.range_zero, List.map_nil]

/-- A block of the right length is the first chunk. -/
lemma chunks_append {n : ℕ} (hn : 0 < n) {block : List α} (rest : List α) (h : block.length = n) :
    chunks n (block ++ rest) = block :: chunks n rest := by
  have hcount : ((block ++ rest).length + n - 1) / n = (rest.length + n - 1) / n + 1 := by
    rw [List.length_append, h, ← Nat.add_div_right _ hn]
    congr 1
    omega
  have hnext : ∀ i, (block ++ rest).drop ((i + 1) * n) = rest.drop (i * n) := by
    intro i
    have hpos : (i + 1) * n = block.length + i * n := by
      rw [h]
      ring
    rw [hpos, List.drop_length_add_append]
  unfold chunks
  rw [hcount, List.range_succ_eq_map, List.map_cons, List.map_map]
  congr 1
  · rw [Nat.zero_mul, List.drop_zero, ← h, List.take_left]
  · apply List.map_congr_left
    intro i _
    rw [Function.comp_apply, hnext]

/-- Blocks of the right length are the chunks of what they make up. -/
lemma chunks_flatten {n : ℕ} (hn : 0 < n) {blocks : List (List α)}
    (h : ∀ block ∈ blocks, block.length = n) : chunks n blocks.flatten = blocks := by
  induction blocks with
  | nil => exact chunks_nil hn
  | cons block blocks ih =>
    rw [List.flatten_cons, chunks_append hn _ (h block List.mem_cons_self),
      ih fun b hb => h b (List.mem_cons_of_mem _ hb)]

/-- **Whole chunks.** A list of `k * n` elements is made up of `k` chunks of length `n`.

**Proof sketch.** Induction on `k`: the first `n` elements are the first chunk. -/
lemma exists_chunks {n : ℕ} (hn : 0 < n) (k : ℕ) {l : List α} (h : l.length = k * n) :
    (chunks n l).length = k ∧ (∀ block ∈ chunks n l, block.length = n) ∧ (chunks n l).flatten = l := by
  induction k generalizing l with
  | zero =>
    have hnil : l = [] := List.length_eq_zero_iff.mp (by omega)
    rw [hnil, chunks_nil hn]
    exact ⟨rfl, List.forall_mem_nil _, rfl⟩
  | succ k ih =>
    rw [Nat.add_mul, Nat.one_mul] at h
    have hfirst : (l.take n).length = n := by
      rw [List.length_take]
      omega
    have hrest : (l.drop n).length = k * n := by
      rw [List.length_drop]
      omega
    obtain ⟨hlen, hblocks, hflat⟩ := ih hrest
    have hchunks : chunks n l = l.take n :: chunks n (l.drop n) := by
      rw [← chunks_append hn _ hfirst, List.take_append_drop]
    rw [hchunks]
    refine ⟨by rw [List.length_cons, hlen], ?_, ?_⟩
    · exact List.forall_mem_cons.mpr ⟨hfirst, hblocks⟩
    · rw [List.flatten_cons, hflat, List.take_append_drop]

end Chunks

/-! ### Hexadecimal -/

/-- The value of a hexadecimal digit of either case. -/
def hexValue (c : Char) : Option ℕ :=
  if '0' ≤ c ∧ c ≤ '9' then some (c.toNat - 48)
  else if 'a' ≤ c ∧ c ≤ 'f' then some (c.toNat - 87)
  else if 'A' ≤ c ∧ c ≤ 'F' then some (c.toNat - 55)
  else none

/-- The number that digits stand for, the highest first. -/
def ofHexDigits (ds : List ℕ) : ℕ := ds.foldl (fun n d => 16 * n + d) 0

/-- Read an unsigned number of `bits` bits in hexadecimal: an optional plus sign and at least one
digit, of a number that fits. -/
def fromHex (bits : ℕ) (text : List Char) : Option ℕ :=
  let digits := if text.head? = some '+' then text.tail else text
  if digits = [] then none
  else (digits.mapM hexValue).bind fun ds =>
    if ofHexDigits ds < 2 ^ bits then some (ofHexDigits ds) else none

/-- A digit below sixteen, in upper case. -/
def upperDigit (d : ℕ) : Char := (Nat.digitChar d).toUpper

/-- The `k` low digits of a number in upper-case hexadecimal. -/
def upperHex : ℕ → ℕ → List Char
  | 0, _ => []
  | k + 1, n => upperHex k (n / 16) ++ [upperDigit (n % 16)]

lemma hexValue_upperDigit {d : ℕ} (h : d < 16) : hexValue (upperDigit d) = some d := by
  have hall : ∀ d < 16, hexValue (upperDigit d) = some d := by decide
  exact hall d h

@[simp] lemma length_upperHex (k n : ℕ) : (upperHex k n).length = k := by
  induction k generalizing n with
  | zero => rfl
  | succ k ih => simp [upperHex, ih]

/-- Only digits are printed. -/
lemma hexValue_of_mem_upperHex {k n : ℕ} {c : Char} (h : c ∈ upperHex k n) :
    ∃ d, hexValue c = some d := by
  induction k generalizing n with
  | zero => cases h
  | succ k ih =>
    unfold upperHex at h
    rcases List.mem_append.mp h with h | h
    · exact ih h
    · rw [List.mem_singleton.mp h]
      exact ⟨_, hexValue_upperDigit (Nat.mod_lt n (by omega))⟩

lemma not_mem_upperHex {c : Char} (hc : hexValue c = none) (k n : ℕ) : c ∉ upperHex k n := by
  intro h
  obtain ⟨d, hd⟩ := hexValue_of_mem_upperHex h
  rw [hc] at hd
  cases hd

/-- The digits printed are those of the number, truncated to the width.

**Proof sketch.** Induction on the width: the last digit is `n % 16` and the others print
`n / 16`. -/
lemma mapM_upperHex (k n : ℕ) :
    ∃ ds, (upperHex k n).mapM hexValue = some ds ∧ ofHexDigits ds = n % 16 ^ k := by
  induction k generalizing n with
  | zero => exact ⟨[], rfl, by simp [ofHexDigits, Nat.mod_one]⟩
  | succ k ih =>
    obtain ⟨ds, hds, hvalue⟩ := ih (n / 16)
    refine ⟨ds ++ [n % 16], ?_, ?_⟩
    · rw [upperHex, List.mapM_append, hds]
      simp [hexValue_upperDigit (Nat.mod_lt n (show 0 < 16 by omega))]
    · have hlast : ofHexDigits (ds ++ [n % 16]) = 16 * ofHexDigits ds + n % 16 := by
        simp [ofHexDigits]
      rw [hlast, hvalue, pow_succ, Nat.mul_comm (16 ^ k) 16, Nat.mod_mul]
      omega

/-- **A printed number is read back**, at every width that it fits. -/
lemma fromHex_upperHex {bits k n : ℕ} (hk : 0 < k) (hn : n < 16 ^ k) (hbits : n < 2 ^ bits) :
    fromHex bits (upperHex k n) = some n := by
  have hsign : (upperHex k n).head? ≠ some '+' := by
    intro h
    exact not_mem_upperHex (by decide) k n (List.mem_of_mem_head? h)
  have hne : upperHex k n ≠ [] := by
    intro h
    have := length_upperHex k n
    rw [h, List.length_nil] at this
    omega
  obtain ⟨ds, hds, hvalue⟩ := mapM_upperHex k n
  rw [Nat.mod_eq_of_lt hn] at hvalue
  unfold fromHex
  rw [if_neg hsign, if_neg hne, hds, Option.bind_some, hvalue, if_pos hbits]

end Bytes
