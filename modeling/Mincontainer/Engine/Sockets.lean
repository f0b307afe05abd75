import Mathlib.Data.List.Basic
import Mincontainer.Bytes.Endian
import Mincontainer.Bytes.Text
import Mincontainer.State.Text

set_option relaxedAutoImplicit false
set_option autoImplicit false

/-!
# The addresses of sockets

Before a checkpoint the established connections of a container are read from procfs, and the
addresses that are found there are decoded for a message. The kernel prints an address word by
word: the four bytes of each, which are in network order, are taken as a number in the order of the
host, and that number is printed in hexadecimal. The port is printed in hexadecimal as it is.

The host is little-endian here, as `format_addr` assumes.

## Main definitions

* `Mincontainer.formatAddr` — decode an address.
* `Mincontainer.SocketAddress` — the octets of an address in network order, and a port.
* `Mincontainer.SocketAddress.procfs` — what the kernel prints.
* `Mincontainer.SocketAddress.dotted`, `Mincontainer.SocketAddress.bracketed` — how an address is
  written.

## Main results

* `Mincontainer.formatAddr_procfs` — decoding inverts the printing.
-/

namespace Mincontainer

open Bytes

/-! ### Decoding -/

/-- Swap the four bytes of a 32-bit number. -/
def swapBytes (v : ℕ) : ℕ := ofBE (toLE 4 v)

/-- A number in lower-case hexadecimal, without leading zeros. -/
def lowerHex (n : ℕ) : String := String.ofList (Nat.toDigits 16 n)

/-- The groups of one printed word: each 32-bit word is little-endian. What is not a number gives
none. -/
def wordGroups (chunk : Bytes) : List String :=
  let word := (String.fromUTF8? ⟨chunk.toArray⟩).getD "0"
  match fromHex 32 word.toList with
  | some v =>
    let be := swapBytes v
    [lowerHex ((be >>> 16) % 2 ^ 16), lowerHex ((be &&& 0xFFFF) % 2 ^ 16)]
  | none => []

/-- Decode procfs's hex `ADDRESS:PORT` form. -/
def formatAddr (raw : String) (v6 : Bool) : String :=
  match splitOnce ':' raw.toList with
  | none => raw
  | some (addr, port) =>
    let port := toString ((fromHex 16 port).getD 0)
    if v6 then
      let groups := (chunks 8 (utf8 (String.ofList addr))).flatMap wordGroups
      "[" ++ ":".intercalate groups ++ "]:" ++ port
    else
      match fromHex 32 addr with
      | some v =>
        -- the little-endian bytes are the octets in network order
        ".".intercalate ((toLE 4 v).map fun b => toString b.toNat) ++ ":" ++ port
      | none => String.ofList addr ++ ":" ++ port

/-! ### Printing -/

/-- An address of `n` octets in network order, and a port. -/
structure SocketAddress (n : ℕ) where
  octets : Bytes
  port : UInt16
  length_octets : octets.length = n

namespace SocketAddress

variable {n : ℕ}

/-- What the kernel of a little-endian host prints: each word of the address as a number in the
order of the host, in eight digits, and the port in four. -/
def procfs (a : SocketAddress n) : String :=
  String.ofList ((chunks 4 a.octets).flatMap (fun word => upperHex 8 (ofLE word)) ++
    ':' :: upperHex 4 a.port.toNat)

/-- The octets in decimal and the port. -/
def dotted (a : SocketAddress n) : String :=
  ".".intercalate (a.octets.map fun b => toString b.toNat) ++ ":" ++ toString a.port.toNat

/-- The 16-bit groups in hexadecimal, in brackets, and the port. -/
def bracketed (a : SocketAddress n) : String :=
  "[" ++ ":".intercalate ((chunks 2 a.octets).map fun group => lowerHex (ofBE group)) ++ "]:" ++
    toString a.port.toNat

end SocketAddress

/-! ### Decoding inverts printing -/

/-- What the kernel prints is split into address and port again. -/
lemma splitOnce_procfs (words : List Bytes) (port : List Char) :
    splitOnce ':' (words.flatMap (fun word => upperHex 8 (ofLE word)) ++ ':' :: port) =
      some (words.flatMap fun word => upperHex 8 (ofLE word), port) := by
  apply splitOnce_append
  intro hmem
  obtain ⟨word, -, hword⟩ := List.mem_flatMap.mp hmem
  exact not_mem_upperHex (by decide) 8 (ofLE word) hword

/-- The port is read back. -/
lemma fromHex_port (port : UInt16) : fromHex 16 (upperHex 4 port.toNat) = some port.toNat := by
  have hlt : port.toNat < 65536 := port.toNat_lt
  exact fromHex_upperHex (by omega) (by omega) (by omega)

/-- A word is read back as the number that its bytes are in the order of the host. -/
lemma fromHex_word {word : Bytes} (h : word.length = 4) :
    fromHex 32 (upperHex 8 (ofLE word)) = some (ofLE word) := by
  have hlt := ofLE_lt word
  rw [h] at hlt
  exact fromHex_upperHex (by omega) (by omega) (by omega)

/-- Digits take one byte each. -/
lemma length_utf8_upperHex (k n : ℕ) : (utf8 (String.ofList (upperHex k n))).length = k := by
  have hdigit : ∀ d < 16, (utf8 (String.ofList [upperDigit d])).length = 1 := by decide
  induction k generalizing n with
  | zero => rfl
  | succ k ih =>
    rw [upperHex, String.ofList_append, utf8_append, List.length_append, ih,
      hdigit _ (Nat.mod_lt n (by omega))]

/-- The printed words lie one behind the other. -/
lemma utf8_flatMap_upperHex (words : List Bytes) :
    utf8 (String.ofList (words.flatMap fun word => upperHex 8 (ofLE word))) =
      (words.map fun word => utf8 (String.ofList (upperHex 8 (ofLE word)))).flatten := by
  induction words with
  | nil => rfl
  | cons word words ih =>
    rw [List.flatMap_cons, String.ofList_append, utf8_append, ih, List.map_cons, List.flatten_cons]

/-- A word is two groups. -/
lemma chunks_word (a b c d : UInt8) (rest : Bytes) :
    chunks 2 (a :: b :: c :: d :: rest) = [a, b] :: [c, d] :: chunks 2 rest := by
  have hfirst : chunks 2 ([a, b] ++ ([c, d] ++ rest)) = [a, b] :: chunks 2 ([c, d] ++ rest) :=
    chunks_append Nat.two_pos _ rfl
  have hsecond : chunks 2 ([c, d] ++ rest) = [c, d] :: chunks 2 rest :=
    chunks_append Nat.two_pos _ rfl
  rw [← hsecond, ← hfirst]
  rfl

/-- **One word.** Its bytes are swapped back into network order, and its two groups come out in
that order. -/
lemma wordGroups_upperHex {word : Bytes} (h : word.length = 4) :
    wordGroups (utf8 (String.ofList (upperHex 8 (ofLE word)))) =
      (chunks 2 word).map fun group => lowerHex (ofBE group) := by
  have hswap : swapBytes (ofLE word) = ofBE word := by
    rw [swapBytes, ← h, toLE_ofLE]
  have hmask : ∀ m : ℕ, m &&& 0xFFFF = m % 2 ^ 16 := fun m => Nat.and_two_pow_sub_one_eq_mod m 16
  unfold wordGroups
  rw [fromUTF8?_utf8, Option.getD_some]
  dsimp only
  rw [String.toList_ofList, fromHex_word h]
  dsimp only
  rw [hswap, hmask, Nat.shiftRight_eq_div_pow]
  obtain ⟨a, b, c, d, rfl⟩ := List.length_eq_four.mp h
  have hlt : ∀ x : UInt8, x.toNat < 256 := fun x => x.toNat_lt
  have hhigh : ofBE [a, b, c, d] / 2 ^ 16 % 2 ^ 16 = ofBE [a, b] := by
    have := hlt a; have := hlt b; have := hlt c; have := hlt d
    simp only [ofBE, List.reverse_cons, List.reverse_nil, List.nil_append, List.cons_append, ofLE]
    omega
  have hlow : ofBE [a, b, c, d] % 2 ^ 16 % 2 ^ 16 = ofBE [c, d] := by
    have := hlt c; have := hlt d
    simp only [ofBE, List.reverse_cons, List.reverse_nil, List.nil_append, List.cons_append, ofLE]
    omega
  rw [hhigh, hlow, chunks_word, chunks_nil Nat.two_pos]
  rfl

/-- The groups of the words of an address are the groups of the address. -/
lemma flatMap_wordGroups {words : List Bytes} (h : ∀ word ∈ words, word.length = 4) :
    (words.map fun word => utf8 (String.ofList (upperHex 8 (ofLE word)))).flatMap wordGroups =
      (chunks 2 words.flatten).map fun group => lowerHex (ofBE group) := by
  induction words with
  | nil => rw [List.flatten_nil, chunks_nil (by omega)]; rfl
  | cons word words ih =>
    have hword := h word List.mem_cons_self
    obtain ⟨a, b, c, d, rfl⟩ := List.length_eq_four.mp hword
    have hsplit : chunks 2 ([a, b, c, d] ++ words.flatten) =
        chunks 2 [a, b, c, d] ++ chunks 2 words.flatten := by
      rw [chunks_word, chunks_nil Nat.two_pos]
      exact chunks_word a b c d words.flatten
    rw [List.map_cons, List.flatMap_cons, wordGroups_upperHex hword,
      ih fun w hw => h w (List.mem_cons_of_mem _ hw), List.flatten_cons, hsplit, List.map_append]

/-- **Decoding inverts procfs.** What the kernel of a little-endian host prints of an IPv4 address
is decoded to its octets in network order, and what it prints of an IPv6 address to its groups.

**Proof sketch.** Neither the digits nor the words contain a colon, so that the port is split off.
An IPv4 address is one word, whose little-endian bytes are the octets. The words of an IPv6 address
are cut apart at eight digits each, and each gives its two groups. -/
theorem formatAddr_procfs :
    (∀ a : SocketAddress 4, formatAddr a.procfs false = a.dotted) ∧
      ∀ a : SocketAddress 16, formatAddr a.procfs true = a.bracketed := by
  constructor
  · intro a
    have hone : chunks 4 a.octets = [a.octets] := by
      have h := chunks_append (by omega : 0 < 4) [] a.length_octets
      rwa [List.append_nil, chunks_nil (by omega)] at h
    unfold formatAddr SocketAddress.procfs
    rw [String.toList_ofList, splitOnce_procfs]
    dsimp only
    rw [fromHex_port, hone, List.flatMap_singleton, fromHex_word a.length_octets]
    dsimp only
    have hoctets : toLE 4 (ofLE a.octets) = a.octets := by
      have h := toLE_ofLE a.octets
      rwa [a.length_octets] at h
    rw [hoctets, Option.getD_some]
    rfl
  · intro a
    obtain ⟨-, hwords, hflat⟩ :=
      exists_chunks (by omega : 0 < 4) 4 (show a.octets.length = 4 * 4 from a.length_octets)
    have height : ∀ block ∈ (chunks 4 a.octets).map fun word =>
        utf8 (String.ofList (upperHex 8 (ofLE word))), block.length = 8 := by
      intro block hblock
      obtain ⟨word, -, rfl⟩ := List.mem_map.mp hblock
      exact length_utf8_upperHex 8 _
    unfold formatAddr SocketAddress.procfs
    rw [String.toList_ofList, splitOnce_procfs]
    dsimp only
    rw [fromHex_port, utf8_flatMap_upperHex, chunks_flatten (by omega) height,
      flatMap_wordGroups hwords, hflat, Option.getD_some]
    rfl

/-- 10.66.0.2:8080, and 2001:db8::1:443, whose words all differ. -/
example : formatAddr "0200420A:1F90" false = "10.66.0.2:8080" ∧
    formatAddr "B80D0120000000000000000001000000:01BB" true = "[2001:db8:0:0:0:0:0:1]:443" := by
  decide +kernel

end Mincontainer
