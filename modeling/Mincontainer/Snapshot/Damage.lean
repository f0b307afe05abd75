import Mincontainer.Snapshot.RoundTrip
import Mincontainer.Snapshot.Serial

set_option relaxedAutoImplicit false
set_option autoImplicit false

/-!
# Damage that is always detected

A snapshot ends in the checksum of everything before it. Two accepted files of the same length
leave the register in the same state once it has taken the stored checksum as well, and a register
keeps apart what differs within four bytes. So a file that differs from an accepted one within four
bytes, wherever they lie, is refused.

## Main definitions

* `Mincontainer.SnapshotReader.accept` — open a snapshot and verify it.
* `Mincontainer.SnapshotReader.Opened` — what `open` has found in the bytes of a file.
* `Mincontainer.Snapshot.Sealed` — the bytes end in the checksum of those before.

## Main results

* `Mincontainer.Snapshot.eq_of_sealed` — sealed files that agree outside four bytes are equal.
* `Mincontainer.SnapshotReader.damage_refused` — localised damage is refused.
-/

namespace Mincontainer

open Effects Files Bytes Snapshot

namespace Snapshot

/-! ### Sealed files -/

/-- The bytes end in the checksum of those before. -/
def Sealed (b : Bytes) : Prop :=
  4 ≤ b.length ∧ crc32 (b.take (b.length - 4)) = UInt32.ofNat (ofLE (b.drop (b.length - 4)))

/-- The register after a whole file. -/
def register (b : Bytes) : BitVec 32 :=
  (b.map UInt8.toBitVec).foldl (crcStep Crc32.word) 0xFFFFFFFF#32

/-- The register after a sealed file does not depend on the file. -/
lemma exists_residue : ∃ K, ∀ b, Sealed b → register b = K := by
  obtain ⟨K, hK⟩ := foldl_crcStep_residue Crc32.word 4 0#32
  refine ⟨K, fun b ⟨hlen, hcrc⟩ => ?_⟩
  set body := b.take (b.length - 4) with hbody
  set stored := b.drop (b.length - 4) with hstored
  have hfour : stored.length = 4 := by
    rw [hstored, List.length_drop]
    omega
  have hlt : ofLE stored < 2 ^ 32 := by
    have := ofLE_lt stored
    rwa [hfour] at this
  have hbytes : stored.map UInt8.toBitVec = bytesOf 4 (crc32 body).toBitVec := by
    have hnat : (crc32 body).toBitVec.toNat = ofLE stored := by
      rw [hcrc]
      simpa using hlt
    have := toLE_ofLE stored
    rw [hfour] at this
    rw [bytesOf, hnat, this]
  have hfinish : (crc32 body).toBitVec = register body ^^^ 0xFFFFFFFF#32 := by
    rw [crc32, Crc32.finish, UInt32.toBitVec_xor, Crc32.update, Crc32.toBitVec_foldl_step]
    rfl
  have hregister : register b = (bytesOf 4 (crc32 body).toBitVec).foldl (crcStep Crc32.word)
      (0#32 ^^^ register body) := by
    rw [BitVec.zero_xor, ← hbytes, register, register, ← List.foldl_append, ← List.map_append,
      hbody, hstored, List.take_append_drop]
  rw [hregister, hK (register body) _ fun i hi => ?_]
  · apply BitVec.eq_of_getLsbD_eq
    intro i _
    simp
  · have hone : (0xFFFFFFFF#32).getLsbD i = true := by
      have : ∀ i : Fin 32, (0xFFFFFFFF#32).getLsbD i = true := by decide
      exact this ⟨i, hi⟩
    rw [hfinish, BitVec.getLsbD_xor, hone, Bool.xor_true]

/-- **Sealed files.** Sealed files of the same length that agree outside four consecutive bytes are
equal.

**Proof sketch.** Their registers are the same after the last byte, so they are after the four
bytes, as what follows is the same; and before the four bytes, as what precedes is the same. Four
bytes that lead from one register to one register are the same. -/
lemma eq_of_sealed {b b' : Bytes} (hb : Sealed b) (hb' : Sealed b') (hlen : b'.length = b.length)
    {k : ℕ} (hwindow : ∀ i, i < k ∨ k + 4 ≤ i → b'[i]? = b[i]?) : b' = b := by
  obtain ⟨K, hK⟩ := exists_residue
  have hsplit : ∀ l : Bytes, l = l.take k ++ ((l.drop k).take 4 ++ l.drop (k + 4)) := fun l => by
    rw [← List.drop_drop, List.take_append_drop, List.take_append_drop]
  have hbefore : b'.take k = b.take k := by
    apply List.ext_getElem?
    intro i
    simp only [List.getElem?_take]
    split
    · exact hwindow i (.inl ‹_›)
    · rfl
  have hafter : b'.drop (k + 4) = b.drop (k + 4) := by
    apply List.ext_getElem?
    intro i
    simp only [List.getElem?_drop]
    exact hwindow _ (.inr (by omega))
  have hreg : register b' = register b := (hK b' hb').trans (hK b hb).symm
  rw [hsplit b', hsplit b, hbefore, hafter] at hreg
  simp only [register, List.map_append, List.foldl_append] at hreg
  have hwin := foldl_crcStep_burst Crc32.topInjective_word (by simp [hlen]) (by simp)
    (foldl_crcStep_injective Crc32.topInjective_word hreg)
  have hinj : Function.Injective UInt8.toBitVec := fun _ _ => UInt8.toBitVec_inj.mp
  rw [hsplit b', hsplit b, hbefore, hafter, List.map_injective_iff.mpr hinj hwin]

end Snapshot

/-! ### Refusing -/

namespace SnapshotReader

/-- Open a snapshot and verify it. -/
def accept (codec : Codec Manifest) (path : Path) : HostM Unit := do
  let r ← SnapshotReader.open codec path
  r.verify

/-- What `open` has found in the bytes of a file. -/
structure Opened (codec : Codec Manifest) (path : Path) (b : Bytes) (r : SnapshotReader) : Prop where
  path : r.path = path
  file : r.file = b
  long : 24 ≤ b.length
  manifest : codec.decode ((b.drop 12).take (ofLE ((b.drop 8).take 4))) = .ok r.manifest
  start : r.payloadStart = 12 + ofLE ((b.drop 8).take 4)
  order : r.payloadStart ≤ r.payloadEnd
  ends : r.payloadEnd + 12 = b.length
  trailer : (b.drop r.payloadEnd).take 8 = Snapshot.trailer
  storedCrc : r.storedCrc = UInt32.ofNat (ofLE (b.drop (b.length - 4)))

/-- An opened snapshot has passed all checks of `open`. -/
lemma openBytes_ok {codec : Codec Manifest} {path : Path} {shown : String} {b : Bytes}
    {r : SnapshotReader} (h : openBytes codec path shown b = .ok r) : Opened codec path b r := by
  simp only [openBytes, length_magic, length_trailer] at h
  split at h
  · cases h
  split at h
  · cases h
  split at h
  · cases h
  split at h
  · cases h
  split at h
  · cases h
  split at h
  · cases h
  split at h
  · cases h
  split at h
  · cases h
  rename_i hlong _ _ _ _ _ _ hm horder htr
  obtain rfl := Except.ok.inj h
  have hcrc : (b.drop (b.length - 12 + 8)).take 4 = b.drop (b.length - 4) := by
    rw [show b.length - 12 + 8 = b.length - 4 by omega, List.take_of_length_le]
    rw [List.length_drop]
    omega
  exact ⟨rfl, rfl, by omega, hm, rfl, not_lt.mp horder, by simp; omega, not_not.mp htr,
    by simp [hcrc]⟩

section

variable {R : Host → Host → Prop} {codec : Codec Manifest} {path : Path} {h h' : Host}
  {tr : List HostSig.Event} {c : Content}

/-- What `open` returns is what it has found in the file. -/
lemma open_ok {r : SnapshotReader} (hk : Keeps R path) (hc : h.file path = some c)
    (hrun : Runs R (SnapshotReader.open codec path) h tr (some (.ok r)) h') :
    Opened codec path c.raw r := by
  obtain ⟨reply, tr₁, tr₂, h₁, rfl, hread, hrun₁⟩ := Exec.fallible_bind_ok hrun
  obtain ⟨c', tr₃, tr₄, h₂, rfl, hor, hbytes⟩ := Exec.fallible_bind_ok hrun₁
  obtain rfl : c = c' := Option.some.inj (hc.symm.trans (readFile_ok hk (Exec.bind hread hor)))
  exact openBytes_ok (ofExcept_ok hbytes).2

/-- What `verify` passes has the checksum that is stored. -/
lemma verify_ok {r : SnapshotReader} {u : Unit}
    (hrun : Runs R r.verify h tr (some (.ok u)) h') :
    crc32 (r.file.take (r.payloadEnd + 8)) = r.storedCrc := by
  obtain ⟨h₁, reply, tr₁, hR, hr, rfl, hrun₁⟩ := Exec.call_some_inv hrun
  rcases reply with ⟨chunks, e | e⟩
  · have hspan : chunks.flatten = r.file.take (r.payloadEnd + 8) := (Host.enabled_readSpan.mp hr).2
    change Runs R (if chunks.flatten.length < r.payloadEnd + trailer.length then _ else _) _ _ _ _
      at hrun₁
    split at hrun₁
    · exact (Exec.throw_ok_false hrun₁).elim
    · change Runs R (if (chunks.foldl Crc32.update Crc32.new).finish ≠ r.storedCrc then _ else _)
        _ _ _ _ at hrun₁
      split at hrun₁
      · exact (Exec.throw_ok_false hrun₁).elim
      · rename_i heq
        rw [finish_foldl_update, hspan] at heq
        exact not_not.mp heq
  · exact (Exec.throw_ok_false hrun₁).elim

/-- An accepted file is sealed. -/
lemma accept_ok {u : Unit} (hk : Keeps R path) (hc : h.file path = some c)
    (hrun : Runs R (accept codec path) h tr (some (.ok u)) h') : Sealed c.raw := by
  obtain ⟨r, tr₁, tr₂, h₁, rfl, hopen, hverify⟩ := Exec.fallible_bind_ok hrun
  have ho := open_ok hk hc hopen
  have hcrc := verify_ok hverify
  rw [ho.file, ho.storedCrc, show r.payloadEnd + 8 = c.raw.length - 4 by have := ho.ends; omega] at hcrc
  exact ⟨by have := ho.long; omega, hcrc⟩

lemma accept_answers (codec : Codec Manifest) (path : Path) :
    (accept codec path).run.Within HostOp.answers := by
  refine Fallible.within_bind ?_ fun r => ?_
  · refine Fallible.within_bind ((within_sys (.readFile path)).mpr ⟨rfl, by simp, by simp⟩) fun _ => ?_
    exact Fallible.within_bind (within_orErr _ _) fun _ => within_ofExcept _
  · refine Fallible.within_bind ((within_sys (.readSpan _ _)).mpr ⟨rfl, by simp, by simp⟩) fun read => ?_
    split
    · exact trivial
    · split
      · exact trivial
      · dsimp only
        split <;> exact trivial

end

/-- **Localised damage is always detected.** Let a file that `open` and `verify` accept be damaged
within four consecutive bytes, anywhere in the file. Then opening and verifying the damaged file
can return, and whenever it does it returns an error. -/
theorem damage_refused {R R' : Host → Host → Prop} {codec : Codec Manifest} {path path' : Path}
    {h h' g : Host} {tr : List HostSig.Event} {c c' : Content} {k : ℕ} {u : Unit}
    (hk : Keeps R path) (hk' : Keeps R' path') (hc : h.file path = some c)
    (hc' : g.file path' = some c') (hlen : c'.raw.length = c.raw.length) (hne : c'.raw ≠ c.raw)
    (hwindow : ∀ i, i < k ∨ k + 4 ≤ i → c'.raw[i]? = c.raw[i]?)
    (haccept : Runs R (accept codec path) h tr (some (.ok u)) h') :
    (∃ tr' res g', Runs R' (accept codec path') g tr' (some res) g') ∧
      ∀ tr' res g', Runs R' (accept codec path') g tr' (some res) g' → ∃ e, res = .error e := by
  refine ⟨Runs.returns (accept_answers codec path') g, fun tr' res g' hrun => ?_⟩
  cases res with
  | error e => exact ⟨e, rfl⟩
  | ok u' => exact absurd (eq_of_sealed (accept_ok hk hc haccept) (accept_ok hk' hc' hrun) hlen hwindow) hne

end SnapshotReader

namespace Demo

/-- The snapshot of the container, the one byte of its image changed. -/
def damagedBytes : Bytes := snapshotBytes.set 1069 2

/-- A host that holds a snapshot with these bytes. -/
def hostWith (b : Bytes) : Host := host frozen [(latest.path, .bytes b)] []

lemma hostWith_latest (b : Bytes) : (hostWith b).file latest.path = some (.bytes b) := by
  rw [hostWith, latest_path]
  rfl

end Demo

/-- One changed byte in the snapshot of one container is detected. -/
theorem SnapshotReader.damage_refused_demo :
    (∃ tr' res g', Runs quiet (accept Demo.codec Demo.latest.path)
        (Demo.hostWith Demo.damagedBytes) tr' (some res) g') ∧
      ∀ tr' res g', Runs quiet (accept Demo.codec Demo.latest.path)
        (Demo.hostWith Demo.damagedBytes) tr' (some res) g' → ∃ e, res = .error e := by
  obtain ⟨tr, -, haccept⟩ := (Yields.bind (open_yields Demo.codec_roundTrips Demo.manifest_fits
    (Demo.hostWith_latest Demo.snapshotBytes) rfl)
    (verify_yields Demo.latest.path Demo.manifest _ Demo.entries _)).possible
  have hold : Demo.snapshotBytes[1069]? = some 1 := by decide +kernel
  refine damage_refused (k := 1069) (keeps_quiet _) (keeps_quiet _)
    (Demo.hostWith_latest Demo.snapshotBytes) (Demo.hostWith_latest Demo.damagedBytes) ?_ ?_ ?_ haccept
  · exact List.length_set
  · intro heq
    have hnew : Demo.damagedBytes[1069]? = some 2 := by
      rw [Demo.damagedBytes, List.getElem?_set_self', hold]
      rfl
    have hsame : Demo.damagedBytes[1069]? = Demo.snapshotBytes[1069]? := congrArg (·[1069]?) heq
    rw [hnew, hold] at hsame
    exact absurd hsame (by decide)
  · intro i hi
    exact List.getElem?_set_ne (by omega)

end Mincontainer
