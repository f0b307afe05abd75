import Mincontainer.Bytes.ReadLoop
import Mincontainer.Snapshot.Damage

set_option relaxedAutoImplicit false
set_option autoImplicit false

/-!
# What is accepted

`open` and `verify` together accept the files that are framed as a snapshot and end in the checksum of
what comes before it, and no others. Here they are followed down to their machine words and single
reads: no length or offset that they compute leaves its word, and the loop that takes the checksum ends.

## Main definitions

* `Mincontainer.Snapshot.Framed`, `Mincontainer.Snapshot.WellFramed` — the shape of an accepted file.
* `Mincontainer.SnapshotReader.openChecked` — `open` in words of 64 bits.
* `Mincontainer.SnapshotReader.verifyReads` — `verify` read by read.

## Main results

* `Mincontainer.SnapshotReader.openBytes_ok_iff` — what is opened.
* `Mincontainer.SnapshotReader.openChecked_eq` — no computation of `open` leaves its word.
* `Mincontainer.SnapshotReader.accepted_exact` — what is accepted, and that nothing goes wrong on the
  way.
-/

namespace Mincontainer

open Effects Files Bytes Snapshot

namespace Snapshot

/-! ### The shape of a file -/

/-- The length that the file states for its manifest. -/
def manifestLength (b : Bytes) : ℕ := ofLE ((b.drop 8).take 4)

/-- The file is framed as a snapshot. -/
structure Framed (codec : Codec Manifest) (b : Bytes) : Prop where
  long : 24 ≤ b.length
  magic : Snapshot.magic <+: b
  bounded : manifestLength b ≤ maxManifest
  fits : 12 + manifestLength b ≤ b.length - 12
  manifest : ∃ m, codec.decode ((b.drop 12).take (manifestLength b)) = .ok m
  trailer : (b.drop (b.length - 12)).take 8 = Snapshot.trailer

/-- It is framed, and ends in the checksum of what comes before it. -/
structure WellFramed (codec : Codec Manifest) (b : Bytes) : Prop extends Framed codec b where
  checksum : ofLE (b.drop (b.length - 4)) = (crc32 (b.take (b.length - 4))).toNat

/-- The two tests of the first bytes come down to one. -/
lemma take_eight_iff {b : Bytes} : b.take 8 = magic ↔ magic <+: b := by
  rw [List.prefix_iff_eq_take, length_magic, eq_comm]

end Snapshot

namespace SnapshotReader

section

variable {codec : Codec Manifest} {path : Path} {shown : String} {b : Bytes} {r : SnapshotReader}

/-- **What is opened**: the files that are framed as a snapshot.

**Proof sketch.** Each test of `open` is one of the conditions, or follows from two of them. -/
lemma openBytes_ok_iff : (∃ r, openBytes codec path shown b = .ok r) ↔ Framed codec b := by
  constructor
  · rintro ⟨r, h⟩
    have ho := openBytes_ok h
    simp only [openBytes, length_magic, length_trailer] at h
    split at h
    · cases h
    split at h
    · cases h
    split at h
    · cases h
    rename_i hmagic
    split at h
    · cases h
    rename_i hlength
    have hstart := ho.start
    have hends := ho.ends
    have horder := ho.order
    refine ⟨ho.long, take_eight_iff.mp (not_not.mp hmagic), ?_, ?_, ⟨_, ho.manifest⟩, ?_⟩
    · exact not_lt.mp (not_or.mp hlength).1
    · rw [manifestLength]
      omega
    · rw [show b.length - 12 = r.payloadEnd by omega]
      exact ho.trailer
  · intro hf
    have hlong := hf.long
    have hfits := hf.fits
    have hbounded := hf.bounded
    obtain ⟨m, hm⟩ := hf.manifest
    have hmagic : b.take 8 = magic := take_eight_iff.mpr hf.magic
    rw [manifestLength] at hfits hbounded hm
    simp only [openBytes, length_magic, length_trailer]
    rw [if_neg (by omega), hmagic, if_neg (not_not.mpr magic_take), if_neg (not_not.mpr rfl),
      if_neg (by omega), if_neg (by omega), hm]
    dsimp only
    rw [if_neg (by omega), if_neg (not_not.mpr hf.trailer)]
    exact ⟨_, rfl⟩

/-- The stored checksum is the one that is computed. -/
lemma checksum_iff (ho : Opened codec path b r) :
    crc32 (r.file.take (r.payloadEnd + 8)) = r.storedCrc ↔
      ofLE (b.drop (b.length - 4)) = (crc32 (b.take (b.length - 4))).toNat := by
  have hends := ho.ends
  have hlong := ho.long
  rw [ho.file, ho.storedCrc, show r.payloadEnd + 8 = b.length - 4 by omega]
  have hlt : ofLE (b.drop (b.length - 4)) < 2 ^ 32 := by
    have := ofLE_lt (b.drop (b.length - 4))
    rwa [List.length_drop, show b.length - (b.length - 4) = 4 by omega] at this
  constructor
  · intro h
    rw [h, UInt32.toNat_ofNat_of_lt' hlt]
  · intro h
    rw [h, UInt32.ofNat_toNat]

/-! ### Words of 64 bits -/

/-- `open`, with its lengths and offsets in words of 64 bits. -/
def openChecked (codec : Codec Manifest) (path : Path) (shown : String) (file : Bytes) :
    Option (Except RuntimeError SnapshotReader) := do
  let total := file.length
  let head ← checkedAdd magic.length 4
  let tail ← checkedAdd trailer.length 4
  let least ← checkedAdd head tail
  if total < least then
    return .error (.snapshot s!"{shown}: too small to be a snapshot ({total} bytes)")
  else
    let m := file.take 8
    if m.take 6 ≠ utf8 "MCSNAP" then
      return .error (.snapshot s!"{shown}: not a mincontainer snapshot (bad magic)")
    else if m ≠ magic then
      return .error (.snapshot
        s!"{shown}: snapshot format v{m.getD 7 0}, this build reads v{formatVersion}")
    else
      let mlen := ofLE ((file.drop 8).take 4)
      if mlen > maxManifest ∨ mlen > total then
        return .error (.snapshot
          s!"implausible manifest length {mlen} (file is {total} bytes) — snapshot is corrupt")
      else if total < 12 + mlen then
        return .error (.snapshot "read manifest: failed to fill whole buffer")
      else
        match codec.decode ((file.drop 12).take mlen) with
        | .error e =>
          return .error (.snapshot s!"manifest is not valid JSON — snapshot is corrupt: {e}")
        | .ok manifest =>
          let payloadStart ← checkedAdd head mlen
          let payloadEnd ← checkedSub total tail
          if payloadEnd < payloadStart then
            return .error (.snapshot "truncated snapshot: payload ends before it begins")
          else if (file.drop payloadEnd).take 8 ≠ trailer then
            return .error (.snapshot "missing trailer — snapshot is truncated or corrupt")
          else
            return .ok ⟨path, file, manifest, payloadStart, payloadEnd,
              UInt32.ofNat (ofLE ((file.drop (payloadEnd + 8)).take 4))⟩

/-- **No computation of `open` leaves its word.**

**Proof sketch.** A manifest is not longer than 8 MiB, and a file that is not too small is longer than
what is subtracted from its length. -/
lemma openChecked_eq : openChecked codec path shown b = some (openBytes codec path shown b) := by
  have htwelve : checkedAdd 8 4 = some 12 := rfl
  have hleast : checkedAdd 12 12 = some 24 := rfl
  have hsum : 8 + 4 + 8 + 4 = 24 := rfl
  simp only [openChecked, openBytes, length_magic, length_trailer, htwelve, hleast, hsum,
    Option.bind_eq_bind, Option.bind_some, Option.pure_def]
  by_cases hlong : b.length < 24
  · rw [if_pos hlong, if_pos hlong]
  rw [if_neg hlong, if_neg hlong]
  split
  · rfl
  split
  · rfl
  split
  · rfl
  rename_i hbounded
  split
  · rfl
  have hstart : checkedAdd 12 (ofLE ((b.drop 8).take 4)) = some (12 + ofLE ((b.drop 8).take 4)) := by
    refine checkedAdd_of_lt (lt_of_le_of_lt ?_ (show 12 + maxManifest < 2 ^ 64 by decide))
    exact Nat.add_le_add_left (not_lt.mp (not_or.mp hbounded).1) 12
  have hend : checkedSub b.length 12 = some (b.length - 12) := checkedSub_of_le (by omega)
  cases codec.decode ((b.drop 12).take (ofLE ((b.drop 8).take 4))) with
  | error e => rfl
  | ok m =>
    simp only [hstart, hend, Option.bind_some]
    split
    · rfl
    · split <;> rfl

/-! ### The checksum, read by read -/

/-- What the buffer of `verify` holds. -/
def bufferSize : ℕ := 256 * 1024

/-- Compare the computed checksum with the stored one. -/
def checkCrc (r : SnapshotReader) (got : UInt32) : Except RuntimeError Unit :=
  if got ≠ r.storedCrc then
    .error (.snapshot
      s!"checksum mismatch: file says {hex8 r.storedCrc}, computed {hex8 got} — snapshot is corrupt")
  else
    .ok ()

/-- `verify`, with its counts in words of 64 bits, from the replies of its reads. -/
def verifyReads (r : SnapshotReader) (rs : List (Except String Bytes)) :
    Reading (Except RuntimeError Unit) :=
  match checkedAdd r.payloadEnd trailer.length with
  | none => .overflow
  | some remaining =>
    match readLoop Crc32.update remaining Crc32.new rs with
    | .pending => .pending
    | .overflow => .overflow
    | .failed e => .done (.error (.snapshot s!"read: {e}"))
    | .truncated => .done (.error (.snapshot "truncated snapshot"))
    | .done crc => .done (r.checkCrc crc.finish)

/-- `open` and then `verify`. -/
def acceptReads (codec : Codec Manifest) (path : Path) (shown : String) (file : Bytes)
    (rs : List (Except String Bytes)) : Reading (Except RuntimeError Unit) :=
  match openChecked codec path shown file with
  | none => .overflow
  | some (.error e) => .done (.error e)
  | some (.ok r) => verifyReads r rs

variable {R : Host → Host → Prop} {h h' : Host} {tr : List HostSig.Event} {c : Content}
  {rs : List (Except String Bytes)}

/-- Passing a result on. -/
lemma ofExcept_returns {α : Type} {x res : Except RuntimeError α}
    (hrun : Runs R (ofExcept x) h tr (some res) h') : res = x := by
  cases x with
  | error e => exact (Exec.ret_some_inv hrun).2.2
  | ok a => exact (Exec.ret_some_inv hrun).2.2

lemma ofExcept_run {α : Type} (x : Except RuntimeError α) :
    Runs R (ofExcept x) h [] (some x) h := by
  cases x with
  | error e => exact .ret _ _
  | ok a => exact .ret _ _

/-- What `open` returns when no read fails. -/
lemma open_returns {res : Except RuntimeError SnapshotReader} (hk : Keeps R path)
    (hc : h.file path = some c) (hrun : Runs R (SnapshotReader.open codec path) h tr (some res) h')
    (hreads : ∀ e ∈ tr, failed e = false) : res = openBytes codec path (display path) c.raw := by
  obtain ⟨g, reply, tr', hR, hr, rfl, hrun₁⟩ := Exec.call_some_inv hrun
  rcases reply with e | c'
  · cases hreads _ List.mem_cons_self
  have hc' : g.file path = some c' := Host.enabled_readFile.mp hr
  obtain rfl : c = c' := Option.some.inj (((hk.star hR).trans hc).symm.trans hc')
  exact ofExcept_returns (x := openBytes codec path (display path) c.raw) hrun₁

lemma checkCrc_ok_iff {chunks : List Bytes} (hflat : chunks.flatten = r.file.take (r.payloadEnd + 8)) :
    r.checkCrc (chunks.foldl Crc32.update Crc32.new).finish = .ok () ↔
      crc32 (r.file.take (r.payloadEnd + 8)) = r.storedCrc := by
  rw [checkCrc, finish_foldl_update, hflat]
  split
  · rename_i hne
    exact iff_of_false (by rintro ⟨⟩) hne
  · rename_i heq
    exact iff_of_true rfl (not_not.mp heq)

/-- What `verify` does after its call. -/
lemma verify_after {chunks : List Bytes} (hlong : r.payloadEnd + 8 ≤ r.file.length)
    (hflat : chunks.flatten = r.file.take (r.payloadEnd + 8)) :
    (if chunks.flatten.length < r.payloadEnd + trailer.length then
        throw (.snapshot "truncated snapshot")
      else
        let got := (chunks.foldl Crc32.update Crc32.new).finish
        if got ≠ r.storedCrc then
          throw (.snapshot
            s!"checksum mismatch: file says {hex8 r.storedCrc}, computed {hex8 got} — snapshot is corrupt")
        else pure () : HostM Unit) =
      ofExcept (r.checkCrc (chunks.foldl Crc32.update Crc32.new).finish) := by
  rw [length_trailer, hflat, List.length_take, if_neg (by omega), checkCrc]
  dsimp only
  split
  · rfl
  · rfl

/-- The call of `verify`, when its bytes arrive in these pieces. -/
lemma readSpan_enabled {g : Host} {chunks : List Bytes}
    (hflat : chunks.flatten = r.file.take (r.payloadEnd + 8)) (hne : ∀ b ∈ chunks, b ≠ []) :
    machine.Enabled g (.readSpan r.path (r.file.take (r.payloadEnd + trailer.length)))
      (chunks, none) := by
  rw [length_trailer]
  exact Host.enabled_readSpan.mpr ⟨hne, hflat⟩

/-- `verify`, when its bytes arrive in these pieces. -/
lemma verify_run {chunks : List Bytes} (hlong : r.payloadEnd + 8 ≤ r.file.length)
    (hflat : chunks.flatten = r.file.take (r.payloadEnd + 8)) (hne : ∀ b ∈ chunks, b ≠ []) :
    Runs R r.verify h [⟨.readSpan r.path (r.file.take (r.payloadEnd + trailer.length)), (chunks, none)⟩]
      (some (r.checkCrc (chunks.foldl Crc32.update Crc32.new).finish)) h := by
  refine Exec.call (readSpan_enabled hflat hne) ?_
  change Runs R (if chunks.flatten.length < r.payloadEnd + trailer.length then _ else _) _ _ _ _
  rw [verify_after hlong hflat]
  exact ofExcept_run _

/-- What `verify` returns when no read fails. -/
lemma verify_returns {res : Except RuntimeError Unit} (hlong : r.payloadEnd + 8 ≤ r.file.length)
    (hrun : Runs R r.verify h tr (some res) h') (hreads : ∀ e ∈ tr, failed e = false) :
    res = .ok () ↔ crc32 (r.file.take (r.payloadEnd + 8)) = r.storedCrc := by
  obtain ⟨g, reply, tr', hR, hr, rfl, hrun₁⟩ := Exec.call_some_inv hrun
  rcases reply with ⟨chunks, e | e⟩
  · have hflat : chunks.flatten = r.file.take (r.payloadEnd + 8) := (Host.enabled_readSpan.mp hr).2
    change Runs R (if chunks.flatten.length < r.payloadEnd + trailer.length then _ else _) _ _ _ _
      at hrun₁
    rw [verify_after hlong hflat] at hrun₁
    rw [ofExcept_returns hrun₁]
    exact checkCrc_ok_iff hflat
  · cases hreads _ List.mem_cons_self

/-- `accept` returns what `open` and `verify` find, when no read fails. -/
lemma accept_returns {res : Except RuntimeError Unit} (hk : Keeps R path)
    (hc : h.file path = some c) (hrun : Runs R (accept codec path) h tr (some res) h')
    (hreads : ∀ e ∈ tr, failed e = false) : res = .ok () ↔ WellFramed codec c.raw := by
  rcases Exec.fallible_bind_inv hrun with ⟨hout, -⟩ | ⟨e, hout, h₁⟩ | ⟨r, tr₁, tr₂, g, rfl, h₁, h₂⟩
  · cases hout
  · -- it is not opened
    obtain rfl := Option.some.inj hout
    have hopen := open_returns hk hc h₁ hreads
    refine iff_of_false (by rintro ⟨⟩) fun hw => ?_
    obtain ⟨r, hr⟩ : ∃ r, openBytes codec path (display path) c.raw = .ok r :=
      openBytes_ok_iff.mpr hw.toFramed
    rw [hr] at hopen
    cases hopen
  · have hopen := open_returns hk hc h₁ fun e he => hreads e (List.mem_append_left _ he)
    have ho := openBytes_ok hopen.symm
    have hends := ho.ends
    have hlong : r.payloadEnd + 8 ≤ r.file.length := by
      rw [ho.file]
      omega
    rw [verify_returns hlong h₂ fun e he => hreads e (List.mem_append_right _ he), checksum_iff ho]
    exact ⟨fun hcrc => ⟨openBytes_ok_iff.mp ⟨r, hopen.symm⟩, hcrc⟩, fun hw => hw.checksum⟩

/-- **Read by read.** `open` and `verify`, in words of 64 bits and with any replies of their reads, come to
their end, and end as a run of the reader does.

**Proof sketch.** No computation of `open` leaves its word. The bytes that `verify` reads end four bytes
before the file does, so its loop has read them, or a read failed. -/
lemma acceptReads_done (hc : h.file path = some c) (hword : c.raw.length < 2 ^ 64)
    (hreplies : Replies c.raw bufferSize 0 (c.raw.length - 4) rs) (hmany : c.raw.length ≤ rs.length) :
    ∃ res tr, acceptReads codec path (display path) c.raw rs = .done res ∧
      Runs R (accept codec path) h tr (some res) h ∧
      ((∀ e, .error e ∉ rs) → ∀ e ∈ tr, failed e = false) := by
  have hcall : machine.Enabled h (.readFile path) (.ok c) := Host.enabled_readFile.mpr hc
  have hopen : Runs R (SnapshotReader.open codec path) h
      [⟨.readFile path, (.ok c : Except String Content)⟩]
      (some (openBytes codec path (display path) c.raw)) h := Exec.call hcall (ofExcept_run _)
  cases hbytes : openBytes codec path (display path) c.raw with
  | error e =>
    rw [hbytes] at hopen
    refine ⟨.error e, [⟨.readFile path, (.ok c : Except String Content)⟩], ?_,
      Exec.fallible_bind_error hopen, fun _ => List.forall_mem_singleton.mpr rfl⟩
    rw [acceptReads, openChecked_eq, hbytes]
  | ok r =>
    rw [hbytes] at hopen
    have ho := openBytes_ok hbytes
    have hends := ho.ends
    have hlong : r.payloadEnd + 8 ≤ r.file.length := by
      rw [ho.file]
      omega
    have hremaining : checkedAdd r.payloadEnd trailer.length = some (c.raw.length - 4) := by
      rw [length_trailer, checkedAdd_of_lt (by omega), show r.payloadEnd + 8 = c.raw.length - 4 by omega]
    have hspan : r.file.take (r.payloadEnd + 8) = (c.raw.drop 0).take (c.raw.length - 4) := by
      rw [ho.file, List.drop_zero, show r.payloadEnd + 8 = c.raw.length - 4 by omega]
    rcases readLoop_outcome (f := Crc32.update) (s := Crc32.new) (by decide) (by omega) (by omega)
      hreplies with ⟨chunks, hloop, hflat, hne⟩ | ⟨e, chunks, hloop, hmem, hflat, hne⟩
    · -- the bytes arrive
      have hflat' := hflat.trans hspan.symm
      refine ⟨_, _, ?_, Exec.fallible_bind hopen (verify_run hlong hflat' hne), fun _ => ?_⟩
      · rw [acceptReads, openChecked_eq, hbytes]
        simp only [verifyReads, hremaining, hloop]
      · simp [failed, Except.isOk, Except.toBool]
    · -- a read fails
      have henabled : machine.Enabled h
          (.readSpan r.path (r.file.take (r.payloadEnd + trailer.length))) (chunks, some e) := by
        rw [length_trailer, hspan]
        exact Host.enabled_readSpan_error.mpr ⟨hne, hflat⟩
      refine ⟨.error (.snapshot s!"read: {e}"), _, ?_,
        Exec.fallible_bind hopen (Exec.call henabled (.ret _ _)), fun hnone => absurd hmem (hnone e)⟩
      rw [acceptReads, openChecked_eq, hbytes]
      simp only [verifyReads, hremaining, hloop]

/-- **What is accepted.** For the bytes of any file:

* whenever `open` and then `verify` run to their end and no read fails, both return well exactly if the
  file is framed as a snapshot and ends in the checksum of what comes before it;
* in words of 64 bits, and with any replies of as many reads as the file has bytes, no length or offset
  leaves its word, the loop of `verify` ends, and the result is that of a run; if no reply is an error,
  it is that of the first part.

The second part is about files whose length is itself a word.

**Proof sketch.** What `open` tests is the framing (`openBytes_ok_iff`), and the checksum is that of all
but the last four bytes. The rest is `acceptReads_done`. -/
theorem accepted_exact (hk : Keeps R path) (hc : h.file path = some c) :
    (∀ tr res h', Runs R (accept codec path) h tr (some res) h' → (∀ e ∈ tr, failed e = false) →
      (res = .ok () ↔ WellFramed codec c.raw)) ∧
    (c.raw.length < 2 ^ 64 → ∀ rs, Replies c.raw bufferSize 0 (c.raw.length - 4) rs →
      c.raw.length ≤ rs.length → ∃ res,
        acceptReads codec path (display path) c.raw rs = .done res ∧
        (∃ tr h', Runs R (accept codec path) h tr (some res) h') ∧
        ((∀ e, .error e ∉ rs) → (res = .ok () ↔ WellFramed codec c.raw))) := by
  have hfirst : ∀ tr res h', Runs R (accept codec path) h tr (some res) h' →
      (∀ e ∈ tr, failed e = false) → (res = .ok () ↔ WellFramed codec c.raw) :=
    fun tr res h' hrun hreads => accept_returns hk hc hrun hreads
  refine ⟨hfirst, fun hword rs hreplies hmany => ?_⟩
  obtain ⟨res, tr, hdone, hrun, hreads⟩ : ∃ res tr,
      acceptReads codec path (display path) c.raw rs = .done res ∧
      Runs R (accept codec path) h tr (some res) h ∧
      ((∀ e, .error e ∉ rs) → ∀ e ∈ tr, failed e = false) :=
    acceptReads_done hc hword hreplies hmany
  exact ⟨res, hdone, ⟨tr, h, hrun⟩, fun hnone => hfirst tr res h hrun (hreads hnone)⟩

end

/-- The replies of a file that is read at once. -/
def atOnce (b : Bytes) : List (Except String Bytes) :=
  .ok (b.take (b.length - 4)) :: List.replicate b.length (.ok [])

lemma replies_atOnce {b : Bytes} (h : b.length ≤ bufferSize) :
    Replies b bufferSize 0 (b.length - 4) (atOnce b) := by
  have htake : (b.take (b.length - 4)).length = b.length - 4 := by
    rw [List.length_take]
    omega
  refine ⟨⟨?_, ?_, fun hnil => .inl ?_⟩, ?_⟩
  · rw [List.drop_zero]
    exact List.take_prefix _ _
  · rw [htake]
    omega
  · rw [hnil, List.length_nil] at htake
    omega
  · rintro c ⟨⟩
    rw [htake, Nat.sub_self]
    exact replies_replicate _

lemma length_atOnce (b : Bytes) : b.length ≤ (atOnce b).length := by
  simp [atOnce]

lemma error_not_mem_atOnce (b : Bytes) (e : String) : .error e ∉ atOnce b := by
  rintro (_ | ⟨_, hmem⟩)
  cases List.eq_of_mem_replicate hmem

/-- The snapshot of one container is well framed, and accepted when it is read at once. -/
theorem accepted_exact_demo : WellFramed Demo.codec Demo.snapshotBytes ∧
    acceptReads Demo.codec Demo.latest.path (display Demo.latest.path) Demo.snapshotBytes
      (atOnce Demo.snapshotBytes) = .done (.ok ()) := by
  obtain ⟨tr, hreads, haccept⟩ := (Yields.bind (open_yields Demo.codec_roundTrips Demo.manifest_fits
    (Demo.hostWith_latest Demo.snapshotBytes) rfl)
    (verify_yields Demo.latest.path Demo.manifest _ Demo.entries _)).possible
  have hshort : Demo.snapshotBytes.length ≤ bufferSize := by
    rw [Demo.length_snapshotBytes]
    decide
  have hword : Demo.snapshotBytes.length < 2 ^ 64 := lt_of_le_of_lt hshort (by decide)
  obtain ⟨hruns, hwords⟩ := @accepted_exact Demo.codec _ _ _ _ (keeps_quiet Demo.latest.path)
    (Demo.hostWith_latest Demo.snapshotBytes)
  have hwell : WellFramed Demo.codec Demo.snapshotBytes := (hruns tr _ _ haccept hreads).mp rfl
  obtain ⟨res, hdone, -, hres⟩ := hwords hword _ (replies_atOnce hshort) (length_atOnce _)
  refine ⟨hwell, ?_⟩
  rw [← (hres (error_not_mem_atOnce _)).mpr hwell]
  exact hdone

end SnapshotReader

end Mincontainer
