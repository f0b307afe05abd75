import Mincontainer.Migration.Footprint
import Mincontainer.Migration.Wire

set_option relaxedAutoImplicit false
set_option autoImplicit false

/-!
# The gates of the receiver

A transfer passes two gates before it has an effect beyond the inbox: the handshake, and the check of
the whole file against its end frame and the hello. What the peer sends is arbitrary, frame by frame,
and the run may stop anywhere.

The token is compared and never used otherwise, so two servers whose tokens both differ from the one
presented do the same.

## Main definitions

* `Mincontainer.Transport.Opens` — the trace begins with a well-formed hello frame.
* `Mincontainer.Transport.arrive`, `Mincontainer.Transport.conclude` — the transfer up to the
  committed file, and the adoption with its answer.
* `Mincontainer.Transport.Cleared` — what a peer sent is a whole transfer that clears both checks.

## Main results

* `Mincontainer.Transport.receive_frames` — the receive loop, at its end.
* `Mincontainer.Transport.handleOne_gated` — both gates, and the secrecy of the token.
-/

namespace Mincontainer

open Effects Files Bytes Restore

namespace Transport

/-! ### The two halves of a transfer -/

/-- The transfer up to the committed file: no snapshot is opened, adopted or restored here. -/
def arrive (env : Env) (proto : Protocol) (fuel : Nat) (token : String) :
    HostM (Hello × PathBuf) := do
  let hello ← greet env proto token
  let final ← receiveFile env proto fuel hello
  pure (hello, final)

/-- The adoption of the committed file, and the answer to the sender. -/
def conclude (env : Env) (codec : Codec Manifest) (proto : Protocol) (index : UInt8)
    (x : Hello × PathBuf) : HostM String := do
  let outcome ← (Fallible.attempt (adoptAndRestore env codec x.2 index) :
    HostM (Except RuntimeError Restore.Report))
  answer proto x.1 outcome

/-- The trace begins with a hello frame that decodes to `hello`. -/
def Opens (proto : Protocol) (tr : List HostSig.Event) (hello : Hello) : Prop :=
  ∃ hdr n body rest, tr = ⟨.recv 5, (.ok hdr : Except String Bytes)⟩ ::
    ⟨.recv n, (.ok body : Except String Bytes)⟩ :: rest ∧ parseHeader hdr = .ok (.hello, n) ∧
    proto.hello.decode body = .ok hello

/-- The bytes are a whole transfer of `content`: the hello, chunks that make up the content, and an
end frame; the content has the length and the checksum that the end frame tells, the checksum of the
hello, and no more bytes than the hello announced. -/
def Cleared (proto : Protocol) (hello : Hello) (bytes content : Bytes) : Prop :=
  ∃ (opening last : Bytes) (chunks : List Bytes) (eof : Eof),
    bytes = frame .hello opening ++ (chunks.flatMap (frame .chunk) ++ frame .eof last) ∧
    proto.hello.decode opening = .ok hello ∧ proto.eof.decode last = .ok eof ∧
    content = chunks.flatten ∧ eof.bytes = content.length ∧ eof.crc32 = crc32 content ∧
    hello.snapshotCrc32 = crc32 content ∧ content.length ≤ hello.snapshotBytes

section

variable {env : Env} {codec : Codec Manifest} {proto : Protocol} {fuel : ℕ} {token : String}
  {index : UInt8} {R : Host → Host → Prop} {h h' : Host} {tr : List HostSig.Event}

lemma handleOne_eq : handleOne env codec proto fuel token index =
    arrive env proto fuel token >>= conclude env codec proto index := by
  simp only [handleOne, arrive, conclude, bind_assoc, pure_bind]

/-! ### The handshake -/

/-- A JSON frame that was accepted took the bytes of a frame of its type. -/
lemma readJson_received {α : Type} {expect : FrameType} {c : Codec α} {a : α}
    (hrun : Runs R (readJson proto expect c) h tr (some (.ok a)) h') :
    ∃ body, received tr = frame expect body ∧ body.length ≤ 4 * 1024 * 1024 ∧
      c.decode body = .ok a := by
  obtain ⟨⟨t, n⟩, tr₁, tr₂, h₁, rfl, hheader, hrun₁⟩ := Exec.fallible_bind_ok hrun
  obtain ⟨body, tr₃, tr₄, h₂, rfl, hpayload, hparse⟩ := Exec.fallible_bind_ok hrun₁
  obtain ⟨rfl, hval⟩ := ofExcept_ok hparse
  obtain ⟨rfl, hdec⟩ := parseJson_ok hval
  obtain ⟨hhdr, hn⟩ := readHeader_ok hheader
  obtain ⟨hbody, hlen⟩ := readPayload_ok hpayload
  refine ⟨body, ?_, hlen.trans_le hn, hdec⟩
  rw [received_append, received_append, received_nil, hhdr, hbody, ← hlen]
  simp [frame]

/-- Answering a hello reads nothing from the peer. -/
lemma answerHello_deaf (accept : Bool) (reason : String) :
    (answerHello env proto accept reason).run.Within fun o : HostOp => o.hears = false :=
  Fallible.within_bind ((within_sys .hostname).mpr rfl) fun _ => within_writeFrame (fun _ => rfl) _ _

/-- A handshake that was accepted: it begins with a hello frame that passes the checks, and takes
nothing else from the peer; none of its reads failed. -/
lemma greet_opens {hello : Hello}
    (hrun : Runs R (greet env proto token) h tr (some (.ok hello)) h') :
    Opens proto tr hello ∧ Matches env token hello ∧
      (∀ e ∈ tr, failed e = false ∨ e.1.hears = false) ∧
      ∃ opening, received tr = frame .hello opening ∧ opening.length ≤ 4 * 1024 * 1024 ∧
        proto.hello.decode opening = .ok hello := by
  rw [greet_eq] at hrun
  obtain ⟨hello', tr₁, tr₂, g, rfl, hread, hrun₁⟩ := Exec.fallible_bind_ok hrun
  obtain ⟨rfl, hmatches, hrest⟩ := welcome_ok hrun₁
  have hdeaf : ∀ e ∈ tr₂, e.1.hears = false := by
    refine Exec.mem_within (P := fun o : HostOp => o.hears = false) ?_ hrest
    refine Fallible.within_bind (answerHello_deaf true "") fun _ => ?_
    refine Fallible.within_bind ?_ fun _ => trivial
    exact Fallible.within_bind ((within_sys .flush).mpr rfl) fun _ => within_orErr _ _
  obtain ⟨body, hbody, hlen, hdec⟩ := readJson_received hread
  obtain ⟨hdr, body', n, rfl, hparse, hdec'⟩ := readJson_ok hread
  refine ⟨⟨hdr, n, body', tr₂, rfl, hparse, hdec'⟩, hmatches, ?_, body, ?_, hlen, hdec⟩
  · refine List.forall_mem_append.mpr ⟨?_, fun e he => .inr (hdeaf e he)⟩
    simp [failed, Except.isOk, Except.toBool]
  · rw [received_append, hbody, received_of_deaf hdeaf, List.append_nil]

/-! ### The receive loop -/

/-- The end frame was accepted: it tells what arrived, and so did the hello. -/
lemma checkEof_ok {part : PathBuf} {hello : Hello} {n len : ℕ} {crc : Crc32} {u : Unit}
    (hrun : Runs R (checkEof proto part hello n crc len) h tr (some (.ok u)) h') :
    ∃ last eof, received tr = last ∧ last.length = len ∧ proto.eof.decode last = .ok eof ∧
      eof.bytes = n ∧ eof.crc32 = crc.finish ∧ hello.snapshotCrc32 = crc.finish ∧
      (Keeps R part.path → ∀ b, h.file part.path = some (.bytes b) →
        h'.file part.path = some (.bytes b)) := by
  obtain ⟨last, tr₁, tr₂, h₁, rfl, hpayload, hrun₁⟩ := Exec.fallible_bind_ok hrun
  obtain ⟨hreceived, hlen⟩ := readPayload_ok hpayload
  obtain ⟨eof, tr₃, tr₄, h₂, rfl, hdecode, hrun₂⟩ := Exec.fallible_bind_ok hrun₁
  obtain ⟨hdec, rfl, hh₂⟩ : proto.eof.decode last = .ok eof ∧ tr₃ = [] ∧
      Relation.ReflTransGen R h₁ h₂ := by
    split at hdecode
    · obtain ⟨rfl, hR, hres⟩ := Exec.ret_some_inv hdecode
      obtain rfl := Except.ok.inj hres
      exact ⟨‹_›, rfl, hR⟩
    · exact (Exec.throw_ok_false hdecode).elim
  obtain ⟨u', tr₅, tr₆, h₃, rfl, happend, hrun₃⟩ := Exec.fallible_bind_ok hrun₂
  have hdeaf : received tr₅ = [] := Runs.received_nil ((within_appendTo _ _ _).mpr rfl) happend
  dsimp only at hrun₃
  split at hrun₃
  · obtain ⟨_, _, _, _, -, -, hrun₄⟩ := Exec.fallible_bind_ok hrun₃
    obtain ⟨_, _, _, _, -, -, hrun₅⟩ := Exec.fallible_bind_ok hrun₄
    obtain ⟨_, _, _, _, -, -, hrun₆⟩ := Exec.fallible_bind_ok hrun₅
    exact (Exec.throw_ok_false hrun₆).elim
  rename_i hchecks
  obtain ⟨rfl, hR, -⟩ := Exec.ret_some_inv hrun₃
  simp only [not_or, not_not] at hchecks
  obtain ⟨hbytes, hcrc, hhello⟩ := hchecks
  refine ⟨last, eof, ?_, hlen, hdec, hbytes, hcrc, hhello.symm, fun hk b hb => ?_⟩
  · simp [hreceived, hdeaf]
  · have hb₁ : h₁.file part.path = some (.bytes b) :=
      (Runs.file_kept_of_reads hk (readPayload_reads _) hpayload).trans hb
    obtain ⟨c, hc, hc'⟩ := appendTo_ok hk happend
    rw [hk.star hh₂, hb₁] at hc
    cases hc
    rw [hk.star hR, hc', List.append_nil]
    rfl

/-- **The receive loop.** What a peer sent before the loop ended well: chunks, and an end frame that
clears. The file then holds the chunks, behind what it held before.

**Proof sketch.** Induction on the rounds. A round that goes on took a chunk frame and appended its
payload, and the rest of the loop starts from the longer count and checksum; the checksum of two
buffers in sequence is that of their concatenation. -/
lemma receive_frames {part : PathBuf} {hello : Hello} {n : ℕ} {crc : Crc32} {u : Unit}
    (hn : n ≤ hello.snapshotBytes)
    (hrun : Runs R (receive proto part hello fuel n crc) h tr (some (.ok u)) h') :
    ∃ (chunks : List Bytes) (last : Bytes) (eof : Eof),
      received tr = chunks.flatMap (frame .chunk) ++ frame .eof last ∧
      (∀ b ∈ last :: chunks, b.length ≤ 4 * 1024 * 1024) ∧ proto.eof.decode last = .ok eof ∧ eof.bytes = n + chunks.flatten.length ∧
      eof.crc32 = (crc.update chunks.flatten).finish ∧
      hello.snapshotCrc32 = (crc.update chunks.flatten).finish ∧
      n + chunks.flatten.length ≤ hello.snapshotBytes ∧
      (Keeps R part.path → ∀ b, h.file part.path = some (.bytes b) →
        h'.file part.path = some (.bytes (b ++ chunks.flatten))) := by
  induction fuel generalizing h tr n crc with
  | zero =>
    obtain ⟨r, -⟩ := Exec.fallible_bind_ok hrun
    exact (nomatch (r : Empty))
  | succ fuel ih =>
    obtain ⟨⟨t, len⟩, tr₁, tr₂, h₁, rfl, hheader, hrun₁⟩ := Exec.fallible_bind_ok hrun
    obtain ⟨hhdr, hfits⟩ := readHeader_ok hheader
    dsimp only at hrun₁
    split at hrun₁
    · -- a chunk: one round, and the rest of the loop
      obtain ⟨body, tr₃, tr₄, h₂, rfl, hpayload, hrun₂⟩ := Exec.fallible_bind_ok hrun₁
      obtain ⟨hbody, hlen⟩ := readPayload_ok hpayload
      obtain ⟨u', tr₅, tr₆, h₃, rfl, happend, hrun₃⟩ := Exec.fallible_bind_ok hrun₂
      have hdeaf : received tr₅ = [] := Runs.received_nil ((within_appendTo _ _ _).mpr rfl) happend
      split at hrun₃
      · obtain ⟨_, _, _, _, -, -, hrun₄⟩ := Exec.fallible_bind_ok hrun₃
        exact (Exec.throw_ok_false hrun₄).elim
      rename_i hcap
      obtain ⟨chunks, last, eof, hreceived, hall, hdec, hbytes, hcrc, hhello, htotal, hfile⟩ :=
        ih (Nat.le_of_not_lt hcap) hrun₃
      refine ⟨body :: chunks, last, eof, ?_, ?_, hdec, ?_, ?_, ?_, ?_, fun hk b hb => ?_⟩
      · rw [received_append, received_append, received_append, hhdr, hbody, hdeaf, hreceived,
          ← hlen]
        simp [frame]
      · rw [List.forall_mem_cons] at hall
        rw [List.forall_mem_cons, List.forall_mem_cons]
        exact ⟨hall.1, hlen.trans_le hfits, hall.2⟩
      · rw [hbytes, List.flatten_cons, List.length_append, Nat.add_assoc]
      · rw [hcrc, List.flatten_cons, Crc32.update_append]
      · rw [hhello, List.flatten_cons, Crc32.update_append]
      · rw [List.flatten_cons, List.length_append, ← Nat.add_assoc]
        exact htotal
      · have hb₂ : h₂.file part.path = some (.bytes b) :=
          (Runs.file_kept_of_reads hk (readPayload_reads _) hpayload).trans
            ((Runs.file_kept_of_reads hk readHeader_reads hheader).trans hb)
        obtain ⟨c, hc, hc'⟩ := appendTo_ok hk happend
        rw [hb₂] at hc
        cases hc
        rw [hfile hk _ hc', List.flatten_cons, ← List.append_assoc]
        rfl
    · -- the end of the file
      obtain ⟨last, eof, hlast, hlen, hdec, hbytes, hcrc, hhello, hfile⟩ := checkEof_ok hrun₁
      refine ⟨[], last, eof, ?_, ?_, hdec, by simpa using hbytes, by simpa using hcrc,
        by simpa using hhello, by simpa using hn, fun hk b hb => ?_⟩
      · rw [received_append, hhdr, hlast, ← hlen]
        simp [frame]
      · rw [List.forall_mem_singleton]
        exact hlen.trans_le hfits
      · rw [List.flatten_nil, List.append_nil]
        exact hfile hk b ((Runs.file_kept_of_reads hk readHeader_reads hheader).trans hb)
    · -- any other frame ends the transfer
      obtain ⟨_, _, _, _, -, -, hrun₂⟩ := Exec.fallible_bind_ok hrun₁
      exact (Exec.throw_ok_false hrun₂).elim

/-- The frames that the loop read, whatever their lengths. -/
lemma receive_ok {part : PathBuf} {hello : Hello} {n : ℕ} {crc : Crc32} {u : Unit}
    (hn : n ≤ hello.snapshotBytes)
    (hrun : Runs R (receive proto part hello fuel n crc) h tr (some (.ok u)) h') :
    ∃ (chunks : List Bytes) (last : Bytes) (eof : Eof),
      received tr = chunks.flatMap (frame .chunk) ++ frame .eof last ∧
      proto.eof.decode last = .ok eof ∧ eof.bytes = n + chunks.flatten.length ∧
      eof.crc32 = (crc.update chunks.flatten).finish ∧
      hello.snapshotCrc32 = (crc.update chunks.flatten).finish ∧
      n + chunks.flatten.length ≤ hello.snapshotBytes ∧
      (Keeps R part.path → ∀ b, h.file part.path = some (.bytes b) →
        h'.file part.path = some (.bytes (b ++ chunks.flatten))) := by
  obtain ⟨chunks, last, eof, hreceived, -, hrest⟩ := receive_frames hn hrun
  exact ⟨chunks, last, eof, hreceived, hrest⟩

/-- Renaming a file takes its content along. -/
lemma rename_ok {src dst : Path} {f : String → RuntimeError} {u : Unit} {c : Content}
    (hsrc : Keeps R src) (hdst : Keeps R dst) (hc : h.file src = some c)
    (hrun : Runs R (sys (.rename src dst) >>= fun r => orErr r f) h tr (some (.ok u)) h') :
    h'.file dst = some c := by
  obtain ⟨g, r, tr', hR, hr, rfl, hrun'⟩ := Exec.call_some_inv hrun
  rcases r with e | u'
  · obtain ⟨-, -, hres⟩ := Exec.ret_some_inv hrun'
    cases hres
  · obtain ⟨-, hR', -⟩ := Exec.ret_some_inv hrun'
    rw [hdst.star hR']
    exact file_rename ((hsrc.star hR).trans hc)

/-- A file that was received clears, and the committed file holds it. -/
lemma receiveFile_frames {hello : Hello} {final : PathBuf}
    (hrun : Runs R (receiveFile env proto fuel hello) h tr (some (.ok final)) h') :
    final = finalFile env hello ∧ ∃ (chunks : List Bytes) (last : Bytes) (eof : Eof),
      received tr = chunks.flatMap (frame .chunk) ++ frame .eof last ∧
      (∀ b ∈ last :: chunks, b.length ≤ 4 * 1024 * 1024) ∧
      proto.eof.decode last = .ok eof ∧ eof.bytes = chunks.flatten.length ∧
      eof.crc32 = crc32 chunks.flatten ∧ hello.snapshotCrc32 = crc32 chunks.flatten ∧
      chunks.flatten.length ≤ hello.snapshotBytes ∧
      (Keeps R (partFile env hello).path → Keeps R final.path →
        h'.file final.path = some (.bytes chunks.flatten)) := by
  obtain ⟨_, tr₁, tr₂, h₁, rfl, hdir, hrun₁⟩ := Exec.fallible_bind_ok hrun
  obtain ⟨_, tr₃, tr₄, h₂, rfl, hcreate, hrun₂⟩ := Exec.fallible_bind_ok hrun₁
  obtain ⟨_, tr₅, tr₆, h₃, rfl, hreceive, hrun₃⟩ := Exec.fallible_bind_ok hrun₂
  change Runs R (sys (.rename (partFile env hello).path (finalFile env hello).path) >>= fun r =>
    orErr r (fun e => .migration s!"commit snapshot: {e}") >>= fun _ =>
      pure (finalFile env hello)) _ _ _ _ at hrun₃
  rw [← bind_assoc] at hrun₃
  obtain ⟨_, tr₇, tr₈, h₄, rfl, hrename, hrun₄⟩ := Exec.fallible_bind_ok hrun₃
  obtain ⟨rfl, hR, hres⟩ := Exec.ret_some_inv hrun₄
  obtain rfl := Except.ok.inj hres
  have h1 : received tr₁ = [] := Runs.received_nil ((within_mkdirAll _ _).mpr rfl) hdir
  have h3 : received tr₃ = [] := Runs.received_nil ((within_createFile _ _).mpr rfl) hcreate
  have h7 : received tr₇ = [] := Runs.received_nil (Fallible.within_bind
    ((within_sys (.rename _ _)).mpr rfl) fun _ => within_orErr _ _) hrename
  obtain ⟨chunks, last, eof, hreceived, hall, hdec, hbytes, hcrc, hhello, htotal, hfile⟩ :=
    receive_frames (Nat.zero_le _) hreceive
  refine ⟨rfl, chunks, last, eof, ?_, hall, hdec, by simpa using hbytes, hcrc, hhello,
    by simpa using htotal, fun hk hkf => ?_⟩
  · simp [h1, h3, h7, hreceived]
  · rw [hkf.star hR]
    refine rename_ok hk hkf (hfile hk [] ?_) hrename
    exact createFile_ok hk hcreate

/-- The frames of a file that was received, whatever their lengths. -/
lemma receiveFile_ok {hello : Hello} {final : PathBuf}
    (hrun : Runs R (receiveFile env proto fuel hello) h tr (some (.ok final)) h') :
    final = finalFile env hello ∧ ∃ (chunks : List Bytes) (last : Bytes) (eof : Eof),
      received tr = chunks.flatMap (frame .chunk) ++ frame .eof last ∧
      proto.eof.decode last = .ok eof ∧ eof.bytes = chunks.flatten.length ∧
      eof.crc32 = crc32 chunks.flatten ∧ hello.snapshotCrc32 = crc32 chunks.flatten ∧
      chunks.flatten.length ≤ hello.snapshotBytes ∧
      (Keeps R (partFile env hello).path → Keeps R final.path →
        h'.file final.path = some (.bytes chunks.flatten)) := by
  obtain ⟨hfinal, chunks, last, eof, hreceived, -, hrest⟩ := receiveFile_frames hrun
  exact ⟨hfinal, chunks, last, eof, hreceived, hrest⟩

/-! ### Both gates -/

/-- The receiver, from its first frame on. -/
lemma handleOne_eq_welcome : handleOne env codec proto fuel token index =
    readJson proto .hello proto.hello >>= fun hello => welcome env proto token hello >>= fun hello =>
      receiveFile env proto fuel hello >>= fun final =>
        conclude env codec proto index (hello, final) := by
  rw [handleOne, greet_eq, bind_assoc]
  rfl

/-- The token decides whether a hello is welcome, and nothing else. -/
lemma welcome_eq_of_ne {token' : String} {hello : Hello} (h : hello.token ≠ token)
    (h' : hello.token ≠ token') : welcome env proto token hello = welcome env proto token' hello := by
  simp only [welcome, ne_eq, h, h', not_false_eq_true, if_true]

/-- **The gates of a transfer.** In every run of the receiver, whatever the peer sends and wherever
the run stops:

* either no call changes anything on the host, or the first frame is a well-formed hello whose
  version, token and architecture match;
* either the run ends before the adoption, or what the peer had sent by then was a whole transfer
  that clears, and the committed file holds its content;
* if the token that was presented is neither `token` nor `token'`, then a server that expects
  `token'` makes the same calls, sends the same bytes and ends the same way.

**Proof sketch.** The handshake only reads and sends, and passes a hello only if it matches. The
adoption follows the receive loop, which ends well only on an end frame that clears. The token is
compared with the one of the hello and not used again. -/
theorem handleOne_gated {out : Option (Except RuntimeError String)}
    (hrun : Runs R (handleOne env codec proto fuel token index) h tr out h') :
    ((∀ e ∈ tr, e.1.reads = true) ∨ ∃ hello, Opens proto tr hello ∧ Matches env token hello) ∧
    ((∃ o, Runs R (arrive env proto fuel token) h tr o h' ∧ ∀ x, o ≠ some (.ok x)) ∨
      ∃ hello tr₁ tr₂ g content, tr = tr₁ ++ tr₂ ∧
        Runs R (arrive env proto fuel token) h tr₁ (some (.ok (hello, finalFile env hello))) g ∧
        Runs R (conclude env codec proto index (hello, finalFile env hello)) g tr₂ out h' ∧
        Cleared proto hello (received tr₁) content ∧
        (Keeps R (partFile env hello).path → Keeps R (finalFile env hello).path →
          g.file (finalFile env hello).path = some (.bytes content))) ∧
    ∀ token', (∀ hello, Opens proto tr hello → hello.token ≠ token ∧ hello.token ≠ token') →
      Runs R (handleOne env codec proto fuel token' index) h tr out h' := by
  refine ⟨?_, ?_, fun token' htoken => ?_⟩
  · rcases Exec.fallible_bind_inv hrun with ⟨-, h₁⟩ | ⟨e, -, h₁⟩ | ⟨hello, tr₁, tr₂, g, rfl, h₁, -⟩
    · exact .inl (Exec.mem_within (greet_reads token) h₁)
    · exact .inl (Exec.mem_within (greet_reads token) h₁)
    · obtain ⟨⟨hdr, n, body, rest, rfl, hparse, hdec⟩, hmatches, -⟩ := greet_opens h₁
      exact .inr ⟨hello, ⟨hdr, n, body, rest ++ tr₂, rfl, hparse, hdec⟩, hmatches⟩
  · rw [handleOne_eq] at hrun
    rcases Exec.fallible_bind_inv hrun with ⟨-, h₁⟩ | ⟨e, -, h₁⟩ | ⟨x, tr₁, tr₂, g, rfl, h₁, h₂⟩
    · exact .inl ⟨none, h₁, nofun⟩
    · exact .inl ⟨some (.error e), h₁, nofun⟩
    · right
      obtain ⟨hello, tr₃, tr₄, g₁, rfl, hgreet, h₃⟩ := Exec.fallible_bind_ok h₁
      obtain ⟨final, tr₅, tr₆, g₂, rfl, hfile, h₄⟩ := Exec.fallible_bind_ok h₃
      obtain ⟨rfl, hR, hres⟩ := Exec.ret_some_inv h₄
      obtain rfl := Except.ok.inj hres
      obtain ⟨-, -, -, opening, hopening, -, hdec⟩ := greet_opens hgreet
      obtain ⟨rfl, chunks, last, eof, hreceived, hlast, hbytes, hcrc, hhello, htotal, hcommit⟩ :=
        receiveFile_ok hfile
      refine ⟨hello, _, tr₂, g, chunks.flatten, rfl, h₁, h₂, ⟨opening, last, chunks, eof, ?_, hdec,
        hlast, rfl, hbytes, hcrc, hhello, htotal⟩, fun hpart hfinal => ?_⟩
      · rw [received_append, received_append, received_nil, List.append_nil, hopening, hreceived]
      · rw [hfinal.star hR]
        exact hcommit hpart hfinal
  · rw [handleOne_eq_welcome] at hrun ⊢
    refine Exec.fallible_bind_congr hrun fun hello tr₁ tr₂ g htr h₁ => ?_
    obtain ⟨hdr, body, n, rfl, hparse, hdec⟩ := readJson_ok h₁
    obtain ⟨hne, hne'⟩ := htoken hello ⟨hdr, n, body, tr₂, htr, hparse, hdec⟩
    rw [welcome_eq_of_ne hne hne']

end

end Transport

/-! ### Two servers -/

namespace Demo

/-- The only hello there is. -/
lemma hello_of_opens {id : String} {tr : List HostSig.Event} {hello' : Hello}
    (h : Transport.Opens (protocol id) tr hello') : hello' = hello id := by
  obtain ⟨hdr, n, body, rest, -, -, hdec⟩ := h
  simp only [protocol, only] at hdec
  split at hdec
  · exact (Except.ok.inj hdec).symm
  · cases hdec

end Demo

namespace Transport

/-- A peer that presents the token `secret`: a server that expects it creates a file, and two servers
that expect other tokens refuse it in one and the same way. -/
theorem handleOne_gated_demo :
    (∃ tr out h', Runs quiet (handleOne Demo.env Demo.codec (Demo.protocol "web") 2 "secret" 0)
        (Demo.host Demo.frozen [] []) tr out h' ∧ (∃ e ∈ tr, e.1.reads = false) ∧
      ∃ hello, Opens (Demo.protocol "web") tr hello ∧ Matches Demo.env "secret" hello) ∧
    ∃ tr out h', Runs quiet (handleOne Demo.env Demo.codec (Demo.protocol "web") 2 "other" 0)
        (Demo.host Demo.frozen [] []) tr out h' ∧ tr ≠ [] ∧
      Runs quiet (handleOne Demo.env Demo.codec (Demo.protocol "web") 2 "another" 0)
        (Demo.host Demo.frozen [] []) tr out h' := by
  constructor
  · have hdrive : ((machine.drive (departing (Demo.peer "web")) 40 0
        (handleOne Demo.env Demo.codec (Demo.protocol "web") 2 "secret" 0).run
        (Demo.host Demo.frozen [] [])).map fun x => x.1.any fun e => !e.1.reads) = some true := by
      decide +kernel
    obtain ⟨⟨tr, out, h'⟩, hx, hany⟩ := Option.map_eq_some_iff.mp hdrive
    obtain ⟨e, he, hwrites⟩ := List.any_eq_true.mp hany
    have hwrites' : e.1.reads = false := by simpa using hwrites
    have hrun := Machine.drive_exec hx
    refine ⟨tr, out, h', hrun, ⟨e, he, hwrites'⟩, ?_⟩
    rcases (handleOne_gated hrun).1 with hreads | hopens
    · rw [hreads e he] at hwrites'
      cases hwrites'
    · exact hopens
  · have hdrive : ((machine.drive (departing (Demo.peer "web")) 40 0
        (handleOne Demo.env Demo.codec (Demo.protocol "web") 2 "other" 0).run
        (Demo.host Demo.frozen [] [])).map fun x => x.1.isEmpty) = some false := by
      decide +kernel
    obtain ⟨⟨tr, out, h'⟩, hx, hne⟩ := Option.map_eq_some_iff.mp hdrive
    have hrun := Machine.drive_exec hx
    refine ⟨tr, out, h', hrun, by simpa using hne, (handleOne_gated hrun).2.2 "another" ?_⟩
    intro hello hopens
    rw [Demo.hello_of_opens hopens]
    exact ⟨by decide, by decide⟩

end Transport

end Mincontainer
