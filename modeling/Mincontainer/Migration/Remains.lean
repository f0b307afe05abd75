import Mincontainer.Migration.Rounds

set_option relaxedAutoImplicit false
set_option autoImplicit false

/-!
# What a failed transfer leaves behind

The snapshot is received into a partial file, which gets its name when its checksum clears. Three exits
of the receive loop remove the partial file: more bytes than were announced, a frame that does not
belong there, and an end frame that does not match. All the others leave it in the inbox.

## Main definitions

* `Mincontainer.Transport.judge` — what the frames that the loop read amount to.
* `Mincontainer.Transport.LeavesNothing` — the transfer left no partial file of its own, and the
  committed file as it was.

## Main results

* `Mincontainer.Transport.partFile_ne_finalFile` — the two files are different.
* `Mincontainer.Transport.receive_error` — what becomes of the partial file when the loop fails.
* `Mincontainer.Transport.failed_transfer_iff` — which failed transfers leave nothing behind.
-/

namespace Mincontainer

open Effects Files Bytes

/-! ### Appending -/

/-- A write to the file failed. -/
def Unwritten (p : Path) (tr : List HostSig.Event) : Prop :=
  ∃ d k e, ⟨.append p d, (.error (k, e) : Except (ℕ × String) Unit)⟩ ∈ tr

@[simp] lemma Unwritten.append_iff {p : Path} {tr tr' : List HostSig.Event} :
    Unwritten p (tr ++ tr') ↔ Unwritten p tr ∨ Unwritten p tr' := by
  simp [Unwritten, exists_or]

section

variable {α : Type} {R : Host → Host → Prop} {h h' : Host} {tr : List HostSig.Event} {p : Path}

/-- A program that does not append has no failed writes. -/
lemma Runs.not_unwritten {x : HostM α} {out : Option (Except RuntimeError α)}
    (hx : x.run.Within fun o : HostOp => ∀ d, o ≠ .append p d) (hrun : Runs R x h tr out h') :
    ¬ Unwritten p tr := by
  rintro ⟨d, k, e, hmem⟩
  exact Exec.mem_within hx hrun _ hmem d rfl

/-- After a write the file still holds bytes; the write failed exactly when the call says so. -/
lemma appendTo_inv {b data : Bytes} {f : String → RuntimeError} {r : Except RuntimeError Unit}
    (hk : Keeps R p) (hb : h.file p = some (.bytes b))
    (hrun : Runs R (appendTo p data f) h tr (some r) h') :
    ∃ b', h'.file p = some (.bytes b') ∧ (Unwritten p tr ↔ r ≠ .ok ()) := by
  obtain ⟨h₁, reply, tr', hR, hr, rfl, hrun₁⟩ := Exec.call_some_inv hrun
  have hb₁ : h₁.file p = some (.bytes b) := (hk.star hR).trans hb
  rcases reply with ⟨k, e⟩ | u
  · obtain ⟨rfl, hR', rfl⟩ := Exec.ret_some_inv hrun₁
    refine ⟨b ++ data.take k, (hk.star hR').trans (h₁.file_extend hb₁ _), iff_of_true ?_ ?_⟩
    · exact ⟨data, k, e, List.mem_cons_self⟩
    · rintro ⟨⟩
  · obtain ⟨rfl, hR', rfl⟩ := Exec.ret_some_inv hrun₁
    refine ⟨b ++ data, (hk.star hR').trans (h₁.file_extend hb₁ _), iff_of_false ?_ ?_⟩
    · rintro ⟨d, k, e, hmem⟩
      cases List.mem_singleton.mp hmem
    · exact fun h => h rfl

/-- Removing a file. -/
lemma file_removeFile (h : Host) (p : Path) : (machine.next h (.removeFile p) ()).file p = none := by
  change (if h.kind p = some .file then ({ h with fs := h.fs.remove p } : Host) else h).file p = none
  split
  · simp [Host.file, Tree.get_remove]
  · rename_i hkind
    cases hfile : h.file p with
    | none => rfl
    | some c => exact absurd ((h.kind_file_iff p).mpr ⟨c, hfile⟩) hkind

end

namespace Transport

/-! ### The two files -/

/-- **The partial file is not the committed one.** Their last components differ. -/
lemma partFile_ne_finalFile (env : Env) (hello : Hello) :
    (partFile env hello).path ≠ (finalFile env hello).path := by
  obtain ⟨piece, hpiece⟩ := inboxFile_path env hello
  rw [partFile, finalFile, hpiece _ List.mem_cons_self, hpiece _ (List.mem_cons_of_mem _ List.mem_cons_self)]
  intro heq
  have hlen := congrArg String.length (List.cons.inj (List.append_inj_right' heq rfl)).1
  rw [String.length_append, String.length_append] at hlen
  exact absurd (Nat.add_left_cancel hlen) (by decide)

/-! ### What the frames amount to -/

/-- What the receiver makes of a stream of frames. -/
inductive Verdict where
  /-- More is to come. -/
  | pending
  /-- A read failed, or what it returned cannot be understood. -/
  | garbled
  /-- Too many bytes, a frame that does not belong there, or an end that does not match. -/
  | refused
  | accepted
deriving DecidableEq, Repr

/-- What the end frame amounts to after `n` bytes. -/
def judgeEof (proto : Protocol) (hello : Hello) (n : ℕ) (crc : Crc32) (last : Bytes) : Verdict :=
  match proto.eof.decode last with
  | .error _ => .garbled
  | .ok eof =>
    if eof.bytes ≠ n ∨ eof.crc32 ≠ crc.finish ∨ crc.finish ≠ hello.snapshotCrc32 then .refused
    else .accepted

/-- What the results of the reads amount to, header and payload by turns, after `n` bytes. -/
def judge (proto : Protocol) (hello : Hello) : ℕ → Crc32 → List (Except String Bytes) → Verdict
  | _, _, [] => .pending
  | _, _, .error _ :: _ => .garbled
  | n, crc, .ok hdr :: rs =>
    match parseHeader hdr with
    | .error _ => .garbled
    | .ok (t, _) =>
      if t = .chunk then
        match rs with
        | [] => .pending
        | .error _ :: _ => .garbled
        | .ok body :: rs =>
          if n + body.length > hello.snapshotBytes then .refused
          else judge proto hello (n + body.length) (crc.update body) rs
      else if t = .eof then
        match rs with
        | [] => .pending
        | .error _ :: _ => .garbled
        | .ok last :: _ => judgeEof proto hello n crc last
      else
        .refused

section

variable {env : Env} {codec : Codec Manifest} {proto : Protocol} {fuel : ℕ} {token : String}
  {index : UInt8} {R : Host → Host → Prop} {h h' : Host} {tr : List HostSig.Event} {part : PathBuf}
  {hello : Hello} {n : ℕ} {crc : Crc32} {rs : List (Except String Bytes)}

/-- A header that could not be read. -/
lemma judge_header {r : Except String Bytes} {e : RuntimeError} (h : readsHeader r = .error e) :
    judge proto hello n crc [r] = .garbled := by
  rcases r with m | hdr
  · rfl
  · have hparse : parseHeader hdr = .error e := h
    simp only [judge, hparse]

/-- A chunk that could not be read. -/
lemma judge_unread {hdr : Bytes} {len : ℕ} {m : String} {t : FrameType}
    (hparse : parseHeader hdr = .ok (t, len)) (ht : t = .chunk ∨ t = .eof) :
    judge proto hello n crc [.ok hdr, .error m] = .garbled := by
  rcases ht with rfl | rfl
  all_goals
    simp only [judge, hparse]
    rfl

/-- A chunk. -/
lemma judge_chunk {hdr body : Bytes} {len : ℕ} (hparse : parseHeader hdr = .ok (.chunk, len)) :
    judge proto hello n crc (.ok hdr :: .ok body :: rs) =
      if n + body.length > hello.snapshotBytes then .refused
      else judge proto hello (n + body.length) (crc.update body) rs := by
  rw [judge, hparse]
  rfl

/-- The end frame. -/
lemma judge_eof {hdr last : Bytes} {len : ℕ} (hparse : parseHeader hdr = .ok (.eof, len)) :
    judge proto hello n crc (.ok hdr :: .ok last :: rs) = judgeEof proto hello n crc last := by
  rw [judge, hparse]
  rfl

/-- Any other frame. -/
lemma judge_alien {hdr : Bytes} {len : ℕ} {t : FrameType} (hparse : parseHeader hdr = .ok (t, len))
    (hchunk : t ≠ .chunk) (heof : t ≠ .eof) : judge proto hello n crc [.ok hdr] = .refused := by
  cases t with
  | chunk => exact absurd rfl hchunk
  | eof => exact absurd rfl heof
  | _ =>
    simp only [judge, hparse]
    rfl

/-! ### What becomes of the partial file -/

/-- A transfer failed after these events: the peer was refused and the file is gone, or the peer was not
refused, or a write failed before that, and the file is still there. -/
def Leftover (v : Verdict) (p : Path) (tr : List HostSig.Event) (h : Host) : Prop :=
  (v = .refused ∧ ¬ Unwritten p tr ∧ h.file p = none) ∨
    ((v = .refused → Unwritten p tr) ∧ ∃ b, h.file p = some (.bytes b))

lemma Leftover.gone_iff {v : Verdict} {p : Path} (hl : Leftover v p tr h) :
    h.file p = none ↔ v = .refused ∧ ¬ Unwritten p tr := by
  rcases hl with ⟨hv, hw, hgone⟩ | ⟨hv, b, hb⟩
  · exact iff_of_true hgone ⟨hv, hw⟩
  · refine iff_of_false (by rw [hb]; rintro ⟨⟩) fun ⟨hrefused, hw⟩ => hw (hv hrefused)

/-- What happened before without a failed write does not count. -/
lemma Leftover.prepend {v : Verdict} {p : Path} {t : List HostSig.Event} (ht : ¬ Unwritten p t)
    (hl : Leftover v p tr h) : Leftover v p (t ++ tr) h := by
  rcases hl with ⟨hv, hw, hgone⟩ | ⟨hv, hb⟩
  · exact .inl ⟨hv, by simp [ht, hw], hgone⟩
  · exact .inr ⟨fun hrefused => Unwritten.append_iff.mpr (.inr (hv hrefused)), hb⟩

lemma reads_unwritten {p : Path} {o : HostOp} (ho : o.reads = true) : ∀ d, o ≠ .append p d := by
  rintro d rfl
  cases ho

/-- Cleaning up by hand removes the file, whatever is read and answered after it. -/
lemma cleanUp_file {α : Type} {p : Path} {x : HostM α} {r : Except RuntimeError α} (hk : Keeps R p)
    (hrun : Runs R (sys (.removeFile p) >>= fun _ => x) h tr (some r) h')
    (hx : x.run.Within fun o : HostOp => o.reads = true) :
    h'.file p = none ∧ ¬ Unwritten p tr := by
  obtain ⟨g, reply, tr', hR, -, rfl, hrun₁⟩ := Exec.call_some_inv hrun
  change Runs R x _ tr' (some r) h' at hrun₁
  have hrest : ¬ Unwritten p tr' :=
    Runs.not_unwritten (hx.mono fun o ho => reads_unwritten ho) hrun₁
  constructor
  · rw [Runs.file_kept_of_reads hk hx hrun₁]
    exact file_removeFile g p
  · rintro ⟨d, k, e, hmem⟩
    rcases List.mem_cons.mp hmem with heq | hmem
    · cases heq
    · exact hrest ⟨d, k, e, hmem⟩

/-- The end of the transfer, when it fails. -/
lemma checkEof_error {hdr : Bytes} {len : ℕ} {e : RuntimeError} {b : Bytes}
    (hparse : parseHeader hdr = .ok (.eof, len)) (hk : Keeps R part.path)
    (hb : h.file part.path = some (.bytes b))
    (hrun : Runs R (checkEof proto part hello n crc len) h tr (some (.error e)) h') :
    Leftover (judge proto hello n crc (.ok hdr :: heard tr)) part.path tr h' := by
  rcases Exec.fallible_bind_inv hrun with ⟨hout, -⟩ | ⟨m, -, h₁⟩ | ⟨last, tr₁, tr₂, g, rfl, h₁, h₂⟩
  · cases hout
  · -- the payload could not be read
    have hkept := (Runs.file_kept_of_reads hk (readPayload_reads _) h₁).trans hb
    rcases readPayload_inv h₁ with ⟨-, hout⟩ | ⟨r, hr, hout, -⟩
    · cases hout
    rcases r with m | last <;> rcases hout with hout | hout <;> cases hout
    rw [hr, judge_unread hparse (.inr rfl)]
    exact .inr ⟨by rintro ⟨⟩, b, hkept⟩
  obtain ⟨hlast, -⟩ := readPayload_heard h₁
  have hb₁ := (Runs.file_kept_of_reads hk (readPayload_reads _) h₁).trans hb
  have hw₁ : ¬ Unwritten part.path tr₁ :=
    Runs.not_unwritten ((readPayload_reads _).mono fun o ho => reads_unwritten ho) h₁
  rw [heard_append, hlast, List.singleton_append, judge_eof hparse]
  refine .prepend hw₁ ?_
  cases hdec : proto.eof.decode last with
  | error m =>
    -- it is no end frame
    rw [hdec] at h₂
    rcases Exec.fallible_bind_inv h₂ with ⟨hout, -⟩ | ⟨m', -, h₃⟩ | ⟨eof, _, _, _, rfl, h₃, -⟩
    · cases hout
    · obtain ⟨-, hR, -⟩ := Exec.ret_some_inv h₃
      refine .inr ⟨fun hrefused => ?_, b, (hk.star hR).trans hb₁⟩
      simp [judgeEof, hdec] at hrefused
    · exact (Exec.throw_ok_false h₃).elim
  | ok eof =>
    rw [hdec] at h₂
    rcases Exec.fallible_bind_inv h₂ with ⟨hout, -⟩ | ⟨m', -, h₃⟩ | ⟨eof', _, tr₃, g₁, rfl, h₃, h₄⟩
    · cases hout
    · obtain ⟨-, -, hres⟩ := Exec.ret_some_inv h₃
      cases hres
    obtain ⟨rfl, hR, hres⟩ := Exec.ret_some_inv h₃
    obtain rfl := Except.ok.inj hres
    have hb₂ := (hk.star hR).trans hb₁
    rcases Exec.fallible_bind_inv h₄ with ⟨hout, -⟩ | ⟨m', -, h₅⟩ | ⟨_, tr₄, tr₅, g₂, rfl, h₅, h₆⟩
    · cases hout
    · -- the flush failed
      obtain ⟨b', hb', hw⟩ := appendTo_inv hk hb₂ h₅
      exact .inr ⟨fun _ => hw.mpr (by rintro ⟨⟩), b', hb'⟩
    obtain ⟨b', hb', hw⟩ := appendTo_inv hk hb₂ h₅
    dsimp only at h₆
    rw [List.nil_append]
    refine .prepend (mt hw.mp fun hne => hne rfl) ?_
    split at h₆
    · -- the end does not match
      rename_i hmatch
      obtain ⟨hgone, hwritten⟩ := cleanUp_file hk h₆ (Fallible.within_bind
        (writeFrame_reads _ _) fun _ => Fallible.within_bind ((within_sys .flush).mpr rfl) fun _ => trivial)
      refine .inl ⟨?_, hwritten, hgone⟩
      simp only [judgeEof, hdec]
      exact if_pos hmatch
    · obtain ⟨-, -, hres⟩ := Exec.ret_some_inv h₆
      cases hres

/-- **What becomes of the partial file** when the receive loop fails.

**Proof sketch.** Induction on the rounds, along the frames that were read: a round that fails ends the
judgement, and one that goes on wrote its chunk and leaves the judgement to the rest. -/
lemma receive_error {e : RuntimeError} {b : Bytes} (hk : Keeps R part.path)
    (hb : h.file part.path = some (.bytes b))
    (hrun : Runs R (receive proto part hello fuel n crc) h tr (some (.error e)) h') :
    Leftover (judge proto hello n crc (heard tr)) part.path tr h' := by
  induction fuel generalizing h tr n crc b with
  | zero =>
    obtain ⟨g, r, tr', -, -, -, -⟩ := Exec.call_some_inv hrun
    exact (r : Empty).elim
  | succ fuel ih =>
    rcases Exec.fallible_bind_inv hrun with ⟨hout, -⟩ | ⟨m, -, h₁⟩ |
      ⟨⟨t, len⟩, tr₁, tr₂, g, rfl, h₁, h₂⟩
    · cases hout
    · -- the header could not be read
      have hkept := (Runs.file_kept_of_reads hk readHeader_reads h₁).trans hb
      rcases readHeader_inv h₁ with ⟨-, hout⟩ | ⟨r, hr, hout⟩
      · cases hout
      have hbad : readsHeader r = .error m := by
        rcases hout with hout | hout
        · cases hout
        · exact (Option.some.inj hout).symm
      rw [hr, judge_header hbad]
      exact .inr ⟨by rintro ⟨⟩, b, hkept⟩
    obtain ⟨hdr, htr₁, hparse⟩ := readHeader_heard h₁
    have hb₁ := (Runs.file_kept_of_reads hk readHeader_reads h₁).trans hb
    have hw₁ : ¬ Unwritten part.path tr₁ :=
      Runs.not_unwritten (readHeader_reads.mono fun o ho => reads_unwritten ho) h₁
    rw [heard_append, htr₁, List.singleton_append]
    refine .prepend hw₁ ?_
    dsimp only at h₂
    split at h₂
    · -- a chunk
      rcases Exec.fallible_bind_inv h₂ with ⟨hout, -⟩ | ⟨m, -, h₃⟩ | ⟨body, tr₃, tr₄, g₁, rfl, h₃, h₄⟩
      · cases hout
      · have hkept := (Runs.file_kept_of_reads hk (readPayload_reads _) h₃).trans hb₁
        rcases readPayload_inv h₃ with ⟨-, hout⟩ | ⟨r, hr, hout, -⟩
        · cases hout
        rcases r with m | body <;> rcases hout with hout | hout <;> cases hout
        rw [hr, judge_unread hparse (.inl rfl)]
        exact .inr ⟨by rintro ⟨⟩, b, hkept⟩
      obtain ⟨hbody, -⟩ := readPayload_heard h₃
      have hb₂ := (Runs.file_kept_of_reads hk (readPayload_reads _) h₃).trans hb₁
      have hw₃ : ¬ Unwritten part.path tr₃ :=
        Runs.not_unwritten ((readPayload_reads _).mono fun o ho => reads_unwritten ho) h₃
      have happend : (appendTo part.path body fun e =>
          .migration s!"write {part.text}: {e}").run.Within fun o : HostOp => o.hears = false :=
        (within_appendTo _ _ _).mpr rfl
      rw [heard_append, hbody, List.singleton_append, judge_chunk hparse]
      refine .prepend hw₃ ?_
      rcases Exec.fallible_bind_inv h₄ with ⟨hout, -⟩ | ⟨m, -, h₅⟩ | ⟨_, tr₅, tr₆, g₂, rfl, h₅, h₆⟩
      · cases hout
      · -- the write failed
        obtain ⟨b', hb', hw⟩ := appendTo_inv hk hb₂ h₅
        exact .inr ⟨fun _ => hw.mpr (by rintro ⟨⟩), b', hb'⟩
      obtain ⟨b', hb', hw⟩ := appendTo_inv hk hb₂ h₅
      refine .prepend (mt hw.mp fun hne => hne rfl) ?_
      rw [heard_append, Runs.heard_nil happend h₅, List.nil_append]
      split at h₆
      · -- more than was announced
        rename_i hcap
        obtain ⟨hgone, hwritten⟩ := cleanUp_file hk h₆ trivial
        exact .inl ⟨if_pos hcap, hwritten, hgone⟩
      · rename_i hcap
        rw [if_neg hcap]
        exact ih hb' h₆
    · -- the end frame
      exact checkEof_error hparse hk hb₁ h₂
    · -- any other frame
      rename_i hchunk heof
      obtain ⟨hgone, hwritten⟩ := cleanUp_file hk h₂ trivial
      rw [Runs.heard_nil (giveUp_deaf _ _) h₂, judge_alien hparse hchunk heof]
      exact .inl ⟨rfl, hwritten, hgone⟩

/-- A transfer that cleared was accepted. -/
lemma checkEof_accepted {hdr : Bytes} {len : ℕ} {u : Unit}
    (hparse : parseHeader hdr = .ok (.eof, len))
    (hrun : Runs R (checkEof proto part hello n crc len) h tr (some (.ok u)) h') :
    judge proto hello n crc (.ok hdr :: heard tr) = .accepted := by
  obtain ⟨last, tr₁, tr₂, g, rfl, h₁, h₂⟩ := Exec.fallible_bind_ok hrun
  obtain ⟨hlast, -⟩ := readPayload_heard h₁
  rw [heard_append, hlast, List.singleton_append, judge_eof hparse]
  obtain ⟨eof, tr₃, tr₄, g₁, rfl, h₃, h₄⟩ := Exec.fallible_bind_ok h₂
  have hdec : proto.eof.decode last = .ok eof := by
    split at h₃
    · obtain ⟨-, -, hres⟩ := Exec.ret_some_inv h₃
      obtain rfl := Except.ok.inj hres
      assumption
    · exact (Exec.throw_ok_false h₃).elim
  obtain ⟨_, tr₅, tr₆, g₂, rfl, -, h₅⟩ := Exec.fallible_bind_ok h₄
  dsimp only at h₅
  split at h₅
  · obtain ⟨_, _, _, _, -, -, h₆⟩ := Exec.fallible_bind_ok h₅
    obtain ⟨_, _, _, _, -, -, h₇⟩ := Exec.fallible_bind_ok h₆
    obtain ⟨_, _, _, _, -, -, h₈⟩ := Exec.fallible_bind_ok h₇
    exact (Exec.throw_ok_false h₈).elim
  · rename_i hmatch
    simp only [judgeEof, hdec]
    exact if_neg hmatch

lemma receive_accepted {u : Unit}
    (hrun : Runs R (receive proto part hello fuel n crc) h tr (some (.ok u)) h') :
    judge proto hello n crc (heard tr) = .accepted := by
  induction fuel generalizing h tr n crc with
  | zero =>
    obtain ⟨r, -⟩ := Exec.fallible_bind_ok hrun
    exact (r : Empty).elim
  | succ fuel ih =>
    obtain ⟨⟨t, len⟩, tr₁, tr₂, g, rfl, h₁, h₂⟩ := Exec.fallible_bind_ok hrun
    obtain ⟨hdr, htr₁, hparse⟩ := readHeader_heard h₁
    rw [heard_append, htr₁, List.singleton_append]
    dsimp only at h₂
    split at h₂
    · -- a chunk
      obtain ⟨body, tr₃, tr₄, g₁, rfl, h₃, h₄⟩ := Exec.fallible_bind_ok h₂
      obtain ⟨hbody, -⟩ := readPayload_heard h₃
      obtain ⟨_, tr₅, tr₆, g₂, rfl, h₅, h₆⟩ := Exec.fallible_bind_ok h₄
      have hdeaf : heard tr₅ = [] := Runs.heard_nil ((within_appendTo _ _ _).mpr rfl) h₅
      rw [heard_append, hbody, List.singleton_append, judge_chunk hparse, heard_append, hdeaf,
        List.nil_append]
      split at h₆
      · obtain ⟨_, _, _, _, -, -, h₇⟩ := Exec.fallible_bind_ok h₆
        exact (Exec.throw_ok_false h₇).elim
      · rename_i hcap
        rw [if_neg hcap]
        exact ih h₆
    · -- the end frame
      exact checkEof_accepted hparse h₂
    · -- any other frame
      obtain ⟨_, _, _, _, -, -, h₃⟩ := Exec.fallible_bind_ok h₂
      exact (Exec.throw_ok_false h₃).elim

/-! ### The whole transfer -/

/-- The partial file was created. -/
def Created (env : Env) (hello : Hello) (tr : List HostSig.Event) : Prop :=
  ⟨.createFile (partFile env hello).path, (.ok () : Except String Unit)⟩ ∈ tr

/-- The call that gives the partial file the name of the committed one. -/
def commit (env : Env) (hello : Hello) : HostSig.Event :=
  ⟨.rename (partFile env hello).path (finalFile env hello).path, (.ok () : Except String Unit)⟩

/-- The partial file got the name of the committed one. -/
def Renamed (env : Env) (hello : Hello) (tr : List HostSig.Event) : Prop := commit env hello ∈ tr

/-- A program that creates no file has not created the partial one. -/
lemma not_created {α : Type} {x : HostM α} {out : Option (Except RuntimeError α)}
    (hx : x.run.Within fun o : HostOp => ∀ p, o ≠ .createFile p) (hrun : Runs R x h tr out h') :
    ¬ Created env hello tr := fun hmem =>
  Exec.mem_within hx hrun _ hmem _ rfl

@[simp] lemma Created.append_iff {tr tr' : List HostSig.Event} :
    Created env hello (tr ++ tr') ↔ Created env hello tr ∨ Created env hello tr' := by
  simp [Created]

lemma reads_creates {o : HostOp} (ho : o.reads = true) : ∀ p, o ≠ .createFile p := by
  rintro p rfl
  cases ho

/-- Until the rename, the committed file is not touched. -/
lemma receiveFile_final {out : Option (Except RuntimeError PathBuf)}
    (hk : Keeps R (finalFile env hello).path)
    (hrun : Runs R (receiveFile env proto fuel hello) h tr out h')
    (hrename : ¬ Renamed env hello tr) :
    h'.file (finalFile env hello).path = h.file (finalFile env hello).path := by
  have hne : (finalFile env hello).path ≠ (partFile env hello).path :=
    (partFile_ne_finalFile env hello).symm
  have hobeys : Fallible.Obeys (fun o : HostOp => ¬ o.overwrites (finalFile env hello).path ∨
      o = .rename (partFile env hello).path (finalFile env hello).path)
      (fun b => b = finalFile env hello) (receiveFile env proto fuel hello) :=
    receiveFile_obeys (fun o ho => .inl (HostOp.not_overwrites_of_reads ho _)) (.inl fun h => h)
      ⟨.inl hne, fun _ => .inl hne, .inl hne⟩ (.inr rfl)
  refine Exec.rel_of_good (K := fun a b => Host.file b (finalFile env hello).path =
    Host.file a (finalFile env hello).path) (G := fun e : HostSig.Event => e ≠
      ⟨.rename (partFile env hello).path (finalFile env hello).path, (.ok () : Except String Unit)⟩) (fun _ => rfl)
    (fun h₁ h₂ => h₂.trans h₁) ?_ hk hobeys.within hrun ?_
  · rintro w o r (ho | rfl) hgood -
    · exact w.next_file ho r
    · rcases r with m | ⟨⟩
      · rfl
      · exact absurd rfl hgood
  · rintro e he rfl
    exact hrename he

/-- A file that was received was renamed. -/
lemma receiveFile_renamed {final : PathBuf}
    (hrun : Runs R (receiveFile env proto fuel hello) h tr (some (.ok final)) h') :
    Renamed env hello tr := by
  obtain ⟨_, tr₁, tr₂, g, rfl, -, h₂⟩ := Exec.fallible_bind_ok hrun
  obtain ⟨_, tr₃, tr₄, g₁, rfl, -, h₄⟩ := Exec.fallible_bind_ok h₂
  obtain ⟨_, tr₅, tr₆, g₂, rfl, -, h₆⟩ := Exec.fallible_bind_ok h₄
  obtain ⟨g₃, r, tr₇, -, -, rfl, h₇⟩ := Exec.call_some_inv h₆
  rcases r with m | ⟨⟩
  · obtain ⟨-, -, hres⟩ := Exec.ret_some_inv h₇
    cases hres
  · exact List.mem_append_right _ (List.mem_append_right _ (List.mem_append_right _
      List.mem_cons_self))

/-- **What becomes of the partial file** when it is not committed: once it was created, the judgement
on the frames decides.

**Proof sketch.** Nothing was created before the file was, and then it is empty; the loop is
`receive_error`; a rename that failed comes after the peer was accepted, and leaves the file. -/
lemma receiveFile_error {e : RuntimeError} (hk : Keeps R (partFile env hello).path)
    (hrun : Runs R (receiveFile env proto fuel hello) h tr (some (.error e)) h') :
    Created env hello tr →
      Leftover (judge proto hello 0 Crc32.new (heard tr)) (partFile env hello).path tr h' := by
  have hdir : (mkdirAll (inbox env) fun e => .migration s!"mkdir inbox: {e}").run.Within
      fun o : HostOp => o = .mkdirAll (inbox env) := (within_mkdirAll _ _).mpr rfl
  have hcreate : (createFile (partFile env hello).path fun e =>
      .migration s!"create {(partFile env hello).text}: {e}").run.Within
      fun o : HostOp => o = .createFile (partFile env hello).path := (within_createFile _ _).mpr rfl
  intro hcreated
  rcases Exec.fallible_bind_inv hrun with ⟨hout, -⟩ | ⟨m, -, h₁⟩ | ⟨_, tr₁, tr₂, g, rfl, h₁, h₂⟩
  · cases hout
  · exact absurd hcreated (not_created (hdir.mono fun o ho p hp => by cases ho.symm.trans hp) h₁)
  have hw₁ : ¬ Unwritten (partFile env hello).path tr₁ :=
    Runs.not_unwritten (hdir.mono fun o ho d hp => by cases ho.symm.trans hp) h₁
  have hd₁ : heard tr₁ = [] := Runs.heard_nil (hdir.mono fun o ho => by rw [ho]; rfl) h₁
  have hc₁ : ¬ Created env hello tr₁ :=
    not_created (hdir.mono fun o ho p hp => by cases ho.symm.trans hp) h₁
  rw [heard_append, hd₁, List.nil_append]
  refine .prepend hw₁ ?_
  rcases Exec.fallible_bind_inv h₂ with ⟨hout, -⟩ | ⟨m, -, h₃⟩ | ⟨_, tr₃, tr₄, g₁, rfl, h₃, h₄⟩
  · cases hout
  · -- the file could not be created
    obtain ⟨g₂, r, tr', -, -, rfl, hret⟩ := Exec.call_some_inv h₃
    rcases r with m' | ⟨⟩
    · obtain ⟨rfl, -, -⟩ := Exec.ret_some_inv hret
      rcases Created.append_iff.mp hcreated with hc | hc
      · exact absurd hc hc₁
      · cases List.mem_singleton.mp hc
    · obtain ⟨-, -, hres⟩ := Exec.ret_some_inv hret
      cases hres
  have hb := createFile_ok hk h₃
  have hw₃ : ¬ Unwritten (partFile env hello).path tr₃ :=
    Runs.not_unwritten (hcreate.mono fun o ho d hp => by cases ho.symm.trans hp) h₃
  have hd₃ : heard tr₃ = [] := Runs.heard_nil (hcreate.mono fun o ho => by rw [ho]; rfl) h₃
  rw [heard_append, hd₃, List.nil_append]
  refine .prepend hw₃ ?_
  rcases Exec.fallible_bind_inv h₄ with ⟨hout, -⟩ | ⟨m, hm, h₅⟩ | ⟨_, tr₅, tr₆, g₂, rfl, h₅, h₆⟩
  · cases hout
  · obtain rfl : e = m := Except.error.inj (Option.some.inj hm)
    exact receive_error hk hb h₅
  · -- the rename failed
    obtain ⟨chunks, -, -, -, -, -, -, -, -, hfile⟩ := receive_ok (Nat.zero_le _) h₅
    have hd₆ : heard tr₆ = [] := by
      refine Runs.heard_nil (Fallible.within_bind ((within_sys (.rename _ _)).mpr rfl) fun r => ?_) h₆
      exact Fallible.within_bind (within_orErr _ _) fun _ => trivial
    rw [heard_append, hd₆, List.append_nil, receive_accepted h₅]
    obtain ⟨g₃, r, tr₇, hR, -, rfl, h₇⟩ := Exec.call_some_inv h₆
    refine .inr ⟨by rintro ⟨⟩, chunks.flatten, ?_⟩
    rcases r with m | ⟨⟩
    · obtain ⟨-, hR', -⟩ := Exec.ret_some_inv h₇
      exact (hk.star hR').trans ((hk.star hR).trans (hfile hk [] hb))
    · obtain ⟨-, -, hres⟩ := Exec.ret_some_inv h₇
      cases hres

/-! ### Failed transfers -/

/-- A handshake that was accepted takes two reads. -/
lemma greet_heard (hrun : Runs R (greet env proto token) h tr (some (.ok hello)) h') :
    (heard tr).length = 2 := by
  rw [greet_eq] at hrun
  obtain ⟨hello', tr₁, tr₂, g, rfl, hread, hrun₁⟩ := Exec.fallible_bind_ok hrun
  obtain ⟨hdr, body, len, rfl, -, -⟩ := readJson_ok hread
  obtain ⟨-, -, hrest⟩ := welcome_ok hrun₁
  have hdeaf : heard tr₂ = [] := by
    refine Runs.heard_nil (Fallible.within_bind (answerHello_deaf true "") fun _ => ?_) hrest
    refine Fallible.within_bind ?_ fun _ => trivial
    exact Fallible.within_bind ((within_sys .flush).mpr rfl) fun _ => within_orErr _ _
  rw [heard_append, hdeaf]
  rfl

/-- A trace opens with one hello at most. -/
lemma Opens.unique {hello' : Hello} (ho : Opens proto tr hello) (ho' : Opens proto tr hello') :
    hello = hello' := by
  obtain ⟨hdr, m, body, rest, htr, -, hdec⟩ := ho
  obtain ⟨hdr', m', body', rest', htr', -, hdec'⟩ := ho'
  rw [htr] at htr'
  cases htr'
  rw [hdec] at hdec'
  exact Except.ok.inj hdec'

lemma Opens.append {tr' : List HostSig.Event} (ho : Opens proto tr hello) :
    Opens proto (tr ++ tr') hello := by
  obtain ⟨hdr, m, body, rest, rfl, hparse, hdec⟩ := ho
  exact ⟨hdr, m, body, rest ++ tr', rfl, hparse, hdec⟩

/-- The transfer left no partial file of its own, and the committed file as it was. -/
structure LeavesNothing (env : Env) (hello : Hello) (h : Host) (tr : List HostSig.Event) (h' : Host) :
    Prop where
  part : Created env hello tr → h'.file (partFile env hello).path = none
  final : h'.file (finalFile env hello).path = h.file (finalFile env hello).path

/-- The transfer came to its end before the partial file was created, or all its data could be written
and the peer was refused: it sent more than it announced, a frame that does not belong there, or an end
that does not match. -/
def TurnsAway (env : Env) (proto : Protocol) (hello : Hello) (tr : List HostSig.Event) : Prop :=
  Created env hello tr →
    judge proto hello 0 Crc32.new ((heard tr).drop 2) = .refused ∧
      ¬ Unwritten (partFile env hello).path tr

/-- **What a failed transfer leaves behind.** In every run of the receiver that fails before the
rename, whatever the peer sends and whichever call fails:

* if the peer sent no hello, nothing on the host is changed;
* otherwise the file that was committed before is as it was, and the partial file is gone exactly if it
  was never created, or if the peer was refused and every write to the file succeeded.

**Proof sketch.** The handshake only reads and sends. What the receive loop leaves is
`receiveFile_error`; the frames it read are those after the first two reads. -/
theorem failed_transfer_iff {e : RuntimeError}
    (hrun : Runs R (handleOne env codec proto fuel token index) h tr (some (.error e)) h') :
    ((∀ hello, ¬ Opens proto tr hello) → ∀ e ∈ tr, e.1.reads = true) ∧
    ∀ hello, Opens proto tr hello → ¬ Renamed env hello tr →
      Keeps R (partFile env hello).path → Keeps R (finalFile env hello).path →
      h'.file (finalFile env hello).path = h.file (finalFile env hello).path ∧
        (LeavesNothing env hello h tr h' ↔ TurnsAway env proto hello tr) := by
  rcases Exec.fallible_bind_inv hrun with ⟨hout, -⟩ | ⟨m, -, h₁⟩ | ⟨hello', tr₁, tr₂, g, rfl, h₁, h₂⟩
  · cases hout
  · -- the handshake failed
    refine ⟨fun _ => Exec.mem_within (greet_reads token) h₁, fun hello hopens _ hk hkf => ?_⟩
    have hnew : ¬ Created env hello tr :=
      not_created ((greet_reads token).mono fun o ho => reads_creates ho) h₁
    have hfinal := Runs.file_kept_of_reads hkf (greet_reads token) h₁
    exact ⟨hfinal, iff_of_true ⟨fun hc => absurd hc hnew, hfinal⟩ fun hc => absurd hc hnew⟩
  obtain ⟨hopens', -⟩ := greet_opens h₁
  refine ⟨fun hnone => absurd hopens'.append (hnone hello'), ?_⟩
  intro hello hopens hrename hk hkf
  obtain rfl := hopens'.append.unique hopens
  have hnew : ¬ Created env hello' tr₁ :=
    not_created ((greet_reads token).mono fun o ho => reads_creates ho) h₁
  have hw₁ : ¬ Unwritten (partFile env hello').path tr₁ :=
    Runs.not_unwritten ((greet_reads token).mono fun o ho => reads_unwritten ho) h₁
  have hheard : (heard (tr₁ ++ tr₂)).drop 2 = heard tr₂ := by
    rw [heard_append, List.drop_left' (greet_heard h₁)]
  rcases Exec.fallible_bind_inv h₂ with ⟨hout, -⟩ | ⟨m, -, h₃⟩ | ⟨final, tr₃, tr₄, g₁, rfl, h₃, h₄⟩
  · cases hout
  · have hrename₂ : ¬ Renamed env hello' tr₂ := fun hmem =>
      hrename (List.mem_append_right _ hmem)
    have hfinal := (receiveFile_final hkf h₃ hrename₂).trans
      (Runs.file_kept_of_reads hkf (greet_reads token) h₁)
    have hpart := receiveFile_error hk h₃
    refine ⟨hfinal, fun hleaves hcreated => ?_, fun haway => ⟨fun hcreated => ?_, hfinal⟩⟩
    · have hc₂ := (Created.append_iff.mp hcreated).resolve_left hnew
      obtain ⟨hrefused, hw₂⟩ := (hpart hc₂).gone_iff.mp (hleaves.part hcreated)
      rw [hheard, Unwritten.append_iff]
      exact ⟨hrefused, not_or.mpr ⟨hw₁, hw₂⟩⟩
    · have hc₂ := (Created.append_iff.mp hcreated).resolve_left hnew
      obtain ⟨hrefused, hw⟩ := haway hcreated
      rw [hheard] at hrefused
      exact (hpart hc₂).gone_iff.mpr ⟨hrefused, fun hw₂ => hw (Unwritten.append_iff.mpr (.inr hw₂))⟩
  · -- what is renamed does not fail before the rename
    refine absurd ?_ hrename
    exact List.mem_append_right _ (List.mem_append_left _ (receiveFile_renamed h₃))

end

end Transport

/-! ### Two transfers that fail -/

namespace Demo

/-- The peer announces one byte and sends two. -/
def eager : ℕ → Host → (o : HostOp) → Option o.Reply
  | 9, _, .recv 5 => some (.ok [3, 0, 0, 0, 2])
  | 10, _, .recv 2 => some (.ok [1, 1])
  | i, h, o => if i < 2 then peer "web" i h o else none

/-- The peer sends its hello, and the stream fails. -/
def silent (i : ℕ) (h : Host) (o : HostOp) : Option o.Reply := if i < 2 then peer "web" i h o else none

/-- The event gave a file another name, or could not write to one. -/
def renamesOrFails : HostSig.Event → Bool
  | ⟨.rename _ _, _⟩ => true
  | ⟨.append _ _, r⟩ => !(r : Except (ℕ × String) Unit).isOk
  | _ => false

/-- The error that a run ended with. -/
def errorOf {α : Type} : Option (Except RuntimeError α) → Option RuntimeError
  | some (.error e) => some e
  | _ => none

lemma out_of_errorOf {α : Type} {out : Option (Except RuntimeError α)}
    (h : (errorOf out).isSome = true) : ∃ e, out = some (.error e) := by
  rcases out with _ | e | a
  · cases h
  · exact ⟨e, rfl⟩
  · cases h

end Demo

namespace Transport

/-- A peer that sends more than it announced is turned away, and leaves nothing behind. -/
theorem failed_transfer_iff_demo : ∃ tr e h',
    Runs quiet (handleOne Demo.env Demo.codec (Demo.protocol "web") 2 "secret" 0)
      (Demo.host Demo.frozen [] []) tr (some (.error e)) h' ∧
    Created Demo.env (Demo.hello "web") tr ∧
    LeavesNothing Demo.env (Demo.hello "web") (Demo.host Demo.frozen [] []) tr h' := by
  have hdrive : ((machine.drive (departing Demo.eager) 40 0
      (handleOne Demo.env Demo.codec (Demo.protocol "web") 2 "secret" 0).run
      (Demo.host Demo.frozen [] [])).map fun x =>
        (x.1.any (Demo.creates (partFile Demo.env (Demo.hello "web")).path) &&
          !x.1.any Demo.renamesOrFails && (Demo.errorOf x.2.1).isSome &&
          judge (Demo.protocol "web") (Demo.hello "web") 0 Crc32.new ((heard x.1).drop 2) = .refused :
            Bool)) = some true := by
    decide +kernel
  obtain ⟨⟨tr, out, h'⟩, hx, hall⟩ := Option.map_eq_some_iff.mp hdrive
  simp only [Bool.and_eq_true, Bool.not_eq_true', decide_eq_true_eq] at hall
  obtain ⟨⟨⟨hany, hclean⟩, herror⟩, hrefused⟩ := hall
  obtain ⟨e, rfl⟩ := Demo.out_of_errorOf herror
  have hrun := Machine.drive_exec hx
  have hcreated : Created Demo.env (Demo.hello "web") tr := Demo.created_of_any hany
  have hclean' := List.any_eq_false.mp hclean
  have hrename : ¬ Renamed Demo.env (Demo.hello "web") tr := fun hmem => hclean' _ hmem rfl
  have hwritten : ¬ Unwritten (partFile Demo.env (Demo.hello "web")).path tr := by
    rintro ⟨d, k, m, hmem⟩
    exact hclean' _ hmem rfl
  obtain ⟨hsilent, hopened⟩ := failed_transfer_iff hrun
  by_cases hopens : Opens (Demo.protocol "web") tr (Demo.hello "web")
  · refine ⟨tr, e, h', hrun, hcreated, ?_⟩
    refine (hopened _ hopens hrename (keeps_quiet _) (keeps_quiet _)).2.mpr fun _ => ?_
    exact ⟨hrefused, hwritten⟩
  · have hreads := hsilent fun hello ho => hopens (Demo.hello_of_opens ho ▸ ho)
    cases hreads _ hcreated

/-- **A stream that fails** after the handshake: the partial file stays in the inbox. -/
theorem failed_transfer_leaves : ¬ ∀ (env : Env) (codec : Codec Manifest) (proto : Protocol) (fuel : ℕ)
    (token : String) (index : UInt8) (h h' : Host) (tr : List HostSig.Event) (e : RuntimeError)
    (hello : Hello), Runs quiet (handleOne env codec proto fuel token index) h tr (some (.error e)) h' →
      Opens proto tr hello → ¬ Renamed env hello tr → LeavesNothing env hello h tr h' := by
  intro hclaim
  have hdrive : ((machine.drive (departing Demo.silent) 40 0
      (handleOne Demo.env Demo.codec (Demo.protocol "web") 2 "secret" 0).run
      (Demo.host Demo.frozen [] [])).map fun x =>
        (x.1.any (Demo.creates (partFile Demo.env (Demo.hello "web")).path) &&
          !x.1.any Demo.renamesOrFails && (Demo.errorOf x.2.1).isSome &&
          (x.2.2.file (partFile Demo.env (Demo.hello "web")).path).isSome : Bool)) = some true := by
    decide +kernel
  obtain ⟨⟨tr, out, h'⟩, hx, hall⟩ := Option.map_eq_some_iff.mp hdrive
  simp only [Bool.and_eq_true, Bool.not_eq_true'] at hall
  obtain ⟨⟨⟨hany, hclean⟩, herror⟩, hleft⟩ := hall
  obtain ⟨e, rfl⟩ := Demo.out_of_errorOf herror
  have hrun := Machine.drive_exec hx
  have hcreated : Created Demo.env (Demo.hello "web") tr := Demo.created_of_any hany
  have hopens : Opens (Demo.protocol "web") tr (Demo.hello "web") := by
    rcases Exec.fallible_bind_inv hrun with ⟨hout, -⟩ | ⟨m, -, h₁⟩ | ⟨hello', tr₁, tr₂, g, rfl, h₁, -⟩
    · cases hout
    · exact absurd hcreated (not_created ((greet_reads _).mono fun o ho => reads_creates ho) h₁)
    · obtain ⟨hopens, -⟩ := greet_opens h₁
      exact Demo.hello_of_opens hopens ▸ hopens.append
  have hrename : ¬ Renamed Demo.env (Demo.hello "web") tr := fun hmem =>
    List.any_eq_false.mp hclean _ hmem rfl
  have hgone := (hclaim _ _ _ _ _ _ _ _ _ _ _ hrun hopens hrename).part hcreated
  rw [hgone] at hleft
  cases hleft

end Transport

end Mincontainer
