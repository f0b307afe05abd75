import Mincontainer.Migration.Remains

set_option relaxedAutoImplicit false
set_option autoImplicit false

/-!
# What the committed file is worth

A snapshot is announced three times: the hello tells its length and its checksum, and so does the end
frame. Both checksums and the length of the end frame are compared with what arrived. The length of
the hello is only a limit: a peer that ends before it sent that much is not told apart from one that
sent it all.

## Main definitions

* `Mincontainer.Transport.payloads`, `Mincontainer.Transport.closing` — the data and the end frame that
  the loop read.
* `Mincontainer.Transport.KeepsItsWord` — the committed file is what arrived, and what was announced.

## Main results

* `Mincontainer.Transport.judge_accepted` — what the frames of an accepted transfer tell.
* `Mincontainer.Transport.receive_written` — what the partial file holds at the end of the loop.
* `Mincontainer.Transport.committed_iff` — which committed files are what was announced.
-/

namespace Mincontainer

open Effects Files Bytes

namespace Transport

/-! ### Data and end frame -/

/-- What ends with the only place of an element has one way to be split there. -/
lemma split_last {α : Type} {a : α} {l l₁ l₂ : List α} (ha : ∀ b ∈ l, b ≠ a)
    (h : l ++ [a] = l₁ ++ [a] ++ l₂) : l₁ = l := by
  rcases List.eq_nil_or_concat l₂ with rfl | ⟨l₂', b, rfl⟩
  · rw [List.append_nil] at h
    exact (List.append_cancel_right h).symm
  · rw [List.concat_eq_append, ← List.append_assoc] at h
    obtain ⟨rfl, -⟩ := List.append_inj' h rfl
    exact absurd rfl (ha a (by simp))

/-- The data of the chunks, from the results of the reads, header and payload by turns. -/
def payloads : List (Except String Bytes) → List Bytes
  | .ok hdr :: .ok body :: rs =>
    match parseHeader hdr with
    | .ok (.chunk, _) => body :: payloads rs
    | _ => []
  | _ => []

/-- What the end frame says. -/
def closing (proto : Protocol) : List (Except String Bytes) → Option Eof
  | .ok hdr :: .ok body :: rs =>
    match parseHeader hdr with
    | .ok (.chunk, _) => closing proto rs
    | .ok (.eof, _) => (proto.eof.decode body).toOption
    | _ => none
  | _ => none

section

variable {env : Env} {codec : Codec Manifest} {proto : Protocol} {fuel : ℕ} {token : String}
  {index : UInt8} {R : Host → Host → Prop} {h h' : Host} {tr : List HostSig.Event} {part : PathBuf}
  {hello : Hello} {n : ℕ} {crc : Crc32} {rs : List (Except String Bytes)} {hdr body : Bytes} {len : ℕ}

lemma payloads_chunk (hparse : parseHeader hdr = .ok (.chunk, len)) :
    payloads (.ok hdr :: .ok body :: rs) = body :: payloads rs := by
  rw [payloads, hparse]

lemma payloads_eof (hparse : parseHeader hdr = .ok (.eof, len)) :
    payloads (.ok hdr :: rs) = [] := by
  rcases rs with _ | ⟨m | last, rs⟩
  · rfl
  · rfl
  · rw [payloads, hparse]

lemma closing_chunk (hparse : parseHeader hdr = .ok (.chunk, len)) :
    closing proto (.ok hdr :: .ok body :: rs) = closing proto rs := by
  rw [closing, hparse]

lemma closing_eof {eof : Eof} (hparse : parseHeader hdr = .ok (.eof, len))
    (hdec : proto.eof.decode body = .ok eof) : closing proto (.ok hdr :: .ok body :: rs) = some eof := by
  rw [closing, hparse, hdec]
  rfl

/-- The end frame of an accepted transfer. -/
lemma judgeEof_accepted {last : Bytes} (h : judgeEof proto hello n crc last = .accepted) :
    ∃ eof, proto.eof.decode last = .ok eof ∧ eof.bytes = n ∧ eof.crc32 = crc.finish ∧
      hello.snapshotCrc32 = crc.finish := by
  rw [judgeEof] at h
  split at h
  · cases h
  · rename_i eof hdec
    split at h
    · cases h
    · rename_i hmatch
      simp only [not_or, not_not] at hmatch
      exact ⟨eof, hdec, hmatch.1, hmatch.2.1, hmatch.2.2.symm⟩

/-- **What the frames of an accepted transfer tell.** The end frame has the length and the checksum of
the data, the hello has its checksum, and announced no less.

**Proof sketch.** Induction on the frames, along the judgement. A chunk moves the count and the
checksum on, and the checksum of two buffers in sequence is that of their concatenation. -/
lemma judge_accepted (hn : n ≤ hello.snapshotBytes) (h : judge proto hello n crc rs = .accepted) :
    ∃ eof, closing proto rs = some eof ∧ eof.bytes = n + (payloads rs).flatten.length ∧
      eof.crc32 = (crc.update (payloads rs).flatten).finish ∧
      hello.snapshotCrc32 = (crc.update (payloads rs).flatten).finish ∧
      n + (payloads rs).flatten.length ≤ hello.snapshotBytes := by
  fun_induction judge proto hello n crc rs with
  | case1 => cases h
  | case2 => cases h
  | case3 => cases h
  | case4 => cases h
  | case5 => cases h
  | case6 => cases h
  | case7 n crc hdr len body rs hcap hparse ih =>
    rw [payloads_chunk hparse, closing_chunk hparse, List.flatten_cons, List.length_append,
      Crc32.update_append, ← Nat.add_assoc]
    exact ih (Nat.le_of_not_lt hcap) h
  | case8 => cases h
  | case9 => cases h
  | case10 n crc hdr len last rs hparse =>
    obtain ⟨eof, hdec, hbytes, hcrc, hhello⟩ := judgeEof_accepted h
    refine ⟨eof, closing_eof hparse hdec, ?_, ?_, ?_, ?_⟩
    all_goals rw [payloads_eof hparse]
    · exact hbytes
    · exact hcrc
    · exact hhello
    · exact hn
  | case11 => cases h

/-! ### What is written -/

/-- **What the partial file holds** when the loop has ended well: the data, behind what it held before.

**Proof sketch.** Induction on the rounds; a round that goes on has appended the data of its chunk. -/
lemma receive_written {u : Unit} {b : Bytes} (hk : Keeps R part.path)
    (hb : h.file part.path = some (.bytes b))
    (hrun : Runs R (receive proto part hello fuel n crc) h tr (some (.ok u)) h') :
    h'.file part.path = some (.bytes (b ++ (payloads (heard tr)).flatten)) := by
  induction fuel generalizing h tr n crc b with
  | zero =>
    obtain ⟨r, -⟩ := Exec.fallible_bind_ok hrun
    exact (r : Empty).elim
  | succ fuel ih =>
    obtain ⟨⟨t, len⟩, tr₁, tr₂, g, rfl, h₁, h₂⟩ := Exec.fallible_bind_ok hrun
    obtain ⟨hdr, htr₁, hparse⟩ := readHeader_heard h₁
    have hb₁ := (Runs.file_kept_of_reads hk readHeader_reads h₁).trans hb
    rw [heard_append, htr₁, List.singleton_append]
    dsimp only at h₂
    split at h₂
    · -- a chunk
      obtain ⟨body, tr₃, tr₄, g₁, rfl, h₃, h₄⟩ := Exec.fallible_bind_ok h₂
      obtain ⟨hbody, -⟩ := readPayload_heard h₃
      have hb₂ := (Runs.file_kept_of_reads hk (readPayload_reads _) h₃).trans hb₁
      obtain ⟨_, tr₅, tr₆, g₂, rfl, h₅, h₆⟩ := Exec.fallible_bind_ok h₄
      have hdeaf : heard tr₅ = [] := Runs.heard_nil ((within_appendTo _ _ _).mpr rfl) h₅
      obtain ⟨c, hc, hc'⟩ := appendTo_ok hk h₅
      rw [hb₂] at hc
      cases hc
      rw [heard_append, hbody, List.singleton_append, payloads_chunk hparse, heard_append, hdeaf,
        List.nil_append, List.flatten_cons, ← List.append_assoc]
      split at h₆
      · obtain ⟨_, _, _, _, -, -, h₇⟩ := Exec.fallible_bind_ok h₆
        exact (Exec.throw_ok_false h₇).elim
      · exact ih hc' h₆
    · -- the end frame
      obtain ⟨_, _, -, -, -, -, -, -, hfile⟩ := checkEof_ok h₂
      rw [payloads_eof hparse, List.flatten_nil, List.append_nil]
      exact hfile hk b hb₁
    · -- any other frame
      obtain ⟨_, _, _, _, -, -, h₃⟩ := Exec.fallible_bind_ok h₂
      exact (Exec.throw_ok_false h₃).elim

/-- A program that renames nothing has not committed the file. -/
lemma not_renamed {α : Type} {x : HostM α} {out : Option (Except RuntimeError α)}
    (hx : x.run.Within fun o : HostOp => ∀ p q, o ≠ .rename p q) (hrun : Runs R x h tr out h') :
    ¬ Renamed env hello tr := fun hmem =>
  Exec.mem_within hx hrun _ hmem _ _ rfl

@[simp] lemma Renamed.append_iff {tr' : List HostSig.Event} :
    Renamed env hello (tr ++ tr') ↔ Renamed env hello tr ∨ Renamed env hello tr' := by
  simp [Renamed]

lemma reads_renames {o : HostOp} (ho : o.reads = true) : ∀ p q, o ≠ .rename p q := by
  rintro p q rfl
  cases ho

/-- **The commit.** When the partial file gets its name, the frames were accepted, and what is committed
is the data. -/
lemma receiveFile_commits {out : Option (Except RuntimeError PathBuf)}
    (hk : Keeps R (partFile env hello).path) (hkf : Keeps R (finalFile env hello).path)
    (hrun : Runs R (receiveFile env proto fuel hello) h tr out h') (hrename : Renamed env hello tr) :
    ∃ tr₁, tr = tr₁ ++ [commit env hello] ∧ heard tr = heard tr₁ ∧
      judge proto hello 0 Crc32.new (heard tr₁) = .accepted ∧
      h'.file (finalFile env hello).path = some (.bytes (payloads (heard tr₁)).flatten) := by
  have hdir : (mkdirAll (inbox env) fun e => .migration s!"mkdir inbox: {e}").run.Within
      fun o : HostOp => ∀ p q, o ≠ .rename p q := (within_mkdirAll _ _).mpr (by rintro p q ⟨⟩)
  have hcreate : (createFile (partFile env hello).path fun e =>
      .migration s!"create {(partFile env hello).text}: {e}").run.Within
      fun o : HostOp => ∀ p q, o ≠ .rename p q := (within_createFile _ _).mpr (by rintro p q ⟨⟩)
  have hloop : (receive proto (partFile env hello) hello fuel 0 Crc32.new).run.Within
      fun o : HostOp => ∀ p q, o ≠ .rename p q :=
    within_receive (fun o ho => reads_renames ho)
      ⟨by rintro p q ⟨⟩, fun _ => by rintro p q ⟨⟩, by rintro p q ⟨⟩⟩ _ _
  rcases Exec.fallible_bind_inv hrun with ⟨-, h₁⟩ | ⟨m, -, h₁⟩ | ⟨_, tr₁, tr₂, g, rfl, h₁, h₂⟩
  · exact absurd hrename (not_renamed hdir h₁)
  · exact absurd hrename (not_renamed hdir h₁)
  have hd₁ : heard tr₁ = [] := Runs.heard_nil ((within_mkdirAll _ _).mpr rfl) h₁
  have hr₂ := (Renamed.append_iff.mp hrename).resolve_left (not_renamed hdir h₁)
  rcases Exec.fallible_bind_inv h₂ with ⟨-, h₃⟩ | ⟨m, -, h₃⟩ | ⟨_, tr₃, tr₄, g₁, rfl, h₃, h₄⟩
  · exact absurd hr₂ (not_renamed hcreate h₃)
  · exact absurd hr₂ (not_renamed hcreate h₃)
  have hd₃ : heard tr₃ = [] := Runs.heard_nil ((within_createFile _ _).mpr rfl) h₃
  have hr₄ := (Renamed.append_iff.mp hr₂).resolve_left (not_renamed hcreate h₃)
  have hb := createFile_ok hk h₃
  rcases Exec.fallible_bind_inv h₄ with ⟨-, h₅⟩ | ⟨m, -, h₅⟩ | ⟨_, tr₅, tr₆, g₂, rfl, h₅, h₆⟩
  · exact absurd hr₄ (not_renamed hloop h₅)
  · exact absurd hr₄ (not_renamed hloop h₅)
  have hr₆ := (Renamed.append_iff.mp hr₄).resolve_left (not_renamed hloop h₅)
  have hb' := receive_written hk hb h₅
  change Runs R (sys (.rename (partFile env hello).path (finalFile env hello).path) >>= fun r =>
    orErr r (fun e => .migration s!"commit snapshot: {e}") >>= fun _ =>
      pure (finalFile env hello)) _ _ _ _ at h₆
  obtain ⟨g₃, hR, ⟨rfl, rfl, rfl⟩ | ⟨r, tr₇, -, rfl, h₇⟩⟩ := Exec.call_inv h₆
  · cases hr₆
  rcases r with m | ⟨⟩
  · obtain ⟨rfl, -, -⟩ := Exec.ret_inv h₇
    cases List.mem_singleton.mp hr₆
  obtain ⟨rfl, hR', -⟩ := Exec.ret_inv h₇
  have hheard : heard (tr₁ ++ (tr₃ ++ tr₅)) = heard tr₅ := by
    rw [heard_append, heard_append, hd₁, hd₃, List.nil_append, List.nil_append]
  refine ⟨tr₁ ++ (tr₃ ++ tr₅), ?_, ?_, ?_, ?_⟩
  · rw [List.append_assoc, List.append_assoc]
    rfl
  · rw [hheard, heard_append, heard_append, hd₁, hd₃, List.nil_append, List.nil_append,
      heard_append]
    exact List.append_nil _
  · rw [hheard]
    exact receive_accepted h₅
  · rw [hheard, hkf.star hR']
    exact file_rename ((hk.star hR).trans hb')

/-! ### What was announced -/

/-- What was committed is the data that arrived, with the length and the checksum that the hello and the
end frame tell. -/
structure KeepsItsWord (proto : Protocol) (hello : Hello) (rs : List (Except String Bytes))
    (content : Bytes) : Prop where
  data : content = (payloads rs).flatten
  length : content.length = hello.snapshotBytes
  checksum : crc32 content = hello.snapshotCrc32
  closing : ∃ eof, closing proto rs = some eof ∧ content.length = eof.bytes ∧
    crc32 content = eof.crc32

/-- **What is committed.** In every run of the receiver, whatever the peer sends and wherever the run
stops: if the partial file gets its name, then the committed file keeps the word of the hello and of the
end frame exactly if the peer's chunks carry no less than the hello announced.

**Proof sketch.** The frames were accepted, so the end frame has the length and both have the checksum
of what arrived, and no more arrived than was announced. -/
theorem committed_iff {out : Option (Except RuntimeError String)}
    (hrun : Runs R (handleOne env codec proto fuel token index) h tr out h')
    (hopens : Opens proto tr hello) (hrename : Renamed env hello tr)
    (hk : Keeps R (partFile env hello).path) (hkf : Keeps R (finalFile env hello).path) :
    ∃ tr₁ tr₂ g content, tr = tr₁ ++ [commit env hello] ++ tr₂ ∧
      Runs R (handleOne env codec proto fuel token index) h (tr₁ ++ [commit env hello]) none g ∧
      g.file (finalFile env hello).path = some (.bytes content) ∧
      (KeepsItsWord proto hello ((heard tr₁).drop 2) content ↔
        hello.snapshotBytes ≤ (payloads ((heard tr₁).drop 2)).flatten.length) := by
  have hnone : ∀ {t : List HostSig.Event} {out g}, Runs R (greet env proto token) h t out g →
      ¬ Renamed env hello t := fun h₁ =>
    not_renamed ((greet_reads token).mono fun o ho => reads_renames ho) h₁
  rcases Exec.fallible_bind_inv hrun with ⟨-, h₁⟩ | ⟨m, -, h₁⟩ | ⟨hello', tr₁, tr₂, g, rfl, h₁, h₂⟩
  · exact absurd hrename (hnone h₁)
  · exact absurd hrename (hnone h₁)
  obtain ⟨hopens', -⟩ := greet_opens h₁
  obtain rfl := hopens'.append.unique hopens
  have hr₂ := (Renamed.append_iff.mp hrename).resolve_left (hnone h₁)
  -- the run of the receive loop up to the commit
  obtain ⟨o, tr₃, tr₄, g₁, rfl, h₃, hr₃⟩ : ∃ o tr₃ tr₄ g₁, tr₂ = tr₃ ++ tr₄ ∧
      Runs R (receiveFile env proto fuel hello') g tr₃ o g₁ ∧ Renamed env hello' tr₃ := by
    rcases Exec.fallible_bind_inv h₂ with ⟨-, h₃⟩ | ⟨m, -, h₃⟩ | ⟨final, tr₃, tr₄, g₁, rfl, h₃, -⟩
    · exact ⟨_, tr₂, [], h', (List.append_nil _).symm, h₃, hr₂⟩
    · exact ⟨_, tr₂, [], h', (List.append_nil _).symm, h₃, hr₂⟩
    · exact ⟨_, tr₃, tr₄, g₁, rfl, h₃, receiveFile_renamed h₃⟩
  obtain ⟨tr₅, rfl, -, haccepted, hfile⟩ := receiveFile_commits hk hkf h₃ hr₃
  have hheard : (heard (tr₁ ++ tr₅)).drop 2 = heard tr₅ := by
    rw [heard_append, List.drop_left' (greet_heard h₁)]
  refine ⟨tr₁ ++ tr₅, tr₄, g₁, (payloads (heard tr₅)).flatten, by simp, ?_, hfile, ?_⟩
  · rw [List.append_assoc]
    refine Exec.fallible_bind h₁ ?_
    rw [Fallible.run_bind]
    exact Exec.bind_cut h₃.to_cut
  rw [hheard]
  obtain ⟨eof, hclosing, hbytes, hcrc, hsum, hcap⟩ := judge_accepted (Nat.zero_le _) haccepted
  rw [Nat.zero_add] at hbytes hcap
  exact ⟨fun hword => hword.length.ge, fun hle =>
    ⟨rfl, le_antisymm hcap hle, hsum.symm, eof, hclosing, hbytes.symm, hcrc.symm⟩⟩

end

end Transport

/-! ### A transfer that ends early -/

namespace Demo

/-- A hello that announces two bytes. -/
def briefHello : Hello := { hello "web" with snapshotBytes := 2 }

/-- Its JSON text. -/
def briefText : String :=
  "\x7b\"proto_version\":1,\"producer\":\"mincontainer/0.1.0\",\"container_id\":\"web" ++
  "\",\"source_host\":\"peer\",\"source_arch\":\"x86_64\",\"snapshot_bytes\":2," ++
  "\"snapshot_crc32\":2768625435,\"token\":\"secret\"\x7d"

/-- The messages of a transfer of one byte, behind that hello. -/
def brief : Protocol := { protocol "web" with hello := only briefText briefHello }

/-- The peer sends the hello, one byte and the end. The receiver runs up to call number `k`. -/
def briefPeer (k : ℕ) : ℕ → Host → (o : HostOp) → Option o.Reply
  | 0, _, .recv 5 => some (.ok (1 :: toBE 4 briefText.toUTF8.data.toList.length))
  | 1, _, .recv n => some (.ok (briefText.toUTF8.data.toList.take n))
  | 9, _, .recv 5 => some (.ok [3, 0, 0, 0, 1])
  | 10, _, .recv 1 => some (.ok [1])
  | 12, _, .recv 5 => some (.ok (4 :: toBE 4 (brief.eof.encode ⟨1, 0⟩).length))
  | 13, _, .recv n => some (.ok ((brief.eof.encode ⟨1, 0⟩).take n))
  | i, h, o => if i < k then h.oblige o else none

/-- The event gave the file its name. -/
def commits (p q : Path) : HostSig.Event → Bool
  | ⟨.rename src dst, r⟩ => src = p && dst = q && (r : Except String Unit).isOk
  | _ => false

lemma commits_iff {env : Env} {hello : Hello} {e : HostSig.Event} :
    commits (Transport.partFile env hello).path (Transport.finalFile env hello).path e = true ↔
      e = Transport.commit env hello := by
  constructor
  · intro h
    obtain ⟨o, r⟩ := e
    cases o with
    | rename src dst =>
      rcases r with m | ⟨⟩
      · simp [commits, Except.isOk, Except.toBool] at h
      · obtain ⟨rfl, rfl⟩ : src = _ ∧ dst = _ := by
          simpa [commits, Except.isOk, Except.toBool] using h
        rfl
    | _ => cases h
  · rintro rfl
    simp [commits, Transport.commit, Except.isOk, Except.toBool]

/-- The only hello there is. -/
lemma briefHello_of_opens {tr : List HostSig.Event} {hello' : Hello}
    (h : Transport.Opens brief tr hello') : hello' = briefHello := by
  obtain ⟨hdr, n, body, rest, -, -, hdec⟩ := h
  simp only [brief, only] at hdec
  split at hdec
  · exact (Except.ok.inj hdec).symm
  · cases hdec

/-- The run of the receiver up to the commit. -/
lemma brief_run : ∃ tr₁ g, Runs quiet (Transport.handleOne env codec brief 2 "secret" 0)
      (host frozen [] []) (tr₁ ++ [Transport.commit env briefHello]) none g ∧
    Transport.Opens brief (tr₁ ++ [Transport.commit env briefHello]) briefHello ∧
    g.file (Transport.finalFile env briefHello).path = some (.bytes [1]) := by
  have hdrive : ((machine.drive (briefPeer 16) 40 0
      (Transport.handleOne env codec brief 2 "secret" 0).run (host frozen [] [])).map fun x =>
        (x.1.getLast?.any (commits (Transport.partFile env briefHello).path
            (Transport.finalFile env briefHello).path) && x.2.1.isNone &&
          x.2.2.file (Transport.finalFile env briefHello).path = some (.bytes [1]) : Bool)) =
      some true := by
    decide +kernel
  obtain ⟨⟨tr, out, g⟩, hx, hall⟩ := Option.map_eq_some_iff.mp hdrive
  simp only [Bool.and_eq_true, decide_eq_true_eq, Option.isNone_iff_eq_none] at hall
  obtain ⟨⟨hlast, rfl⟩, hcontent⟩ := hall
  obtain ⟨e, hlast', hcommit⟩ := (Option.any_eq_true _ _).mp hlast
  obtain ⟨tr₁, rfl⟩ := List.getLast?_eq_some_iff.mp hlast'
  obtain rfl := commits_iff.mp hcommit
  have hrun := Machine.drive_exec hx
  refine ⟨tr₁, g, hrun, ?_, hcontent⟩
  rcases Exec.fallible_bind_inv hrun with ⟨-, h₁⟩ | ⟨m, -, h₁⟩ | ⟨hello', tr₂, tr₃, g₁, heq, h₁, -⟩
  · exact absurd List.mem_concat_self (Transport.not_renamed
      ((Transport.greet_reads _).mono fun o ho => Transport.reads_renames ho) h₁)
  · exact absurd List.mem_concat_self (Transport.not_renamed
      ((Transport.greet_reads _).mono fun o ho => Transport.reads_renames ho) h₁)
  · obtain ⟨hopens, -⟩ := Transport.greet_opens h₁
    have hsplit : tr₁ ++ [Transport.commit env briefHello] = tr₂ ++ tr₃ := heq
    rw [hsplit, ← briefHello_of_opens hopens]
    exact hopens.append

/-- What the receiver does before it commits a whole snapshot. -/
def bringing : List HostSig.Event :=
  [⟨.mkdirAll (Transport.inbox env), (.ok () : Except (ℕ × String) Unit)⟩,
    ⟨.createFile (Transport.partFile env webHello).path, (.ok () : Except String Unit)⟩] ++
  Transport.oneChunk (Transport.partFile env webHello).path snapshotBytes webEofText.toUTF8.data.toList

lemma receiving_eq : receiving = bringing ++ [Transport.commit env webHello] := rfl

lemma bringing_renames : ∀ e ∈ bringing, e ≠ Transport.commit env webHello := by
  have hop : ∀ e ∈ bringing, ∀ p q, e.1 ≠ .rename p q := by
    simp [bringing, Transport.oneChunk]
  rintro e he rfl
  exact hop _ he _ _ rfl

/-- All that was announced is among its data. -/
lemma payloads_bringing : Transport.payloads (heard bringing) = [snapshotBytes] := by
  have hheard : heard bringing =
      [.ok (FrameType.chunk.toU8 :: toBE 4 snapshotBytes.length), .ok snapshotBytes,
        .ok (FrameType.eof.toU8 :: toBE 4 webEofText.toUTF8.data.toList.length),
        .ok webEofText.toUTF8.data.toList] := rfl
  have hchunk := parseHeader_frame (t := .chunk) (n := snapshotBytes.length)
    (by rw [length_snapshotBytes]; decide)
  have heof := parseHeader_frame (t := .eof) (n := webEofText.toUTF8.data.toList.length) (by decide +kernel)
  rw [hheard, Transport.payloads_chunk hchunk, Transport.payloads_eof heof]

end Demo

namespace Transport

/-- A transfer that ends early and is committed all the same: what it announced is two bytes. And one that
brings all it announced. -/
theorem committed_iff_demo : (∃ tr g content,
    Runs quiet (handleOne Demo.env Demo.codec Demo.brief 2 "secret" 0) (Demo.host Demo.frozen [] []) tr
      none g ∧ ∃ tr₁, tr = tr₁ ++ [commit Demo.env Demo.briefHello] ∧
    (KeepsItsWord Demo.brief Demo.briefHello ((heard tr₁).drop 2) content ↔
      2 ≤ (payloads ((heard tr₁).drop 2)).flatten.length)) ∧
    ∃ tr₁ g content,
    Runs quiet (handleOne Demo.env Demo.codec Demo.webProtocol 2 "secret" 0) (Demo.host Demo.frozen [] [])
      (tr₁ ++ [commit Demo.env Demo.webHello]) none g ∧
    g.file (finalFile Demo.env Demo.webHello).path = some (.bytes content) ∧
    KeepsItsWord Demo.webProtocol Demo.webHello ((heard tr₁).drop 2) content := by
  constructor
  · obtain ⟨tr₁, g, hrun, hopens, -⟩ := Demo.brief_run
    obtain ⟨tr₂, tr₃, g₁, content, htr, hrun₁, -, hiff⟩ := committed_iff hrun hopens
      (List.mem_concat_self) (keeps_quiet _) (keeps_quiet _)
    exact ⟨_, g₁, content, hrun₁, tr₂, rfl, hiff⟩
  · obtain ⟨tr₁, tr₂, rep, h, hh⟩ := Demo.web_handed
    have hgreet := hh.greet
    have hrun : Runs quiet (handleOne Demo.env Demo.codec Demo.webProtocol 2 "secret" 0)
        (Demo.host Demo.frozen [] []) (tr₁ ++ Demo.receiving) none Demo.arrived := by
      refine Exec.fallible_bind hgreet ?_
      rw [Fallible.run_bind]
      exact Exec.bind_cut Demo.web_received.to_cut
    rw [Demo.receiving_eq, ← List.append_assoc] at hrun
    obtain ⟨t₁, t₂, g, content, htr, hrun₁, hfile, hiff⟩ := committed_iff hrun
      ((greet_opens hgreet).1.append.append) List.mem_concat_self (keeps_quiet _) (keeps_quiet _)
    have hquiet : ∀ e ∈ tr₁ ++ Demo.bringing, e ≠ commit Demo.env Demo.webHello := by
      refine List.forall_mem_append.mpr ⟨?_, Demo.bringing_renames⟩
      rintro e he rfl
      exact not_renamed ((greet_reads _).mono fun o ho => reads_renames ho) hgreet he
    obtain rfl := split_last hquiet htr
    refine ⟨_, g, content, hrun₁, hfile, hiff.mpr ?_⟩
    rw [heard_append, List.drop_left' (greet_heard hgreet), Demo.payloads_bringing, List.flatten_singleton]
    exact Demo.length_snapshotBytes.ge

/-- **A transfer that ends early.** The hello announces two bytes, one arrives, and it is committed. -/
theorem committed_short : ¬ ∀ (env : Env) (codec : Codec Manifest) (proto : Protocol) (fuel : ℕ)
    (token : String) (index : UInt8) (h g : Host) (tr₁ : List HostSig.Event) (hello : Hello)
    (content : Bytes), Opens proto (tr₁ ++ [commit env hello]) hello →
      Runs quiet (handleOne env codec proto fuel token index) h (tr₁ ++ [commit env hello]) none g →
      g.file (finalFile env hello).path = some (.bytes content) →
      KeepsItsWord proto hello ((heard tr₁).drop 2) content := by
  intro hclaim
  obtain ⟨tr₁, g, hrun, hopens, hcontent⟩ := Demo.brief_run
  exact absurd (hclaim _ _ _ _ _ _ _ _ _ _ _ hopens hrun hcontent).length (by decide)

end Transport

end Mincontainer
