import Mincontainer.Engine.RestoreFootprint
import Mincontainer.Engine.Unpacking
import Mincontainer.Migration.Transport
import Mincontainer.Migration.Wire

set_option relaxedAutoImplicit false
set_option autoImplicit false

/-!
# The two ends of a transfer

Over the connection the two ends exchange frames, which changes nothing on either host: the sender only
looks, and so does the receiver until the handshake is over. Then the snapshot goes into a file of the
inbox, which gets its name when all of it was received.

## Main definitions

* `Mincontainer.Transport.partFile`, `Mincontainer.Transport.finalFile` — the files of the inbox.
* `Mincontainer.Transport.Announced`, `Mincontainer.Transport.Arrived` — what was received, by the trace.
* `Mincontainer.Transport.announce`, `Mincontainer.Transport.collect`, `Mincontainer.Transport.welcome` —
  stages of the two ends.

## Main results

* `Mincontainer.Transport.sendSnapshot_reads` — the sender changes nothing on its host.
* `Mincontainer.Transport.welcome_ok` — only a hello that passes the checks is welcome.
* `Mincontainer.Transport.receive_run` — a peer that tells the length and the checksum of what it sends gets
  through.
* `Mincontainer.Transport.announce_run`, `Mincontainer.Transport.stream_run` — so does a sender whose file is
  there.
-/

namespace Mincontainer

open Effects Files Bytes Snapshot Restore

namespace Transport

/-! ### Files of the inbox -/

/-- The file a snapshot is received into. -/
def partFile (env : Env) (hello : Hello) : PathBuf :=
  inboxFile env (hello.containerId ++ ".mcsnap.part")

/-- The file of a snapshot that was received. -/
def finalFile (env : Env) (hello : Hello) : PathBuf :=
  inboxFile env (hello.containerId ++ ".mcsnap")

/-- The two files have one name, but for what it ends in. -/
lemma inboxFile_path (env : Env) (hello : Hello) : ∃ piece : String, ∀ ext ∈ [".mcsnap.part", ".mcsnap"],
    (inboxFile env (hello.containerId ++ ext)).path =
      (inboxFile env (hello.containerId ++ ext)).path.dropLast ++ [piece ++ ext] := by
  have hhead : ∀ ext ∈ [".mcsnap.part", ".mcsnap"], ((hello.containerId ++ ext).toList.head? = some '/' ↔
      hello.containerId.toList.head? = some '/') := by
    simp only [List.mem_cons, List.not_mem_nil, or_false, forall_eq_or_imp, forall_eq]
    refine ⟨?_, ?_⟩ <;> rw [String.toList_append]
    · cases hello.containerId.toList with
      | nil => exact iff_of_false (by decide) (by decide)
      | cons c cs => rfl
    · cases hello.containerId.toList with
      | nil => exact iff_of_false (by decide) (by decide)
      | cons c cs => rfl
  have htext : ∃ text : String, ∀ ext ∈ [".mcsnap.part", ".mcsnap"],
      inboxFile env (hello.containerId ++ ext) = ⟨text ++ ext, []⟩ := by
    by_cases hslash : hello.containerId.toList.head? = some '/'
    · refine ⟨hello.containerId, fun ext hext => ?_⟩
      rw [inboxFile, if_pos ((hhead ext hext).mpr hslash)]
    · refine ⟨display (inbox env) ++ "/" ++ hello.containerId, fun ext hext => ?_⟩
      rw [inboxFile, if_neg (mt (hhead ext hext).mp hslash), ← String.append_assoc]
  obtain ⟨text, htext⟩ := htext
  obtain ⟨piece, hpiece⟩ := PathBuf.exists_fileName text
  refine ⟨piece, fun ext hext => ?_⟩
  rw [htext ext hext]
  refine PathBuf.path_of_fileName (hpiece ext [] ?_ ?_) <;> revert ext hext <;> decide

/-- The first frame that was received is this hello. -/
def Announced (proto : Protocol) (tr : List HostSig.Event) (hello : Hello) : Prop :=
  ∃ hdr n body rest, tr = ⟨.recv 5, (.ok hdr : Except String Bytes)⟩ ::
    ⟨.recv n, (.ok body : Except String Bytes)⟩ :: rest ∧ proto.hello.decode body = .ok hello

/-- The snapshot that was received, as it was read back, has this manifest. -/
def Arrived (env : Env) (codec : Codec Manifest) (hello : Hello) (tr : List HostSig.Event)
    (m : Manifest) : Prop :=
  ∃ c reader, ⟨.readFile (finalFile env hello).path, (.ok c : Except String Content)⟩ ∈ tr ∧
    SnapshotReader.openBytes codec (finalFile env hello).path
      (display (finalFile env hello).path) c.raw = .ok reader ∧ reader.manifest = m

/-! ### Frames -/

section Frames

variable {proto : Protocol} {env : Env}

/-- Writing a frame only sends. -/
lemma within_writeFrame {P : HostOp → Prop} (hsend : ∀ data, P (.send data)) (t : FrameType)
    (payload : Bytes) : (writeFrame t payload).run.Within P := by
  have hwrite : ∀ data, (writeAll data).run.Within P := fun data =>
    Fallible.within_bind ((within_sys (.send data)).mpr (hsend data)) fun r => by
      split <;> exact trivial
  rw [writeFrame]
  split
  · exact Fallible.within_bind (hwrite _) fun _ => Fallible.within_bind (hwrite _) fun _ => hwrite _
  · exact trivial

lemma writeFrame_reads (t : FrameType) (payload : Bytes) :
    (writeFrame t payload).run.Within fun o : HostOp => o.reads = true :=
  within_writeFrame (fun _ => rfl) t payload

lemma flush_reads (what : String) :
    (flush what).run.Within fun o : HostOp => o.reads = true :=
  Fallible.within_bind ((within_sys .flush).mpr rfl) fun _ => within_orErr _ _

/-- Reading a JSON frame only receives. -/
lemma within_readHeader {P : HostOp → Prop} (hrecv : ∀ n, P (.recv n)) :
    readHeader.run.Within P := by
  refine Fallible.within_bind ((within_sys (.recv 5)).mpr (hrecv 5)) fun r => ?_
  exact Fallible.within_bind (within_orErr _ _) fun _ => within_ofExcept _

lemma within_readPayload {P : HostOp → Prop} (hrecv : ∀ n, P (.recv n)) (n : ℕ) :
    (readPayload n).run.Within P :=
  Fallible.within_bind ((within_sys (.recv n)).mpr (hrecv n)) fun _ => within_orErr _ _

lemma within_readJson {P : HostOp → Prop} {α : Type} (hrecv : ∀ n, P (.recv n))
    (expect : FrameType) (c : Codec α) : (readJson proto expect c).run.Within P :=
  Fallible.within_bind (within_readHeader hrecv) fun _ =>
    Fallible.within_bind (within_readPayload hrecv _) fun _ => within_ofExcept _

lemma readHeader_reads : readHeader.run.Within fun o : HostOp => o.reads = true :=
  within_readHeader fun _ => rfl

lemma readPayload_reads (n : ℕ) : (readPayload n).run.Within fun o : HostOp => o.reads = true :=
  within_readPayload (fun _ => rfl) n

lemma readJson_reads {α : Type} (expect : FrameType) (c : Codec α) :
    (readJson proto expect c).run.Within fun o : HostOp => o.reads = true :=
  within_readJson (fun _ => rfl) expect c

lemma answerHello_reads (accept : Bool) (reason : String) :
    (answerHello env proto accept reason).run.Within fun o : HostOp => o.reads = true :=
  Fallible.within_bind ((within_sys .hostname).mpr rfl) fun _ => writeFrame_reads _ _

lemma greet_reads (token : String) :
    (greet env proto token).run.Within fun o : HostOp => o.reads = true := by
  have hrefuse : ∀ reason, (refuse env proto reason : HostM Hello).run.Within
      fun o : HostOp => o.reads = true := fun reason =>
    Fallible.within_bind (answerHello_reads _ _) fun _ =>
      Fallible.within_bind ((within_sys .flush).mpr rfl) fun _ => trivial
  refine Fallible.within_bind (readJson_reads _ _) fun hello => ?_
  split
  · exact hrefuse _
  split
  · exact hrefuse _
  split
  · exact hrefuse _
  · exact Fallible.within_bind (answerHello_reads _ _) fun _ =>
      Fallible.within_bind (flush_reads _) fun _ => trivial

lemma answer_reads (hello : Hello) (outcome : Except RuntimeError Restore.Report) :
    (answer proto hello outcome).run.Within fun o : HostOp => o.reads = true := by
  cases outcome with
  | ok rep =>
    refine Fallible.within_bind ((within_sys .hostname).mpr rfl) fun _ => ?_
    exact Fallible.within_bind (writeFrame_reads _ _) fun _ =>
      Fallible.within_bind ((within_sys .flush).mpr rfl) fun _ => trivial
  | error e =>
    exact Fallible.within_bind (writeFrame_reads _ _) fun _ =>
      Fallible.within_bind ((within_sys .flush).mpr rfl) fun _ => trivial

lemma within_readWhole {P : HostOp → Prop} {path : PathBuf} (hopen : P (.openFile path.path))
    (hread : P (.readAll path.path)) (f g : String → RuntimeError) :
    (readWhole path f g).run.Within P := by
  refine Fallible.within_bind ((within_sys (.openFile _)).mpr hopen) fun _ => ?_
  refine Fallible.within_bind (within_orErr _ _) fun _ => ?_
  refine Fallible.within_bind ((within_sys (.readAll _)).mpr hread) fun r => ?_
  split <;> exact trivial

lemma sendChunks_reads (chunks : List Bytes) :
    (sendChunks chunks).run.Within fun o : HostOp => o.reads = true := by
  induction chunks with
  | nil => exact trivial
  | cons b bs ih => exact Fallible.within_bind (writeFrame_reads _ _) fun _ => ih

lemma stream_reads (snapshot : PathBuf) (n : ℕ) (crc : UInt32) :
    (stream proto snapshot n crc).run.Within fun o : HostOp => o.reads = true := by
  refine Fallible.within_bind ((within_sys (.openFile _)).mpr rfl) fun _ => ?_
  refine Fallible.within_bind (within_orErr _ _) fun _ => ?_
  refine Fallible.within_bind ((within_sys (.readAll _)).mpr rfl) fun r => ?_
  refine Fallible.within_bind (sendChunks_reads _) fun _ => ?_
  split
  · exact trivial
  · dsimp only
    split
    · exact trivial
    · exact Fallible.within_bind (writeFrame_reads _ _) fun _ => flush_reads _

/-- Looking a target up. -/
lemma within_resolveTarget {P : HostOp → Prop} (hlookup : ∀ t, P (.resolveAddr t)) (target : String) :
    (resolveTarget target).run.Within P := by
  refine Fallible.within_bind ((within_sys (.resolveAddr _)).mpr (hlookup _)) fun r => ?_
  split <;> exact trivial

/-- Waiting for the receiver to take the snapshot. -/
lemma within_awaitAck {P : HostOp → Prop} (hrecv : ∀ n, P (.recv n)) (target : String) :
    (awaitAck env proto target).run.Within P := by
  refine Fallible.within_bind (within_readJson hrecv _ _) fun ack => ?_
  split
  · exact trivial
  · split <;> exact trivial

/-- The sender up to the accepted handshake: the length and the checksum of the file. -/
def announce (env : Env) (proto : Protocol) (id : String) (snapshot : PathBuf)
    (target token : String) : HostM (Nat × UInt32) := do
  let addr ← resolveTarget target
  let fileLen ← orErr (← sys (.openFile snapshot.path)) fun e =>
    .migration s!"stat {snapshot.text}: {e}"
  let crc ← crcOfFile snapshot
  let _ ← orErr (← sys (.connect addr)) fun e => .migration s!"connect to {target}: {e}"
  sayHello env proto id token fileLen crc
  awaitAck env proto target
  pure (fileLen, crc)

/-- The answer of the receiver. -/
def collect (proto : Protocol) (target : String) (fileLen : Nat) : HostM Transfer := do
  let result ← awaitResult proto target
  pure ⟨result, fileLen⟩

lemma sendSnapshot_eq (id : String) (snapshot : PathBuf) (target token : String) :
    sendSnapshot env proto id snapshot target token =
      announce env proto id snapshot target token >>= fun x =>
        stream proto snapshot x.1 x.2 >>= fun _ => collect proto target x.1 := by
  simp only [sendSnapshot, announce, collect, bind_assoc, pure_bind]

lemma announce_reads (id : String) (snapshot : PathBuf) (target token : String) :
    (announce env proto id snapshot target token).run.Within
      fun o : HostOp => o.reads = true := by
  refine Fallible.within_bind (within_resolveTarget (fun _ => rfl) _) fun addr => ?_
  refine Fallible.within_bind ((within_sys (.openFile _)).mpr rfl) fun _ => ?_
  refine Fallible.within_bind (within_orErr _ _) fun _ => ?_
  refine Fallible.within_bind (Fallible.within_bind (within_readWhole
    (P := fun o => o.reads = true) rfl rfl _ _) fun _ => trivial) fun crc => ?_
  refine Fallible.within_bind ((within_sys (.connect _)).mpr rfl) fun _ => ?_
  refine Fallible.within_bind (within_orErr _ _) fun _ => ?_
  refine Fallible.within_bind (Fallible.within_bind ((within_sys .hostname).mpr rfl) fun _ =>
    Fallible.within_bind (writeFrame_reads _ _) fun _ => flush_reads _) fun _ => ?_
  exact Fallible.within_bind (within_awaitAck (fun _ => rfl) _) fun _ => trivial

/-- The sender changes nothing on its host. -/
lemma sendSnapshot_reads (id : String) (snapshot : PathBuf) (target token : String) :
    (sendSnapshot env proto id snapshot target token).run.Within
      fun o : HostOp => o.reads = true := by
  rw [sendSnapshot_eq]
  refine Fallible.within_bind (announce_reads _ _ _ _) fun x => ?_
  refine Fallible.within_bind (stream_reads _ _ _) fun _ => ?_
  refine Fallible.within_bind (Fallible.within_bind (readJson_reads _ _) fun result => ?_) fun _ =>
    trivial
  split <;> exact trivial

/-- A JSON frame that means something is of the expected type, and decodes. -/
lemma parseJson_ok {α : Type} {expect t : FrameType} {c : Codec α} {body : Bytes} {a : α}
    (h : parseJson proto expect c t body = .ok a) : t = expect ∧ c.decode body = .ok a := by
  simp only [parseJson] at h
  split at h
  · cases h
  split at h
  · cases h
  rename_i ht
  refine ⟨by simpa using ht, ?_⟩
  split at h
  · rename_i v hv
    rw [hv, Except.ok.inj h]
  · cases h

/-- A JSON frame that was accepted: its two reads, and what its payload decodes to. -/
lemma readJson_ok {R : Host → Host → Prop} {α : Type} {expect : FrameType} {c : Codec α} {a : α}
    {h h' : Host} {tr : List HostSig.Event}
    (hrun : Runs R (readJson proto expect c) h tr (some (.ok a)) h') :
    ∃ hdr body n, tr = [⟨.recv 5, (.ok hdr : Except String Bytes)⟩,
      ⟨.recv n, (.ok body : Except String Bytes)⟩] ∧ parseHeader hdr = .ok (expect, n) ∧
      c.decode body = .ok a := by
  obtain ⟨⟨t, n⟩, tr₁, tr₂, h₁, rfl, hheader, hrun₁⟩ := Exec.fallible_bind_ok hrun
  obtain ⟨body, tr₃, tr₄, h₂, rfl, hpayload, hparse⟩ := Exec.fallible_bind_ok hrun₁
  obtain ⟨g, r, tr₅, -, -, rfl, hrun₂⟩ := Exec.call_some_inv hheader
  rcases r with e | hdr
  · obtain ⟨-, -, hres⟩ := Exec.ret_some_inv hrun₂
    cases hres
  change Runs R (ofExcept (parseHeader hdr)) _ _ _ _ at hrun₂
  obtain ⟨g', r, tr₆, -, -, rfl, hrun₃⟩ := Exec.call_some_inv hpayload
  rcases r with e | body'
  · obtain ⟨-, -, hres⟩ := Exec.ret_some_inv hrun₃
    cases hres
  obtain ⟨rfl, -, hbody⟩ := Exec.ret_some_inv hrun₃
  obtain rfl := Except.ok.inj hbody
  obtain ⟨rfl, hhdr⟩ := ofExcept_ok hrun₂
  obtain ⟨rfl, hval⟩ := ofExcept_ok hparse
  obtain ⟨rfl, hdec⟩ := parseJson_ok hval
  exact ⟨hdr, body, n, rfl, hhdr, hdec⟩

/-- A transfer that was refused did not get further. -/
lemma refuse_ok_false {R : Host → Host → Prop} {α : Type} {a : α} {reason : String} {h h' : Host}
    {tr : List HostSig.Event}
    (hrun : Runs R (refuse env proto reason : HostM α) h tr (some (.ok a)) h') : False := by
  obtain ⟨_, _, _, _, -, -, hrun₁⟩ := Exec.fallible_bind_ok hrun
  obtain ⟨_, _, _, _, -, -, hrun₂⟩ := Exec.fallible_bind_ok hrun₁
  exact Exec.throw_ok_false hrun₂

/-- The handshake after the hello was read. -/
def welcome (env : Env) (proto : Protocol) (token : String) (hello : Hello) : HostM Hello :=
  if hello.protoVersion ≠ protoVersion then
    refuse env proto (s!"protocol version {hello.protoVersion} not supported " ++
      s!"(this node speaks {protoVersion})")
  else if hello.token ≠ token then
    refuse env proto "authentication token mismatch"
  else if hello.sourceArch ≠ env.arch then
    refuse env proto s!"snapshot is {hello.sourceArch} but this host is {env.arch}"
  else do
    answerHello env proto true ""
    flush "flush ack"
    pure hello

lemma greet_eq (token : String) :
    greet env proto token = readJson proto .hello proto.hello >>= welcome env proto token := rfl

/-- The hello passes the three checks of the handshake. -/
structure Matches (env : Env) (token : String) (hello : Hello) : Prop where
  version : hello.protoVersion = protoVersion
  token : hello.token = token
  arch : hello.sourceArch = env.arch

/-- Only a hello that passes the checks is welcome, and it is welcomed with an answer. -/
lemma welcome_ok {R : Host → Host → Prop} {token : String} {hello hello' : Hello} {h h' : Host}
    {tr : List HostSig.Event}
    (hrun : Runs R (welcome env proto token hello) h tr (some (.ok hello')) h') :
    hello' = hello ∧ Matches env token hello ∧
      Runs R (answerHello env proto true "" >>= fun _ => flush "flush ack" >>= fun _ =>
        pure hello) h tr (some (.ok hello')) h' := by
  rw [welcome] at hrun
  split at hrun
  · exact (refuse_ok_false hrun).elim
  split at hrun
  · exact (refuse_ok_false hrun).elim
  split at hrun
  · exact (refuse_ok_false hrun).elim
  rename_i hversion htoken harch
  obtain ⟨_, _, _, _, -, -, hrun₁⟩ := Exec.fallible_bind_ok hrun
  obtain ⟨_, _, _, _, -, -, hrun₂⟩ := Exec.fallible_bind_ok hrun₁
  obtain ⟨-, -, hres⟩ := Exec.ret_some_inv hrun₂
  refine ⟨Except.ok.inj hres, ⟨?_, ?_, ?_⟩, hrun⟩
  · simpa using hversion
  · simpa using htoken
  · simpa using harch

/-- A handshake that was accepted begins with the hello. -/
lemma greet_ok {R : Host → Host → Prop} {token : String} {hello : Hello} {h h' : Host}
    {tr : List HostSig.Event}
    (hrun : Runs R (greet env proto token) h tr (some (.ok hello)) h') :
    Announced proto tr hello := by
  rw [greet_eq] at hrun
  obtain ⟨hello', tr₁, tr₂, g, rfl, hread, hrun₁⟩ := Exec.fallible_bind_ok hrun
  obtain ⟨hdr, body, n, rfl, -, hdec⟩ := readJson_ok hread
  obtain ⟨rfl, -, -⟩ := welcome_ok hrun₁
  exact ⟨hdr, n, body, tr₂, rfl, hdec⟩

end Frames

/-! ### Receiving -/

section

variable {env : Env} {proto : Protocol} {fuel : ℕ} {hello : Hello}

/-- The receive loop writes the partial file, and removes it. -/
lemma within_receive {P : HostOp → Prop} {part : PathBuf} (hreads : ∀ o : HostOp, o.reads = true → P o)
    (hpart : AllowsFile P part.path) (received : ℕ) (crc : Crc32) :
    (receive proto part hello fuel received crc).run.Within P := by
  have hremove : ∀ e : RuntimeError, (sys (.removeFile part.path) >>= fun _ =>
      throw e : HostM Unit).run.Within P := fun e =>
    Fallible.within_bind ((within_sys (.removeFile _)).mpr hpart.remove) fun _ => trivial
  induction fuel generalizing received crc with
  | zero => exact ⟨hreads _ rfl, fun r => (r : Empty).elim⟩
  | succ fuel ih =>
    refine Fallible.within_bind (readHeader_reads.mono hreads) fun x => ?_
    dsimp only
    split
    · refine Fallible.within_bind ((readPayload_reads _).mono hreads) fun body => ?_
      refine Fallible.within_bind ((within_appendTo _ _ _).mpr (hpart.append _)) fun _ => ?_
      split
      · exact hremove _
      · exact ih _ _
    · refine Fallible.within_bind ((readPayload_reads _).mono hreads) fun body => ?_
      refine Fallible.within_bind (by split <;> exact trivial) fun eof => ?_
      refine Fallible.within_bind ((within_appendTo _ _ _).mpr (hpart.append _)) fun _ => ?_
      dsimp only
      split
      · refine Fallible.within_bind ((within_sys (.removeFile _)).mpr hpart.remove) fun _ => ?_
        refine Fallible.within_bind ((writeFrame_reads _ _).mono hreads) fun _ => ?_
        exact Fallible.within_bind ((within_sys .flush).mpr (hreads _ rfl)) fun _ => trivial
      · exact trivial
    · exact hremove _

/-- Receiving the snapshot writes the partial file, and gives it its name. -/
lemma receiveFile_obeys {P : HostOp → Prop} (hreads : ∀ o : HostOp, o.reads = true → P o)
    (hinbox : P (.mkdirAll (inbox env))) (hpart : AllowsFile P (partFile env hello).path)
    (hrename : P (.rename (partFile env hello).path (finalFile env hello).path)) :
    Fallible.Obeys P (fun b => b = finalFile env hello) (receiveFile env proto fuel hello) := by
  refine Fallible.Obeys.bind (.of_within ((within_mkdirAll _ _).mpr hinbox)) fun _ _ => ?_
  refine Fallible.Obeys.bind (.of_within ((within_createFile _ _).mpr hpart.create)) fun _ _ => ?_
  refine Fallible.Obeys.bind (.of_within (within_receive hreads hpart _ _)) fun _ _ => ?_
  refine Fallible.Obeys.bind (.of_within ((within_sys (.rename _ _)).mpr hrename)) fun _ _ => ?_
  exact Fallible.Obeys.bind (.of_within (within_orErr _ _)) fun _ _ => Fallible.Obeys.pure rfl

lemma finalFile_absolute : (finalFile env hello).text.toList.head? = some '/' := by
  rw [finalFile, inboxFile]
  split
  · assumption
  · simp [display]

/-- The file that a rename leaves at its destination. -/
lemma file_rename {g : Host} {src dst : Path} {c : Content} {u : Unit} (hc : g.file src = some c) :
    (machine.next g (.rename src dst) (Except.ok u)).file dst = some c := by
  have hnext : machine.next g (.rename src dst) (Except.ok u) =
      { g with fs := (g.fs.remove src).set dst (.file c) } := by
    simp only [machine, Host.next, hc]
  rw [hnext]
  simp [Host.file]

end

/-! ### One chunk -/

section Arrival

variable {proto : Protocol} {part : PathBuf} {hello : Hello} {h : Host} {b last : Bytes} {eof : Eof}

/-- An exact read gets what the peer sent. -/
lemma readExact_run {f : String → RuntimeError} (b : Bytes) (h : Host) :
    Runs quiet (readExact b.length f) h [⟨.recv b.length, (.ok b : Except String Bytes)⟩]
      (some (.ok b)) h :=
  Exec.call (decide_eq_true rfl) (.ret _ _)

/-- A header can be read whenever the peer sends one. -/
lemma readHeader_run {t : FrameType} {n : ℕ} (hn : n ≤ 4 * 1024 * 1024) (h : Host) :
    Runs quiet readHeader h [⟨.recv 5, (.ok (t.toU8 :: toBE 4 n) : Except String Bytes)⟩]
      (some (.ok (t, n))) h := by
  have hlen : (t.toU8 :: toBE 4 n).length = 5 := by simp [length_toBE]
  have hread := readExact_run (f := fun e => .migration s!"read frame header: {e}")
    (t.toU8 :: toBE 4 n) h
  rw [hlen] at hread
  rw [readHeader_eq, ← List.append_nil [_]]
  refine Exec.fallible_bind hread ?_
  rw [parseHeader_frame (by rw [FrameType.cap_eq]; exact hn)]
  exact .ret _ _

/-- Bytes can be appended to a file that is there. -/
lemma appendTo_run {p : Path} {data : Bytes} {f : String → RuntimeError} (hp : h.kind p = some .file) :
    Runs quiet (appendTo p data f) h [⟨.append p data, (.ok () : Except (ℕ × String) Unit)⟩]
      (some (.ok ())) (h.extend p data) :=
  Exec.call (decide_eq_true hp) (.ret _ _)

/-- Writing a frame. -/
def writes (t : FrameType) (payload : Bytes) : List HostSig.Event :=
  [⟨.send [t.toU8], (.ok () : Except (ℕ × String) Unit)⟩,
    ⟨.send (toBE 4 payload.length), (.ok () : Except (ℕ × String) Unit)⟩,
    ⟨.send payload, (.ok () : Except (ℕ × String) Unit)⟩]

/-- A frame can be written whenever the connection takes it. -/
lemma writeFrame_run {t : FrameType} {payload : Bytes} (hlen : payload.length < 2 ^ 32) (h : Host) :
    Runs quiet (writeFrame t payload) h (writes t payload) (some (.ok ())) h := by
  have hwrite (data : Bytes) : Runs quiet (writeAll data) h
      [⟨.send data, (.ok () : Except (ℕ × String) Unit)⟩] (some (.ok ())) h :=
    Exec.call rfl (.ret _ _)
  rw [writeFrame, if_pos hlen]
  exact Exec.fallible_bind (hwrite _) (Exec.fallible_bind (hwrite _) (hwrite _))

/-- Reading a frame. -/
def reads (t : FrameType) (payload : Bytes) : List HostSig.Event :=
  [⟨.recv 5, (.ok (t.toU8 :: toBE 4 payload.length) : Except String Bytes)⟩,
    ⟨.recv payload.length, (.ok payload : Except String Bytes)⟩]

lemma received_reads (t : FrameType) (payload : Bytes) : received (reads t payload) = frame t payload := by
  simp [received, reads, got, frame]

lemma sent_reads (t : FrameType) (payload : Bytes) : sent (reads t payload) = [] := rfl

/-- A message can be read whenever the peer sends it. -/
lemma readJson_run {α : Type} {t : FrameType} {c : Codec α} {v : α} {payload : Bytes}
    (hlen : payload.length ≤ 4 * 1024 * 1024) (ht : t ≠ .error) (hdec : c.decode payload = .ok v) (h : Host) :
    Runs quiet (readJson proto t c) h (reads t payload) (some (.ok v)) h := by
  have hparse : parseJson proto t c t payload = .ok v := by
    rw [parseJson, if_neg ht, if_neg (not_not.mpr rfl), hdec]
  have hbody : Runs quiet (readPayload payload.length) h
      [⟨.recv payload.length, (.ok payload : Except String Bytes)⟩] (some (.ok payload)) h :=
    readExact_run payload h
  change Runs quiet _ _ ([⟨.recv 5, (.ok (t.toU8 :: toBE 4 payload.length) : Except String Bytes)⟩] ++
    ([⟨.recv payload.length, (.ok payload : Except String Bytes)⟩] ++ [])) _ _
  refine Exec.fallible_bind (readHeader_run hlen h) (Exec.fallible_bind hbody ?_)
  rw [hparse]
  exact .ret _ _

/-- Announcing a snapshot that is read at one go. -/
def announcing (p : Path) (addr here : String) (b payload : Bytes) : List HostSig.Event :=
  [⟨.resolveAddr addr, (.ok true : Except String Bool)⟩, ⟨.openFile p, (.ok b.length : Except String ℕ)⟩,
    ⟨.openFile p, (.ok b.length : Except String ℕ)⟩, ⟨.readAll p, (([b], none) : List Bytes × Option String)⟩,
    ⟨.connect addr, (.ok () : Except String Unit)⟩, ⟨.hostname, here⟩] ++
  (writes .hello payload ++ [⟨.flush, (.ok () : Except String Unit)⟩])

lemma sent_announcing (p : Path) (addr here : String) (b payload : Bytes) :
    sent (announcing p addr here b payload) = frame .hello payload := by
  simp [sent, announcing, writes, puts, frame]

lemma received_announcing (p : Path) (addr here : String) (b payload : Bytes) :
    received (announcing p addr here b payload) = [] := rfl

/-- The receive loop over a single chunk and the end frame. -/
def oneChunk (part : Path) (b last : Bytes) : List HostSig.Event :=
  [⟨.recv 5, (.ok (FrameType.chunk.toU8 :: toBE 4 b.length) : Except String Bytes)⟩,
    ⟨.recv b.length, (.ok b : Except String Bytes)⟩,
    ⟨.append part b, (.ok () : Except (ℕ × String) Unit)⟩,
    ⟨.recv 5, (.ok (FrameType.eof.toU8 :: toBE 4 last.length) : Except String Bytes)⟩,
    ⟨.recv last.length, (.ok last : Except String Bytes)⟩,
    ⟨.append part [], (.ok () : Except (ℕ × String) Unit)⟩]

lemma received_oneChunk (part : Path) (b last : Bytes) :
    received (oneChunk part b last) = frame .chunk b ++ frame .eof last := by
  simp [received, oneChunk, got, frame]

/-- **A single chunk is received** if its length and checksum are told. -/
lemma receive_run (hb : b.length ≤ 4 * 1024 * 1024) (hroom : b.length ≤ hello.snapshotBytes)
    (hlast : last.length ≤ 4 * 1024 * 1024) (hdec : proto.eof.decode last = .ok eof)
    (hbytes : eof.bytes = b.length) (hcrc : eof.crc32 = crc32 b)
    (hsum : hello.snapshotCrc32 = crc32 b) (hpart : h.kind part.path = some .file) :
    Runs quiet (receive proto part hello 2 0 Crc32.new) h (oneChunk part.path b last) (some (.ok ()))
      ((h.extend part.path b).extend part.path []) := by
  obtain ⟨c, hc⟩ := (h.kind_file_iff _).mp hpart
  have hpart' : (h.extend part.path b).kind part.path = some .file :=
    (Host.kind_file_iff _ _).mpr ⟨_, h.file_extend hc b⟩
  have hgot : (Crc32.new.update b).finish = crc32 b := rfl
  have hcheck : Runs quiet (checkEof proto part hello (0 + b.length) (Crc32.new.update b) last.length)
      (h.extend part.path b) ((oneChunk part.path b last).drop 4) (some (.ok ()))
      ((h.extend part.path b).extend part.path []) := by
    change Runs quiet _ _ ([⟨.recv last.length, (.ok last : Except String Bytes)⟩] ++ ([] ++
      ([⟨.append part.path [], (.ok () : Except (ℕ × String) Unit)⟩] ++ []))) _ _
    refine Exec.fallible_bind (readExact_run last _)
      (Exec.fallible_bind (a := eof) ?_ (Exec.fallible_bind (appendTo_run hpart') ?_))
    · rw [hdec]
      exact .ret _ _
    · rw [if_neg (by simp [hbytes, hcrc, hsum, hgot])]
      exact .ret _ _
  have hend : Runs quiet (receive proto part hello 1 (0 + b.length) (Crc32.new.update b))
      (h.extend part.path b) ((oneChunk part.path b last).drop 3) (some (.ok ()))
      ((h.extend part.path b).extend part.path []) :=
    Exec.fallible_bind (readHeader_run (t := .eof) hlast _) hcheck
  refine Exec.fallible_bind (readHeader_run (t := .chunk) hb h)
    (Exec.fallible_bind (readExact_run b h) (Exec.fallible_bind (appendTo_run hpart) ?_))
  rw [if_neg (by omega)]
  exact hend

/-- Streaming a snapshot in a single chunk. -/
def streams (p : Path) (b last : Bytes) : List HostSig.Event :=
  ⟨.openFile p, (.ok b.length : Except String ℕ)⟩ :: ⟨.readAll p, (([b], none) : List Bytes × Option String)⟩ ::
    (writes .chunk b ++ (writes .eof last ++ [⟨.flush, (.ok () : Except String Unit)⟩]))

lemma sent_streams (p : Path) (b last : Bytes) :
    sent (streams p b last) = frame .chunk b ++ frame .eof last := by
  simp [sent, streams, writes, puts, frame]

lemma received_streams (p : Path) (b last : Bytes) : received (streams p b last) = [] := rfl

section Sender

variable {snapshot : PathBuf} (hfile : h.file snapshot.path = some (.bytes b))

include hfile

lemma enabled_length : machine.Enabled h (.openFile snapshot.path) (.ok b.length) :=
  Host.enabled_openFile.mpr (by rw [hfile]; rfl)

lemma enabled_whole (hne : b ≠ []) : machine.Enabled h (.readAll snapshot.path) ([b], none) := by
  simp [machine, Host.enabled, hfile, Content.raw, hne]

/-- **A snapshot is announced** whenever the peer takes it. -/
lemma announce_run {env : Env} {id target token addr here : String} {payload reply : Bytes} {ack : HelloAck}
    (hne : b ≠ []) (haddr : (if target.toList.contains ':' then target else s!"{target}:{defaultPort}") = addr)
    (hhello : proto.hello.encode ⟨protoVersion, "mincontainer/0.1.0", id, here, env.arch, b.length, crc32 b,
      token⟩ = payload)
    (hlen : payload.length < 2 ^ 32) (hreply : reply.length ≤ 4 * 1024 * 1024)
    (hack : proto.helloAck.decode reply = .ok ack) (haccept : ack.accept = true)
    (harch : ack.receiverArch = env.arch) :
    Runs quiet (announce env proto id snapshot target token) h
      (announcing snapshot.path addr here b payload ++ reads .helloAck reply)
      (some (.ok (b.length, crc32 b))) h := by
  have hopen := enabled_length hfile
  have hresolve : Runs quiet (resolveTarget target) h
      [⟨.resolveAddr addr, (.ok true : Except String Bool)⟩] (some (.ok addr)) h := by
    subst haddr
    exact Exec.call rfl (.ret _ _)
  have hcrc : Runs quiet (crcOfFile snapshot) h [⟨.openFile snapshot.path, (.ok b.length : Except String ℕ)⟩,
      ⟨.readAll snapshot.path, (([b], none) : List Bytes × Option String)⟩] (some (.ok (crc32 b))) h :=
    Exec.call hopen (Exec.call (enabled_whole hfile hne) (.ret _ _))
  have hsay : Runs quiet (sayHello env proto id token b.length (crc32 b)) h (⟨.hostname, here⟩ ::
      (writes .hello payload ++ [⟨.flush, (.ok () : Except String Unit)⟩])) (some (.ok ())) h := by
    subst hhello
    have hhere : machine.Enabled h .hostname here := rfl
    have hflush : machine.Enabled h .flush (.ok ()) := rfl
    exact Exec.call hhere (Exec.fallible_bind (writeFrame_run hlen h) (Exec.call hflush (.ret _ _)))
  have hwait : Runs quiet (awaitAck env proto target) h (reads .helloAck reply ++ []) (some (.ok ())) h := by
    refine Exec.fallible_bind (readJson_run hreply (by decide) hack h) ?_
    rw [haccept, if_neg (by decide), if_neg (not_not.mpr harch)]
    exact .ret _ _
  have hconnect : machine.Enabled h (.connect addr) (.ok ()) := rfl
  change Runs quiet _ _ ([⟨.resolveAddr addr, (.ok true : Except String Bool)⟩] ++
    (⟨.openFile snapshot.path, (.ok b.length : Except String ℕ)⟩ :: ([] ++
      ([⟨.openFile snapshot.path, (.ok b.length : Except String ℕ)⟩,
        ⟨.readAll snapshot.path, (([b], none) : List Bytes × Option String)⟩] ++
      (⟨.connect addr, (.ok () : Except String Unit)⟩ :: ([] ++ ((⟨.hostname, here⟩ ::
        (writes .hello payload ++ [⟨.flush, (.ok () : Except String Unit)⟩])) ++
          ((reads .helloAck reply ++ []) ++ [])))))))) _ _
  refine Exec.fallible_bind hresolve (Exec.call hopen (Exec.fallible_bind (.ret _ _)
    (Exec.fallible_bind hcrc (Exec.call hconnect (Exec.fallible_bind (.ret _ _) ?_)))))
  exact Exec.fallible_bind hsay (Exec.fallible_bind hwait (.ret _ _))

/-- **A small snapshot is streamed** in a single chunk, if the connection takes it. -/
lemma stream_run {crc : UInt32} (hne : b ≠ []) (hb : b.length ≤ chunkSize)
    (hlast : proto.eof.encode ⟨b.length, crc⟩ = last) (hlen : last.length < 2 ^ 32) :
    Runs quiet (stream proto snapshot b.length crc) h (streams snapshot.path b last) (some (.ok ())) h := by
  have hopen := enabled_length hfile
  have hread := enabled_whole hfile hne
  have hflush : machine.Enabled h .flush (.ok ()) := rfl
  have hpieces : pieces [b] = [b] := by
    obtain ⟨k, hk⟩ := Nat.exists_eq_succ_of_ne_zero (mt List.length_eq_zero_iff.mp hne)
    simp only [pieces, List.flatMap_singleton, hk, cut, if_neg hne, List.take_of_length_le hb,
      List.drop_of_length_le hb]
    cases k <;> rfl
  have hchunks : Runs quiet (sendChunks (pieces [b])) h (writes .chunk b ++ []) (some (.ok ())) h := by
    rw [hpieces]
    exact Exec.fallible_bind (writeFrame_run (hb.trans_lt (by decide)) h) (.ret _ _)
  rw [List.append_nil] at hchunks
  refine Exec.call hopen (Exec.call hread (Exec.fallible_bind hchunks ?_))
  have hsize : ¬ [b].flatten.length ≠ b.length := by simp
  dsimp only
  rw [if_neg hsize, List.flatten_singleton]
  subst hlast
  exact Exec.fallible_bind (writeFrame_run hlen h) (Exec.call hflush (.ret _ _))

end Sender

end Arrival

end Transport

/-! ### One snapshot -/

namespace Demo

open Transport

/-- A serialiser at one value. -/
def only {α : Type} (text : String) (v : α) : Codec α where
  encode _ := text.toUTF8.data.toList
  decode b :=
    if b = text.toUTF8.data.toList then .ok v else .error "expected value at line 1 column 1"

/-- The hello of a peer that knows the token. -/
def hello (id : String) : Hello where
  protoVersion := 1
  producer := "mincontainer/0.1.0"
  containerId := id
  sourceHost := "peer"
  sourceArch := "x86_64"
  snapshotBytes := 1
  snapshotCrc32 := 2768625435
  token := "secret"

/-- Its JSON text. -/
def helloText (id : String) : String :=
  "\x7b\"proto_version\":1,\"producer\":\"mincontainer/0.1.0\",\"container_id\":\"" ++ id ++
  "\",\"source_host\":\"peer\",\"source_arch\":\"x86_64\",\"snapshot_bytes\":1," ++
  "\"snapshot_crc32\":2768625435,\"token\":\"secret\"\x7d"

/-- The messages of a transfer of one byte. -/
def protocol (id : String) : Protocol where
  hello := only (helloText id) (hello id)
  helloAck := only ("\x7b\"proto_version\":1,\"accept\":true,\"receiver_host\":\"node\"," ++
    "\"receiver_arch\":\"x86_64\",\"reason\":\"\"\x7d") ⟨1, true, "node", "x86_64", ""⟩
  eof := only "\x7b\"bytes\":1,\"crc32\":2768625435\x7d" ⟨1, 2768625435⟩
  result := only "\x7b\"ok\":false\x7d" ⟨false, id, 0, 0, none, ""⟩
  errorMsg := only "\x7b\"message\":\"\"\x7d" ⟨""⟩

/-- The peer sends its hello, one chunk and the end. -/
def peer (id : String) : ℕ → Host → (o : HostOp) → Option o.Reply
  | 0, _, .recv 5 => some (.ok (1 :: toBE 4 (helloText id).toUTF8.data.toList.length))
  | 1, _, .recv n => some (.ok ((helloText id).toUTF8.data.toList.take n))
  | 9, _, .recv 5 => some (.ok [3, 0, 0, 0, 1])
  | 10, _, .recv 1 => some (.ok [1])
  | 12, _, .recv 5 => some (.ok (4 :: toBE 4 ((protocol id).eof.encode ⟨1, 0⟩).length))
  | 13, _, .recv n => some (.ok (((protocol id).eof.encode ⟨1, 0⟩).take n))
  | _, _, _ => none

/-- The hello that announces the snapshot. Its checksum is 558161692. -/
def webHello : Hello where
  protoVersion := 1
  producer := "mincontainer/0.1.0"
  containerId := "web"
  sourceHost := "node"
  sourceArch := "x86_64"
  snapshotBytes := 1082
  snapshotCrc32 := crc32 snapshotBytes
  token := "secret"

/-- Its JSON text. -/
def webHelloText : String :=
  "\x7b\"proto_version\":1,\"producer\":\"mincontainer/0.1.0\",\"container_id\":\"web\"," ++
  "\"source_host\":\"node\",\"source_arch\":\"x86_64\",\"snapshot_bytes\":1082," ++
  "\"snapshot_crc32\":558161692,\"token\":\"secret\"\x7d"

/-- The end of the transfer. -/
def webEof : Eof := ⟨1082, crc32 snapshotBytes⟩

/-- Its JSON text. -/
def webEofText : String := "\x7b\"bytes\":1082,\"crc32\":558161692\x7d"

/-- What the receiver says when it has restored the container. -/
def handed : MigrateResult := ⟨true, "web", 100, 1, none, "restored on node"⟩

/-- Its JSON text. -/
def handedText : String :=
  "\x7b\"ok\":true,\"container_id\":\"web\",\"pid\":100,\"generation\":1,\"restore_total_ms\":1.5," ++
  "\"restore_build_ms\":1.0,\"container_ip\":null,\"message\":\"restored on node\"\x7d"

/-- The messages of the transfer of the snapshot. No other result is told. -/
def webProtocol : Protocol := { protocol "web" with
  hello := only webHelloText webHello
  eof := only webEofText webEof
  result :=
    { encode := fun m => if m = handed then handedText.toUTF8.data.toList else []
      decode := (only handedText handed).decode } }

/-- The source says hello. -/
def webSource : ℕ → Host → (o : HostOp) → Option o.Reply
  | _, _, .recv 5 => some (.ok (1 :: toBE 4 webHelloText.toUTF8.data.toList.length))
  | _, _, .recv n => some (.ok (webHelloText.toUTF8.data.toList.take n))
  | _, _, _ => none

/-- The receiver when it waits for the first chunk. -/
def waiting : Host :=
  machine.next (machine.next (host frozen [] []) (.mkdirAll (inbox env)) (.ok ()))
    (.createFile (partFile env webHello).path) (.ok ())

/-- The receiver when the snapshot is in its inbox. -/
def arrived : Host :=
  machine.next ((waiting.extend (partFile env webHello).path snapshotBytes).extend
    (partFile env webHello).path []) (.rename (partFile env webHello).path
      (finalFile env webHello).path) (.ok ())

lemma waiting_part : waiting.file (partFile env webHello).path = some (.bytes []) :=
  Host.file_write _ _ _

lemma arrived_final : arrived.file (finalFile env webHello).path = some (.bytes snapshotBytes) := by
  have hpart := Host.file_extend _ (Host.file_extend _ waiting_part snapshotBytes) []
  rw [show (Content.bytes ((Content.bytes []).raw ++ snapshotBytes)).raw ++ [] = snapshotBytes by
    simp [Content.raw]] at hpart
  exact file_rename hpart

/-- Receiving the snapshot. -/
def receiving : List HostSig.Event :=
  [⟨.mkdirAll (inbox env), (.ok () : Except (ℕ × String) Unit)⟩,
    ⟨.createFile (partFile env webHello).path, (.ok () : Except String Unit)⟩] ++
  oneChunk (partFile env webHello).path snapshotBytes webEofText.toUTF8.data.toList ++
  [⟨.rename (partFile env webHello).path (finalFile env webHello).path, (.ok () : Except String Unit)⟩]

lemma received_receiving : received receiving =
    frame .chunk snapshotBytes ++ frame .eof webEofText.toUTF8.data.toList := by
  rw [receiving, received_append, received_append, received_oneChunk]
  simp [received, got]

lemma sent_receiving : sent receiving = [] := rfl

/-- The snapshot is received. -/
lemma web_received : Runs quiet (receiveFile env webProtocol 2 webHello) (host frozen [] []) receiving
    (some (.ok (finalFile env webHello))) arrived := by
  have hdec : webProtocol.eof.decode webEofText.toUTF8.data.toList = .ok webEof := by
    simp only [webProtocol, only, if_true]
  have hloop : Runs quiet (receive webProtocol (partFile env webHello) webHello 2 0 Crc32.new) waiting _
      (some (.ok ())) _ :=
    receive_run (b := snapshotBytes)
      (by rw [length_snapshotBytes]; decide) length_snapshotBytes.le (by decide +kernel) hdec
      length_snapshotBytes.symm rfl rfl ((Host.kind_file_iff _ _).mpr ⟨_, waiting_part⟩)
  have hmk : machine.Enabled (host frozen [] []) (.mkdirAll (inbox env)) (.ok ()) := by
    decide +kernel
  have hcreate : machine.Enabled (machine.next (host frozen [] []) (.mkdirAll (inbox env)) (.ok ()))
      (.createFile (partFile env webHello).path) (.ok ()) := by
    decide +kernel
  have hrename : machine.Enabled ((waiting.extend (partFile env webHello).path snapshotBytes).extend
      (partFile env webHello).path []) (.rename (partFile env webHello).path
        (finalFile env webHello).path) (.ok ()) := by
    decide +kernel
  change Runs quiet _ _ ([⟨.mkdirAll (inbox env), (.ok () : Except (ℕ × String) Unit)⟩] ++
    ([⟨.createFile (partFile env webHello).path, (.ok () : Except String Unit)⟩] ++
      (oneChunk (partFile env webHello).path snapshotBytes webEofText.toUTF8.data.toList ++
        [⟨.rename (partFile env webHello).path (finalFile env webHello).path,
          (.ok () : Except String Unit)⟩]))) _ _
  refine Exec.fallible_bind (Exec.call hmk (.ret _ _))
    (Exec.fallible_bind (Exec.call hcreate (.ret _ _)) (Exec.fallible_bind hloop ?_))
  exact Exec.call hrename (.ret _ _)

/-- The record of the container that arrives. -/
def adopted : ContainerState := { frozen with
  snapshot := some (finalFile env webHello).text
  originHost := some "node" }

/-- The restore at the end of the transfer. -/
def webOptions : Options := ⟨some (finalFile env webHello).text, 0, false⟩

/-- The file in the inbox, as the restore finds it. -/
def webFile : PathBuf := ⟨(finalFile env webHello).text, env.cwd⟩

/-- The engine was run on a restore. -/
def revives : HostSig.Event → Bool
  | ⟨.criuRestore _ _, _⟩ => true
  | _ => false

lemma mem_of_revives {tr : List HostSig.Event} (h : tr.any revives = true) :
    ∃ owner r rr, ⟨.criuRestore owner r, rr⟩ ∈ tr := by
  obtain ⟨⟨o, r⟩, hmem, he⟩ := List.any_eq_true.mp h
  cases o with
  | criuRestore owner opts => exact ⟨owner, opts, r, hmem⟩
  | _ => cases he

/-- The call asks neither for the configuration of the container nor for the name of the host. -/
def ignores (o : HostOp) : Bool :=
  match o with
  | .readFile p => decide (p ≠ (ContainerStateDir.forId env "web").configFile)
  | .hostname => false
  | _ => true

/-- The event tells no other name of the host than this one. -/
def tellsName (name : String) (e : HostSig.Event) : Bool :=
  match e with
  | ⟨.hostname, here⟩ => decide (here = name)
  | _ => true

/-- The event does not read the configuration, and tells the name of the receiver. -/
def expected (e : HostSig.Event) : Bool :=
  match e with
  | ⟨.hostname, here⟩ => decide (here = "node")
  | ⟨o, _⟩ => ignores o

lemma expected_of_ignores {e : HostSig.Event} (h : ignores e.1 = true) : expected e = true := by
  obtain ⟨o, r⟩ := e
  cases o with
  | hostname => cases h
  | _ => exact h

/-- This is what the receiver says of the restored container. -/
def restored (out : Option (Except RuntimeError Report)) : Bool :=
  match out with
  | some (.ok rep) => decide (rep.id = "web" ∧ rep.pid = 100 ∧ rep.generation = 1 ∧ rep.containerIp = none)
  | _ => false

/-- The call looks at something else than the configuration. -/
def looksElsewhere (e : HostSig.Event) : Bool := e.1.reads && ignores e.1

/-- What the restore does from the host on which the container was adopted: it chooses the snapshot, has
room to unpack it, and runs the engine, and nowhere reads the configuration. -/
def resumes (h : Host) : Bool :=
  decide (chosenBy looksElsewhere "web" webOptions h = some (some (.ok webFile), true)) &&
    ({ h with fs := h.fs.removeAll (ContainerStateDir.forId env "web").stagingDir } : Host).clearWay
      (ContainerStateDir.forId env "web").stagingDir &&
    ((machine.drive obliging 60 0 (onwardsFrom "web" webOptions webFile).run (unpacked entries "web" h)).any
      fun x => x.1.any revives && x.1.all expected && restored x.2.1)

/-- The adoption leaves the snapshot in the inbox alone. -/
lemma adopt_spares : (adopt env adopted config).run.Within fun o : HostOp =>
    ¬ o.overwrites (finalFile env webHello).path := by
  have hmk : ∀ (p : Path) (f : String → RuntimeError), (mkdirAll p f).run.Within fun o : HostOp =>
      ¬ o.overwrites (finalFile env webHello).path := fun p f =>
    (within_mkdirAll _ _).mpr fun h => h
  have hstate : (finalFile env webHello).path ≠ (ContainerStateDir.forId env "web").stateFile := by
    decide +kernel
  have hconfig : (finalFile env webHello).path ≠ (ContainerStateDir.forId env "web").configFile := by
    decide +kernel
  refine Fallible.within_bind (hmk _ _) fun _ => Fallible.within_bind ?_ fun _ => ?_
  · exact Fallible.within_bind (hmk _ _) fun _ => Fallible.within_bind (hmk _ _) fun _ => hmk _ _
  · exact Fallible.within_bind (within_writeDoc hstate fun h => hstate h) fun _ =>
      within_writeDoc hconfig fun h => hconfig h

/-- Unpacking the snapshot does not read the configuration. -/
lemma ignores_extract (source dir : Path) : AllowsExtract (fun o : HostOp => ignores o = true) source dir :=
  ⟨fun _ => rfl, fun _ _ => rfl, fun _ _ => ⟨rfl, fun _ => rfl, rfl⟩⟩

/-- The snapshot is adopted and restored. -/
lemma web_restored : ∃ tr rep h', Runs quiet (adoptAndRestore env codec (finalFile env webHello) 0) arrived tr
    (some (.ok rep)) h' ∧ restored (some (.ok rep)) = true ∧ (∀ e ∈ tr, expected e = true) ∧
    ∃ owner r rr, ⟨.criuRestore owner r, rr⟩ ∈ tr := by
  have hraw : (Content.bytes snapshotBytes).raw = image (codec.encode manifest) entries := rfl
  have hother : ignores (.readFile (finalFile env webHello).path) = true := by decide +kernel
  obtain ⟨tr₁, -, hopen⟩ := (open_yields codec_roundTrips manifest_fits
    arrived_final hraw).possible
  obtain ⟨tr₂, -, hverify⟩ := (verify_yields (h := arrived) (finalFile env webHello).path manifest
    (codec.encode manifest) entries (12 + (codec.encode manifest).length)).possible
  have hopens : ∀ e ∈ tr₁, ignores e.1 = true := by
    refine Exec.mem_within (P := fun o => ignores o = true) ?_ hopen
    exact Fallible.within_bind ((within_sys (.readFile _)).mpr hother) fun _ =>
      Fallible.within_bind (within_orErr _ _) fun _ => within_ofExcept _
  have hverifies : ∀ e ∈ tr₂, ignores e.1 = true := by
    exact Exec.mem_within (P := fun o => ignores o = true) (within_verify _ fun _ => rfl) hverify
  have hdrive : ((machine.drive obliging 60 0 (adopt env adopted config).run arrived).map fun x =>
      (x.2.1.map Except.isOk, x.1.all (fun e => ignores e.1), resumes x.2.2)) =
      some (some true, true, true) := by
    decide +kernel
  obtain ⟨⟨tr₃, out, h₁⟩, hx, hall⟩ := Option.map_eq_some_iff.mp hdrive
  simp only [Prod.mk.injEq] at hall
  obtain ⟨hout, hadopts, hresumes⟩ := hall
  obtain ⟨res, rfl, hres⟩ := Option.map_eq_some_iff.mp hout
  have hadopt : Runs quiet (adopt env adopted config) arrived tr₃ (some res) h₁ := Machine.drive_exec hx
  cases res with
  | error e => cases hres
  | ok u =>
    simp only [resumes, Bool.and_eq_true, decide_eq_true_eq] at hresumes
    obtain ⟨⟨hchosen, hway⟩, hany⟩ := hresumes
    obtain ⟨⟨tr₄, out', h₂⟩, hy, hends⟩ := (Option.any_eq_true _ _).mp hany
    simp only [Bool.and_eq_true] at hends
    obtain ⟨⟨hrevives, honwards⟩, hrestored⟩ := hends
    obtain ⟨rep, rfl⟩ : ∃ rep, out' = some (.ok rep) := by
      rcases out' with _ | e | rep
      · cases hrestored
      · cases hrestored
      · exact ⟨rep, rfl⟩
    have hpath : webFile.path = (finalFile env webHello).path := by decide +kernel
    have hfile : h₁.file webFile.path = some (.bytes snapshotBytes) := by
      rw [hpath, Runs.file_kept (keeps_quiet _) adopt_spares hadopt]
      exact arrived_final
    have hexamine : ∀ o, Examines webFile.path o → ∀ r, looksElsewhere ⟨o, r⟩ = true := by
      rintro o (rfl | ⟨span, rfl⟩ | rfl) r
      · rw [hpath]
        exact hother
      · rfl
      · rfl
    obtain ⟨tr₅, hselects, hrestore⟩ := restore_of_selected (fun e he => Bool.and_eq_true_iff.mp he) hexamine
      (ignores_extract _ _) rfl rfl manifest_fits rfl (by decide +kernel) hchosen hfile hway
      (by decide +kernel) (Machine.drive_exec hy)
    obtain ⟨owner, r, rr, hmem⟩ := mem_of_revives hrevives
    have hsnapshot : Runs quiet (adoptSnapshot env codec (finalFile env webHello)) arrived
        (tr₁ ++ (tr₂ ++ (tr₃ ++ []))) (some (.ok ("web", config))) h₁ :=
      Exec.fallible_bind hopen (Exec.fallible_bind hverify (Exec.fallible_bind hadopt (.ret _ _)))
    refine ⟨_, rep, h₂, Exec.fallible_bind hsnapshot hrestore, hrestored, ?_, owner, r, rr, ?_⟩
    · simp only [List.append_nil, List.forall_mem_append]
      have hfirst : ∀ {t : List HostSig.Event}, (∀ e ∈ t, ignores e.1 = true) → ∀ e ∈ t, expected e = true :=
        fun h e he => expected_of_ignores (h e he)
      exact ⟨⟨hfirst hopens, hfirst hverifies, hfirst (List.all_eq_true.mp hadopts)⟩, hfirst hselects,
        List.all_eq_true.mp honwards⟩
    · exact List.mem_append_right _ (List.mem_append_right _ hmem)

/-- The only hello there is. -/
lemma webHello_of_decode {body : Bytes} {hello : Hello}
    (h : webProtocol.hello.decode body = .ok hello) : hello = webHello := by
  simp only [webProtocol, only] at h
  split at h
  · exact (Except.ok.inj h).symm
  · cases h

/-- The acknowledgement of the receiver. -/
def ackText : Bytes := webProtocol.helloAck.encode ⟨1, true, "node", "x86_64", ""⟩

/-- Telling the sender of the restore. -/
def answering : List HostSig.Event :=
  ⟨.hostname, "node"⟩ :: (writes .result handedText.toUTF8.data.toList ++
    [⟨.flush, (.ok () : Except String Unit)⟩])

lemma received_answering : received answering = [] := rfl

lemma sent_answering : sent answering = frame .result handedText.toUTF8.data.toList := by
  simp [answering, sent, writes, puts, frame]

/-- **The receiver's end.** The hello is accepted, the snapshot received, adopted and restored, and the
sender is told so. -/
structure Handed (tr₁ tr₂ : List HostSig.Event) (rep : Report) (h : Host) : Prop where
  greet : Runs quiet (greet env webProtocol "secret") (host frozen [] []) tr₁ (some (.ok webHello))
    (host frozen [] [])
  restore : Runs quiet (adoptAndRestore env codec (finalFile env webHello) 0) arrived tr₂ (some (.ok rep)) h
  answer : Runs quiet (answer webProtocol webHello (.ok rep)) h answering (some (.ok "web")) h
  tells : (⟨true, rep.id, rep.pid, rep.generation, rep.containerIp, "restored on node"⟩ : MigrateResult) = handed
  opens : received tr₁ = frame .hello webHelloText.toUTF8.data.toList
  accepts : sent tr₁ = frame .helloAck ackText
  expects : ∀ e ∈ tr₁ ++ (receiving ++ (tr₂ ++ answering)), expected e = true
  engine : ∃ owner r rr, ⟨.criuRestore owner r, rr⟩ ∈ tr₂

namespace Handed

variable {tr₁ tr₂ : List HostSig.Event} {rep : Report} {h : Host}

/-- All of it. -/
lemma handleOne (hh : Handed tr₁ tr₂ rep h) : Runs quiet (handleOne env codec webProtocol 2 "secret" 0)
    (host frozen [] []) (tr₁ ++ (receiving ++ (tr₂ ++ answering))) (some (.ok "web")) h := by
  refine Exec.fallible_bind hh.greet (Exec.fallible_bind web_received ?_)
  rw [Fallible.run_attempt_bind]
  exact Exec.bind hh.restore hh.answer

/-- It begins with the hello. -/
lemma announced (hh : Handed tr₁ tr₂ rep h) :
    Announced webProtocol (tr₁ ++ (receiving ++ (tr₂ ++ answering))) webHello := by
  obtain ⟨hdr, n, body, rest, rfl, hdec⟩ := greet_ok hh.greet
  exact ⟨hdr, n, body, rest ++ (receiving ++ (tr₂ ++ answering)), rfl, hdec⟩

end Handed

/-- There is such a run. -/
lemma web_handed : ∃ tr₁ tr₂ rep h, Handed tr₁ tr₂ rep h := by
  have hgreets : ((machine.drive (departing webSource) 20 0 (greet env webProtocol "secret").run
      (host frozen [] [])).map fun x => (x.2.1.map Except.isOk, received x.1, sent x.1,
        x.1.all expected)) =
      some (some true, frame .hello webHelloText.toUTF8.data.toList, frame .helloAck ackText, true) := by
    decide +kernel
  obtain ⟨⟨tr₁, out, g⟩, hx, hall⟩ := Option.map_eq_some_iff.mp hgreets
  simp only [Prod.mk.injEq] at hall
  obtain ⟨hout, hopens, haccepts, hexpected⟩ := hall
  obtain ⟨res, rfl, hres⟩ := Option.map_eq_some_iff.mp hout
  have hgreet : Runs quiet (greet env webProtocol "secret") (host frozen [] []) tr₁ (some res) g :=
    Machine.drive_exec hx
  obtain rfl : host frozen [] [] = g := (Runs.eq_of_reads (greet_reads _) hgreet).symm
  obtain ⟨tr₂, rep, h, hrestore, hrestored, hexpected₂, hengine⟩ := web_restored
  obtain ⟨hid, hpid, hgeneration, hip⟩ :
      rep.id = "web" ∧ rep.pid = 100 ∧ rep.generation = 1 ∧ rep.containerIp = none :=
    of_decide_eq_true hrestored
  have hresult : (⟨true, rep.id, rep.pid, rep.generation, rep.containerIp, "restored on node"⟩ :
      MigrateResult) = handed := by
    rw [hid, hpid, hgeneration, hip]
    rfl
  have hencode : webProtocol.result.encode handed = handedText.toUTF8.data.toList := by
    show (if handed = handed then handedText.toUTF8.data.toList else []) = _
    rw [if_pos rfl]
  have hwrite : Runs quiet (writeFrame .result handedText.toUTF8.data.toList) h
      (writes .result handedText.toUTF8.data.toList) (some (.ok ())) h :=
    writeFrame_run (by decide +kernel) h
  have hanswer : Runs quiet (answer webProtocol webHello (.ok rep)) h answering (some (.ok "web")) h := by
    have hhere : machine.Enabled h .hostname "node" := rfl
    have hflush : machine.Enabled h .flush (.ok ()) := rfl
    refine Exec.call hhere ?_
    change Exec machine quiet (writeFrame .result (webProtocol.result.encode ⟨true, rep.id, rep.pid,
      rep.generation, rep.containerIp, "restored on node"⟩) >>= fun _ => sys .flush >>= fun _ =>
        pure rep.id).run h _ _ h
    rw [hresult, hencode, hid]
    exact Exec.fallible_bind hwrite (Exec.call hflush (.ret _ _))
  cases res with
  | error e => cases hres
  | ok hello =>
    obtain ⟨hdr, n, body, rest, -, hdec⟩ := greet_ok hgreet
    obtain rfl := webHello_of_decode hdec
    refine ⟨tr₁, tr₂, rep, h, hgreet, hrestore, hanswer, hresult, hopens, haccepts, ?_, hengine⟩
    simp only [List.forall_mem_append]
    exact ⟨List.all_eq_true.mp hexpected, by decide +kernel, hexpected₂, by decide +kernel⟩

end Demo

end Mincontainer
