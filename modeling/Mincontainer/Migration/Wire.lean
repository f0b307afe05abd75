import Mincontainer.Effects.Assure
import Mincontainer.Host.Rules
import Mincontainer.Migration.Frames

set_option relaxedAutoImplicit false
set_option autoImplicit false

/-!
# Frames on a byte stream

What the framing of `transport.rs` does to a stream of bytes: a write appends to what was written,
an exact read takes the next bytes and fails only when there are too few. Frames written one after
the other are read back one by one, whatever follows them, and a frame that was read took exactly
the bytes that writing it produces.

## Main definitions

* `Mincontainer.takes`, `Mincontainer.remaining` — the bytes that are still to come after a call,
  and after a trace.
* `Mincontainer.puts`, `Mincontainer.sent` — the bytes that a call, and a trace, put into the stream.
* `Mincontainer.got`, `Mincontainer.received` — the bytes that a call, and a trace, got from it.
* `Mincontainer.wire` — the machine of a program that only reads and writes a stream.
* `Mincontainer.WireFrame` — a frame within the limits.
* `Mincontainer.readFrames`, `Mincontainer.writeFrames` — frames one after the other.
* `Mincontainer.incoming` — the machine of a host with an incoming stream.

## Main results

* `Mincontainer.readFrame_wire`, `Mincontainer.readFrame_took` — reading one frame, both ways.
* `Mincontainer.frames_exact` — reading back what was written, and writing again what was read.
* `Mincontainer.remaining_received` — what was delivered, and what is still to come.
* `Mincontainer.Runs.incoming` — a run whose reads are of a stream is one over that stream.
-/

namespace Mincontainer

open Effects Files Bytes

/-! ### Streams -/

/-- The bytes still to come after a call. An exact read takes the next bytes, and fails only when
there are too few. -/
def takes (input : Bytes) : (o : HostOp) → o.Reply → Option Bytes
  | .recv n, r =>
    match (r : Except String Bytes) with
    | .ok b => if n ≤ input.length ∧ b = input.take n then some (input.drop n) else none
    | .error _ => if input.length < n then some [] else none
  | _, _ => some input

/-- The bytes still to come after a trace, if its reads are reads of `input`. -/
def remaining : Bytes → List HostSig.Event → Option Bytes
  | input, [] => some input
  | input, e :: tr => (takes input e.1 e.2).bind fun rest => remaining rest tr

/-- The bytes that a call puts into the stream. -/
def puts : (o : HostOp) → o.Reply → Bytes
  | .send data, r =>
    match (r : Except (Nat × String) Unit) with
    | .ok _ => data
    | .error (n, _) => data.take n
  | _, _ => []

/-- The bytes that a call got from the stream. -/
def got : (o : HostOp) → o.Reply → Bytes
  | .recv _, r =>
    match (r : Except String Bytes) with
    | .ok b => b
    | .error _ => []
  | _, _ => []

/-- The bytes that a trace got from the stream. -/
def received (tr : List HostSig.Event) : Bytes := tr.flatMap fun e => got e.1 e.2

/-- The call reads from the stream. -/
def HostOp.hears : HostOp → Bool
  | .recv _ => true
  | _ => false

/-- The bytes that a trace puts into the stream. -/
def sent (tr : List HostSig.Event) : Bytes := tr.flatMap fun e => puts e.1 e.2

@[simp] lemma received_nil : received [] = [] := rfl

@[simp] lemma received_append (tr tr' : List HostSig.Event) :
    received (tr ++ tr') = received tr ++ received tr' :=
  List.flatMap_append

/-- A trace without reads from the stream gets nothing. -/
lemma received_of_deaf {tr : List HostSig.Event} (h : ∀ e ∈ tr, e.1.hears = false) :
    received tr = [] := by
  refine List.flatMap_eq_nil_iff.mpr fun e he => ?_
  obtain ⟨o, r⟩ := e
  cases o <;> first | rfl | cases h _ he

@[simp] lemma sent_nil : sent [] = [] := rfl

@[simp] lemma sent_append (tr tr' : List HostSig.Event) : sent (tr ++ tr') = sent tr ++ sent tr' :=
  List.flatMap_append

/-- The call writes into the stream. -/
def HostOp.speaks : HostOp → Bool
  | .send _ => true
  | _ => false

/-- A trace without writes into the stream puts nothing there. -/
lemma sent_of_mute {tr : List HostSig.Event} (h : ∀ e ∈ tr, e.1.speaks = false) :
    sent tr = [] := by
  refine List.flatMap_eq_nil_iff.mpr fun e he => ?_
  obtain ⟨o, r⟩ := e
  cases o <;> first | rfl | cases h _ he

/-- As long as no read failed, what was delivered and what is still to come make up the stream.

**Proof sketch.** Induction on the trace: a read takes its bytes from the front, and any other call
leaves the stream alone. -/
lemma remaining_received {tr : List HostSig.Event} {input rest : Bytes}
    (h : remaining input tr = some rest)
    (hok : ∀ e ∈ tr, failed e = false ∨ e.1.hears = false) : input = received tr ++ rest := by
  induction tr generalizing input with
  | nil =>
    obtain rfl := Option.some.inj h
    rfl
  | cons e tr ih =>
    obtain ⟨mid, hmid, htail⟩ := Option.bind_eq_some_iff.mp h
    have hrest := ih htail fun e he => hok e (List.mem_cons_of_mem _ he)
    have hcons : received (e :: tr) = got e.1 e.2 ++ received tr := List.flatMap_cons
    rw [hcons, List.append_assoc, ← hrest]
    have hhead := hok e List.mem_cons_self
    obtain ⟨o, r⟩ := e
    cases o with
    | recv n =>
      rcases r with e | b
      · simp [failed, HostOp.hears, Except.isOk, Except.toBool] at hhead
      · simp only [takes] at hmid
        split_ifs at hmid with htake
        obtain ⟨-, rfl⟩ := htake
        obtain rfl := Option.some.inj hmid
        exact (List.take_append_drop n input).symm
    | _ =>
      obtain rfl := Option.some.inj hmid
      rfl

/-- The two directions of a stream. -/
structure Wire where
  /-- What is still to be read. -/
  input : Bytes
  /-- What was written. -/
  output : Bytes
deriving DecidableEq, Repr

namespace Wire

/-- The replies of reads and writes; a write into the stream does not fail, and there are no other
calls. -/
def enabled (w : Wire) : (o : HostOp) → o.Reply → Bool
  | .recv n, r => (takes w.input (.recv n) r).isSome
  | .send _, r => (r : Except (Nat × String) Unit).isOk
  | _, _ => false

/-- The stream after a call. -/
def next (w : Wire) (o : HostOp) (r : o.Reply) : Wire :=
  ⟨(takes w.input o r).getD [], w.output ++ puts o r⟩

end Wire

/-- The machine of a program that only reads and writes a stream. -/
def wire : Machine HostSig Wire where
  Enabled w o r := w.enabled o r = true
  next w o r := w.next o r

/-! ### Frames -/

/-- A frame within the limits of the receiver. -/
structure WireFrame where
  kind : FrameType
  payload : Bytes
  /-- The payload has at most 4 MiB. -/
  fits : payload.length ≤ 4 * 1024 * 1024

/-- The bytes of a frame. -/
def WireFrame.bytes (f : WireFrame) : Bytes := frame f.kind f.payload

/-- The limits of control frames and of chunks agree. -/
lemma FrameType.cap_eq (t : FrameType) : t.cap = 4 * 1024 * 1024 := by
  cases t <;> rfl

/-- Read a frame: its header, then its payload. -/
def readFrame : HostM (FrameType × Bytes) := do
  let (t, len) ← readHeader
  let body ← readPayload len
  pure (t, body)

/-- Read `n` frames one after the other. -/
def readFrames : Nat → HostM (List (FrameType × Bytes))
  | 0 => pure []
  | n + 1 => do
    let f ← readFrame
    let fs ← readFrames n
    pure (f :: fs)

/-- Write frames one after the other. -/
def writeFrames : List WireFrame → HostM Unit
  | [] => pure ()
  | f :: fs => do
    writeFrame f.kind f.payload
    writeFrames fs

/-- Read exactly `n` bytes. -/
def readExact (n : Nat) (f : String → RuntimeError) : HostM Bytes := do
  orErr (← sys (.recv n)) f

/-! ### Running to the end -/

/-- On the stream `w` the program ends with the result `r` and leaves the stream `w'`. -/
def Wire.Ends {α : Type} (x : HostM α) (w : Wire) (r : Except RuntimeError α) (w' : Wire) : Prop :=
  ∃ tr, Exec wire quiet x.run w tr (some r) w'

namespace Wire

variable {α β : Type} {w w' : Wire}

lemma ends_pure {a : α} {r : Except RuntimeError α} :
    Ends (pure a) w r w' ↔ r = .ok a ∧ w' = w := by
  constructor
  · rintro ⟨tr, h⟩
    obtain ⟨-, rfl, rfl⟩ := Exec.quiet_ret_iff.mp h
    exact ⟨rfl, rfl⟩
  · rintro ⟨rfl, rfl⟩
    exact ⟨[], .ret _ _⟩

/-- A sequence that ends with a value went through both parts. -/
lemma ends_bind_ok {x : HostM α} {f : α → HostM β} {b : β} :
    Ends (x >>= f) w (.ok b) w' ↔ ∃ a w₁, Ends x w (.ok a) w₁ ∧ Ends (f a) w₁ (.ok b) w' := by
  constructor
  · rintro ⟨tr, h⟩
    obtain ⟨a, tr₁, tr₂, w₁, -, h₁, h₂⟩ := h.fallible_bind_ok
    exact ⟨a, w₁, ⟨tr₁, h₁⟩, ⟨tr₂, h₂⟩⟩
  · rintro ⟨a, w₁, ⟨tr₁, h₁⟩, ⟨tr₂, h₂⟩⟩
    exact ⟨_, h₁.fallible_bind h₂⟩

/-- Where the first part can only end with a value, the sequence ends as the second part does. -/
lemma ends_bind {x : HostM α} {f : α → HostM β} {a : α} {w₁ : Wire} {r : Except RuntimeError β}
    (hx : ∀ r₁ w₂, Ends x w r₁ w₂ ↔ r₁ = .ok a ∧ w₂ = w₁) :
    Ends (x >>= f) w r w' ↔ Ends (f a) w₁ r w' := by
  constructor
  · rintro ⟨tr, h⟩
    rcases h.fallible_bind_inv with ⟨h, -⟩ | ⟨e, -, h⟩ | ⟨b, tr₁, tr₂, w₂, -, h₁, h₂⟩
    · cases h
    · cases ((hx _ _).mp ⟨_, h⟩).1
    · obtain ⟨hb, rfl⟩ := (hx _ _).mp ⟨_, h₁⟩
      cases hb
      exact ⟨_, h₂⟩
  · rintro ⟨tr, h⟩
    obtain ⟨tr₁, h₁⟩ := (hx _ _).mpr ⟨rfl, rfl⟩
    exact ⟨_, h₁.fallible_bind h⟩

/-- An exact read of bytes that are there takes them. -/
lemma ends_recv {n : ℕ} {f : String → RuntimeError} {r : Except RuntimeError Bytes}
    (hn : n ≤ w.input.length) :
    Ends (readExact n f) w r w' ↔
      r = .ok (w.input.take n) ∧ w' = ⟨w.input.drop n, w.output⟩ := by
  rw [Ends, readExact, sys, Fallible.run_sys_bind]
  simp only [Exec.quiet_call_iff]
  constructor
  · rintro ⟨tr, reply, tr', henabled, -, hrest⟩
    cases reply with
    | error e =>
      have hlt : w.input.length < n := by
        by_contra hlt
        simp [wire, Wire.enabled, takes, hlt] at henabled
      omega
    | ok b =>
      have hb : b = w.input.take n := by
        by_contra hb
        simp [wire, Wire.enabled, takes, hb] at henabled
      subst hb
      obtain ⟨-, rfl, rfl⟩ := Exec.quiet_ret_iff.mp hrest
      refine ⟨rfl, ?_⟩
      simp [wire, Wire.next, takes, puts, hn]
  · rintro ⟨rfl, rfl⟩
    refine ⟨_, .ok (w.input.take n), [], by simp [wire, Wire.enabled, takes, hn], rfl, ?_⟩
    refine Exec.quiet_ret_iff.mpr ⟨rfl, ?_, rfl⟩
    simp [wire, Wire.next, takes, puts, hn]

/-- An exact read that got a value took it from the front. -/
lemma ends_recv_ok {n : ℕ} {f : String → RuntimeError} {b : Bytes}
    (h : Ends (readExact n f) w (.ok b) w') :
    b.length = n ∧ w.input = b ++ w'.input ∧ w'.output = w.output := by
  have hn : n ≤ w.input.length := by
    obtain ⟨tr, h⟩ := h
    rw [readExact, sys, Fallible.run_sys_bind, Exec.quiet_call_iff] at h
    obtain ⟨reply, tr', henabled, -, hrest⟩ := h
    cases reply with
    | error e => cases (Exec.quiet_ret_iff.mp hrest).2.2
    | ok c =>
      by_contra hlt
      simp [wire, Wire.enabled, takes, hlt] at henabled
  obtain ⟨hb, rfl⟩ := (ends_recv hn).mp h
  cases hb
  exact ⟨List.length_take_of_le hn, (List.take_append_drop n w.input).symm, rfl⟩

/-- A write appends. -/
lemma ends_writeAll {data : Bytes} {r : Except RuntimeError Unit} :
    Ends (writeAll data) w r w' ↔ r = .ok () ∧ w' = ⟨w.input, w.output ++ data⟩ := by
  rw [Ends, writeAll, sys, Fallible.run_sys_bind]
  simp only [Exec.quiet_call_iff]
  constructor
  · rintro ⟨tr, reply, tr', henabled, -, hrest⟩
    cases reply with
    | error e => cases henabled
    | ok u =>
      obtain ⟨-, rfl, rfl⟩ := Exec.quiet_ret_iff.mp hrest
      exact ⟨rfl, rfl⟩
  · rintro ⟨rfl, rfl⟩
    exact ⟨_, .ok (), [], rfl, rfl, Exec.quiet_ret_iff.mpr ⟨rfl, rfl, rfl⟩⟩

end Wire

/-! ### Writing frames -/

section Writing

variable {w w' : Wire}

/-- Writing a frame appends its bytes. -/
lemma writeFrame_wire {t : FrameType} {payload : Bytes} {r : Except RuntimeError Unit}
    (hlen : payload.length < 2 ^ 32) :
    Wire.Ends (writeFrame t payload) w r w' ↔
      r = .ok () ∧ w' = ⟨w.input, w.output ++ frame t payload⟩ := by
  rw [writeFrame, if_pos hlen, Wire.ends_bind fun _ _ => Wire.ends_writeAll,
    Wire.ends_bind fun _ _ => Wire.ends_writeAll, Wire.ends_writeAll]
  simp [frame]

/-- A frame within the limits has a length of four bytes. -/
lemma WireFrame.length_lt (f : WireFrame) : f.payload.length < 2 ^ 32 := lt_of_le_of_lt f.fits (by decide)

/-- Writing frames appends their bytes, one after the other. -/
lemma writeFrames_wire {fs : List WireFrame} {r : Except RuntimeError Unit} :
    Wire.Ends (writeFrames fs) w r w' ↔
      r = .ok () ∧ w' = ⟨w.input, w.output ++ fs.flatMap WireFrame.bytes⟩ := by
  induction fs generalizing w with
  | nil => simpa [writeFrames] using Wire.ends_pure
  | cons f fs ih =>
    rw [writeFrames, Wire.ends_bind fun _ _ => writeFrame_wire f.length_lt, ih]
    simp [WireFrame.bytes]

end Writing

/-! ### Reading frames -/

section Reading

variable {w w' : Wire}

/-- A header is five bytes, read exactly, and what they mean. -/
lemma readHeader_eq :
    readHeader = readExact 5 (fun e => .migration s!"read frame header: {e}") >>= fun hdr =>
      ofExcept (parseHeader hdr) := by
  rw [readHeader, readExact, bind_assoc]

lemma ends_ofExcept {α : Type} {x r : Except RuntimeError α} :
    Wire.Ends (ofExcept x) w r w' ↔ r = x ∧ w' = w := by
  cases x with
  | ok a => exact Wire.ends_pure
  | error e =>
    constructor
    · rintro ⟨tr, h⟩
      obtain ⟨-, rfl, rfl⟩ := Exec.quiet_ret_iff.mp h
      exact ⟨rfl, rfl⟩
    · rintro ⟨rfl, rfl⟩
      exact ⟨[], .ret _ _⟩

/-- The header of a frame on the stream. -/
lemma readHeader_wire {t : FrameType} {n : ℕ} {rest out : Bytes}
    {r : Except RuntimeError (FrameType × ℕ)} (hn : n ≤ 4 * 1024 * 1024) :
    Wire.Ends readHeader ⟨t.toU8 :: (toBE 4 n ++ rest), out⟩ r w' ↔
      r = .ok (t, n) ∧ w' = ⟨rest, out⟩ := by
  have hlen : (toBE 4 n).length = 4 := length_toBE 4 n
  have htake : (t.toU8 :: (toBE 4 n ++ rest)).take 5 = t.toU8 :: toBE 4 n := by
    rw [List.take_succ_cons, List.take_left' hlen]
  have hdrop : (t.toU8 :: (toBE 4 n ++ rest)).drop 5 = rest := by
    rw [List.drop_succ_cons, List.drop_left' hlen]
  have hrecv : ∀ f r₁ w₂, Wire.Ends (readExact 5 f)
      ⟨t.toU8 :: (toBE 4 n ++ rest), out⟩ r₁ w₂ ↔
        r₁ = .ok (t.toU8 :: toBE 4 n) ∧ w₂ = ⟨rest, out⟩ := by
    intro f r₁ w₂
    rw [Wire.ends_recv (by simp [hlen]), htake, hdrop]
  rw [readHeader_eq, Wire.ends_bind (hrecv _), ends_ofExcept,
    parseHeader_frame (by rw [FrameType.cap_eq]; exact hn)]

/-- The payload of a frame on the stream. -/
lemma readPayload_wire {payload rest out : Bytes} {r : Except RuntimeError Bytes} :
    Wire.Ends (readPayload payload.length) ⟨payload ++ rest, out⟩ r w' ↔
      r = .ok payload ∧ w' = ⟨rest, out⟩ := by
  exact (Wire.ends_recv (by simp)).trans (by rw [List.take_left, List.drop_left])

/-- **One frame, read.** A frame in front of the stream is read as it is, and the stream goes on
behind it. -/
lemma readFrame_wire {f : WireFrame} {rest out : Bytes} {r : Except RuntimeError (FrameType × Bytes)} :
    Wire.Ends readFrame ⟨f.bytes ++ rest, out⟩ r w' ↔
      r = .ok (f.kind, f.payload) ∧ w' = ⟨rest, out⟩ := by
  have hbytes : f.bytes ++ rest =
      f.kind.toU8 :: (toBE 4 f.payload.length ++ (f.payload ++ rest)) := by
    simp [WireFrame.bytes, frame]
  rw [hbytes, readFrame, Wire.ends_bind fun _ _ => readHeader_wire f.fits]
  dsimp only
  rw [Wire.ends_bind fun _ _ => readPayload_wire, Wire.ends_pure]

/-- Frames in front of the stream are read one by one.

**Proof sketch.** Induction on the frames: each read leaves the stream at the next frame. -/
lemma readFrames_wire {fs : List WireFrame} {rest out : Bytes}
    {r : Except RuntimeError (List (FrameType × Bytes))} :
    Wire.Ends (readFrames fs.length) ⟨fs.flatMap WireFrame.bytes ++ rest, out⟩ r w' ↔
      r = .ok (fs.map fun f => (f.kind, f.payload)) ∧ w' = ⟨rest, out⟩ := by
  induction fs generalizing r w' with
  | nil => exact Wire.ends_pure
  | cons f fs ih =>
    rw [List.flatMap_cons, List.append_assoc, List.length_cons, readFrames,
      Wire.ends_bind fun _ _ => readFrame_wire, Wire.ends_bind fun _ _ => ih, Wire.ends_pure,
      List.map_cons]

/-- A byte that names a type is the byte of that type. -/
lemma FrameType.toU8_of_fromU8 {b : UInt8} {t : FrameType} (h : FrameType.fromU8 b = some t) :
    t.toU8 = b := by
  simp only [FrameType.fromU8] at h
  split_ifs at h with h₁ h₂ h₃ h₄ h₅ h₆ <;> cases h <;> symm <;> assumption

/-- The five bytes of a header are those of the type and the length it tells. -/
lemma frame_of_parseHeader {hdr : Bytes} {t : FrameType} {n : ℕ} (hlen : hdr.length = 5)
    (h : parseHeader hdr = .ok (t, n)) :
    hdr = t.toU8 :: toBE 4 n ∧ n ≤ 4 * 1024 * 1024 := by
  obtain ⟨b, len, rfl⟩ : ∃ b len, hdr = b :: len := by
    cases hdr with
    | nil => cases hlen
    | cons b len => exact ⟨b, len, rfl⟩
  have h4 : len.length = 4 := by simpa using hlen
  simp only [parseHeader, List.headD_cons, List.drop_succ_cons, List.drop_zero] at h
  split at h
  · cases h
  · rename_i t' ht
    split_ifs at h with hcap
    cases h
    refine ⟨?_, by rw [FrameType.cap_eq] at hcap; omega⟩
    rw [FrameType.toU8_of_fromU8 ht, ← h4, toBE_ofBE]

/-- **One frame, taken.** What was read as a frame is within the limits, and its bytes are those
that were taken from the stream. -/
lemma readFrame_took {t : FrameType} {payload : Bytes}
    (h : Wire.Ends readFrame w (.ok (t, payload)) w') :
    ∃ f : WireFrame, f.kind = t ∧ f.payload = payload ∧ w.input = f.bytes ++ w'.input ∧
      w'.output = w.output := by
  rw [readFrame, Wire.ends_bind_ok] at h
  obtain ⟨⟨t', n⟩, w₁, hheader, h⟩ := h
  rw [readHeader_eq, Wire.ends_bind_ok] at hheader
  obtain ⟨hdr, w₂, hrecv, hparse⟩ := hheader
  obtain ⟨hok, rfl⟩ := ends_ofExcept.mp hparse
  obtain ⟨h5, hinput, hout⟩ := Wire.ends_recv_ok hrecv
  obtain ⟨rfl, hn⟩ := frame_of_parseHeader h5 hok.symm
  dsimp only at h
  rw [Wire.ends_bind_ok] at h
  obtain ⟨body, w₃, hbody, h⟩ := h
  obtain ⟨hpair, rfl⟩ := Wire.ends_pure.mp h
  cases hpair
  obtain ⟨rfl, hinput', hout'⟩ := Wire.ends_recv_ok hbody
  refine ⟨⟨t, payload, hn⟩, rfl, rfl, ?_, hout'.trans hout⟩
  rw [hinput, hinput']
  simp [WireFrame.bytes, frame]

end Reading

/-! ### Frames on a host -/

section Hosts

variable {R : Host → Host → Prop} {h h' : Host} {tr : List HostSig.Event}

/-- A program that does not read from the stream gets nothing. -/
lemma Runs.received_nil {α : Type} {x : HostM α} {out : Option (Except RuntimeError α)}
    (hx : x.run.Within fun o : HostOp => o.hears = false) (hrun : Runs R x h tr out h') :
    received tr = [] :=
  received_of_deaf fun e he => Exec.mem_within hx hrun e he

/-- A header that was read on a host. -/
lemma readHeader_ok {t : FrameType} {n : ℕ}
    (hrun : Runs R readHeader h tr (some (.ok (t, n))) h') :
    received tr = t.toU8 :: toBE 4 n ∧ n ≤ 4 * 1024 * 1024 := by
  obtain ⟨g, r, tr₁, -, hr, rfl, hrun₁⟩ := Exec.call_some_inv hrun
  rcases r with e | hdr
  · obtain ⟨-, -, hres⟩ := Exec.ret_some_inv hrun₁
    cases hres
  change Runs R (ofExcept (parseHeader hdr)) _ _ _ _ at hrun₁
  obtain ⟨rfl, hparse⟩ := ofExcept_ok hrun₁
  have hlen : hdr.length = 5 := Host.enabled_recv.mp hr
  obtain ⟨rfl, hn⟩ := frame_of_parseHeader hlen hparse
  exact ⟨by simp [received, got], hn⟩

/-- A payload that was read on a host. -/
lemma readPayload_ok {n : ℕ} {body : Bytes}
    (hrun : Runs R (readPayload n) h tr (some (.ok body)) h') :
    received tr = body ∧ body.length = n := by
  obtain ⟨g, r, tr₁, -, hr, rfl, hrun₁⟩ := Exec.call_some_inv hrun
  rcases r with e | b
  · obtain ⟨-, -, hres⟩ := Exec.ret_some_inv hrun₁
    cases hres
  obtain ⟨rfl, -, hres⟩ := Exec.ret_some_inv hrun₁
  obtain rfl := Except.ok.inj hres
  exact ⟨by simp [received, got], Host.enabled_recv.mp hr⟩

/-- A program that does not write into the stream puts nothing there. -/
lemma Runs.sent_nil {α : Type} {x : HostM α} {out : Option (Except RuntimeError α)}
    (hx : x.run.Within fun o : HostOp => o.speaks = false) (hrun : Runs R x h tr out h') :
    sent tr = [] :=
  sent_of_mute fun e he => Exec.mem_within hx hrun e he

/-- The machine of a host whose incoming stream still holds the given bytes. -/
def incoming : Machine HostSig (Host × Bytes) where
  Enabled w o r := machine.Enabled w.1 o r ∧ (takes w.2 o r).isSome = true
  next w o r := (machine.next w.1 o r, (takes w.2 o r).getD [])

/-- The environment of the host; it leaves the stream alone. -/
def Besides (R : Host → Host → Prop) (a b : Host × Bytes) : Prop := R a.1 b.1 ∧ b.2 = a.2

lemma Besides.star {a b : Host × Bytes} (hab : Relation.ReflTransGen (Besides R) a b) :
    Relation.ReflTransGen R a.1 b.1 ∧ b.2 = a.2 := by
  induction hab with
  | refl => exact ⟨.refl, rfl⟩
  | tail _ hstep ih => exact ⟨ih.1.tail hstep.1, hstep.2.trans ih.2⟩

/-- **Runs over a stream.** A run whose reads are of the stream `input` is a run of the host with that
incoming stream. -/
lemma Runs.incoming {α : Type} {x : HostM α} {out : Option (Except RuntimeError α)}
    {input rest : Bytes} (hrun : Runs R x h tr out h') (hdel : remaining input tr = some rest) :
    Exec incoming (Besides R) x.run (h, input) tr out (h', rest) := by
  change Exec machine R x.run h tr out h' at hrun
  generalize x.run = p at hrun ⊢
  induction hrun generalizing input with
  | cut p w =>
    obtain rfl := Option.some.inj hdel
    exact .cut p _
  | ret a w =>
    obtain rfl := Option.some.inj hdel
    exact .ret a _
  | @call o k w w' r tr out hr _ ih =>
    obtain ⟨mid, hmid, htail⟩ := Option.bind_eq_some_iff.mp hdel
    refine .call ⟨hr, by rw [hmid]; rfl⟩ ?_
    have hnext : Mincontainer.incoming.next (w, input) o r = (machine.next w o r, mid) := by
      simp only [Mincontainer.incoming, hmid, Option.getD_some]
    rw [hnext]
    exact ih htail
  | @env p w w₁ w' tr out hR _ ih =>
    have hstep : Besides R (w, input) (w₁, input) := ⟨hR, rfl⟩
    exact .env hstep (ih hdel)

end Hosts

/-- **The framing is exact.** Frames within the limits are always written; read back from what was
written, whatever follows, they come out as they were and in order, and what follows is left.
Conversely whatever is read as a frame is within the limits, and the bytes it took from the stream
are those that writing it produces. -/
theorem frames_exact :
    (∀ fs : List WireFrame, ∃ written : Bytes,
      (∀ r w, Wire.Ends (writeFrames fs) ⟨[], []⟩ r w ↔ r = .ok () ∧ w = ⟨[], written⟩) ∧
      ∀ rest r w, Wire.Ends (readFrames fs.length) ⟨written ++ rest, []⟩ r w ↔
        r = .ok (fs.map fun f => (f.kind, f.payload)) ∧ w = ⟨rest, []⟩) ∧
    ∀ (w w' : Wire) (t : FrameType) (payload : Bytes),
      Wire.Ends readFrame w (.ok (t, payload)) w' →
      ∃ f : WireFrame, f.kind = t ∧ f.payload = payload ∧ ∃ taken : Bytes,
        w.input = taken ++ w'.input ∧
        ∀ r w₁, Wire.Ends (writeFrame t payload) ⟨[], []⟩ r w₁ ↔ r = .ok () ∧ w₁ = ⟨[], taken⟩ := by
  refine ⟨fun fs => ⟨fs.flatMap WireFrame.bytes, fun r w => ?_, fun rest r w => readFrames_wire⟩, ?_⟩
  · have hwritten : Wire.Ends (writeFrames fs) ⟨[], []⟩ r w ↔ _ := writeFrames_wire
    simpa using hwritten
  · intro w w' t payload h
    obtain ⟨f, rfl, rfl, hinput, -⟩ := readFrame_took h
    refine ⟨f, rfl, rfl, f.bytes, hinput, fun r w₁ => ?_⟩
    have hwritten : Wire.Ends (writeFrame f.kind f.payload) ⟨[], []⟩ r w₁ ↔ _ :=
      writeFrame_wire f.length_lt
    simpa [WireFrame.bytes] using hwritten

/-- A chunk of two bytes, with one more byte behind it. -/
theorem frames_exact_demo :
    ∃ f : WireFrame, f.kind = .chunk ∧ f.payload = [0x68, 0x69] ∧ ∃ taken : Bytes,
      [3, 0, 0, 0, 2, 0x68, 0x69, 0xFF] = taken ++ [0xFF] ∧
      ∀ r w₁, Wire.Ends (writeFrame .chunk [0x68, 0x69]) ⟨[], []⟩ r w₁ ↔
        r = .ok () ∧ w₁ = ⟨[], taken⟩ := by
  have hread : Wire.Ends readFrame ⟨WireFrame.bytes ⟨.chunk, [0x68, 0x69], by decide⟩ ++ [0xFF], []⟩
      (.ok (.chunk, [0x68, 0x69])) ⟨[0xFF], []⟩ := readFrame_wire.mpr ⟨rfl, rfl⟩
  have hbytes : WireFrame.bytes ⟨.chunk, [0x68, 0x69], by decide⟩ ++ [0xFF] =
      [3, 0, 0, 0, 2, 0x68, 0x69, 0xFF] := by decide
  rw [hbytes] at hread
  exact frames_exact.2 _ _ _ _ hread

end Mincontainer
