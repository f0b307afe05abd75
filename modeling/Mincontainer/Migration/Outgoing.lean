import Mincontainer.Bytes.Delimited
import Mincontainer.Migration.Honest
import Mincontainer.Migration.Offline

set_option relaxedAutoImplicit false
set_option autoImplicit false

/-!
# What either side writes

The bytes that a source and its receiver write into the connection, wherever they stop: first parts of
frames in a certain order. The frames delimit themselves, so that whatever arrives of them tells what
was written: a receiver that got as far as the end frame got all of the source's file, and a source
that got a result got the one that the receiver wrote.

## Main definitions

* `Mincontainer.RawFrame` — a type and a payload.
* `Mincontainer.Pours` — a program writes certain bytes, or a first part of them.
* `Mincontainer.Transport.Offers`, `Mincontainer.Transport.Answers` — the frames of a source, and those of
  a receiver.
* `Mincontainer.Transport.TakenOver` — the receiver restored the container from a file.

## Main results

* `Mincontainer.RawFrame.delimits` — frames delimit themselves.
* `Mincontainer.Transport.sendSnapshot_frames`, `Mincontainer.Transport.handleOne_frames` — what either
  side writes.
* `Mincontainer.Transport.Offers.content` — whoever read up to the end frame read all of the content.
* `Mincontainer.Transport.Answers.result` — whoever read a result read the one that was written.
-/

namespace Mincontainer

open Effects Files Bytes Restore

/-! ### Frames delimit themselves -/

/-- The type and the payload of a frame. -/
abbrev RawFrame := FrameType × Bytes

namespace RawFrame

/-- The bytes of a frame. -/
def bytes (f : RawFrame) : Bytes := frame f.1 f.2

/-- Its length can be told. -/
def Fits (f : RawFrame) : Prop := f.2.length < 2 ^ 32

instance (f : RawFrame) : Decidable f.Fits := inferInstanceAs (Decidable (_ < _))

lemma delimits : Delimits bytes Fits where
  ne_nil _ := List.cons_ne_nil _ _
  inj := by
    rintro ⟨t, a⟩ ⟨t', b⟩ x y ha hb h
    have hcap : (2 : ℕ) ^ 32 = 256 ^ 4 := by decide
    have ha' : a.length < 256 ^ 4 := hcap ▸ ha
    have hb' : b.length < 256 ^ 4 := hcap ▸ hb
    simp only [bytes, frame, List.cons_append, List.append_assoc, List.cons.injEq] at h
    obtain ⟨htype, h⟩ := h
    have ht : t = t' := by
      have hfrom := congrArg FrameType.fromU8 htype
      rw [FrameType.fromU8_toU8, FrameType.fromU8_toU8] at hfrom
      exact Option.some.inj hfrom
    obtain ⟨hlen, hrest⟩ := List.append_inj h (by rw [length_toBE, length_toBE])
    have hab : a.length = b.length := by
      rw [← ofBE_toBE_of_lt ha', hlen, ofBE_toBE_of_lt hb']
    rw [ht, (List.append_inj hrest hab).1]

/-- The frame, if it can be written at all. -/
def writable (t : FrameType) (payload : Bytes) : List RawFrame :=
  if payload.length < 2 ^ 32 then [(t, payload)] else []

lemma fits_writable (t : FrameType) (payload : Bytes) : ∀ f ∈ writable t payload, f.Fits := by
  intro f hf
  unfold writable at hf
  split at hf
  · rwa [List.mem_singleton.mp hf]
  · cases hf

end RawFrame

/-! ### What a program writes -/

/-- Wherever it stops, the program wrote a first part of `data`; it wrote all of it if it returned. -/
def Pours {α : Type} (x : HostM α) (data : Bytes) : Prop :=
  ∀ (R : Host → Host → Prop) (h h' : Host) (tr : List HostSig.Event)
    (out : Option (Except RuntimeError α)), Runs R x h tr out h' →
    sent tr <+: data ∧ ∀ a, out = some (.ok a) → sent tr = data

namespace Pours

variable {α β : Type} {x : HostM α} {f : α → HostM β} {a b : Bytes}

lemma nothing (hx : x.run.Within fun o : HostOp => o.speaks = false) : Pours x [] := by
  intro R h h' tr out hrun
  rw [Runs.sent_nil hx hrun]
  exact ⟨List.prefix_rfl, fun _ _ => rfl⟩

lemma throw (e : RuntimeError) : Pours (throw e : HostM α) a := by
  intro R h h' tr out hrun
  obtain ⟨rfl, -, hout⟩ := Exec.ret_inv hrun
  refine ⟨List.nil_prefix, ?_⟩
  rintro v rfl
  rcases hout with hout | hout <;> cases hout

/-- One after the other. -/
lemma bind (hx : Pours x a) (hf : ∀ v, Pours (f v) b) : Pours (x >>= f) (a ++ b) := by
  intro R h h' tr out hrun
  rcases Exec.fallible_bind_inv hrun with ⟨rfl, h₁⟩ | ⟨e, rfl, h₁⟩ | ⟨v, tr₁, tr₂, g, rfl, h₁, h₂⟩
  · exact ⟨(hx _ _ _ _ _ h₁).1.trans (List.prefix_append _ _), fun _ hout => by cases hout⟩
  · exact ⟨(hx _ _ _ _ _ h₁).1.trans (List.prefix_append _ _), fun _ hout => by cases hout⟩
  · rw [sent_append, (hx _ _ _ _ _ h₁).2 v rfl]
    refine ⟨(List.prefix_append_right_inj a).mpr (hf v _ _ _ _ _ h₂).1, fun w hout => ?_⟩
    rw [(hf v _ _ _ _ _ h₂).2 w hout]

/-- What follows writes nothing. -/
lemma bind_nothing (hx : Pours x a) (hf : ∀ v, Pours (f v) []) : Pours (x >>= f) a := by
  have h := hx.bind hf
  rwa [List.append_nil] at h

end Pours

lemma pours_writeAll (data : Bytes) : Pours (writeAll data) data := by
  intro R h h' tr out hrun
  obtain ⟨g, -, ⟨rfl, rfl, -⟩ | ⟨r, tr', -, rfl, hrun'⟩⟩ := Exec.call_inv hrun
  · exact ⟨List.nil_prefix, fun _ hout => by cases hout⟩
  rcases r with ⟨k, e⟩ | u
  · obtain ⟨rfl, -, hout⟩ := Exec.ret_inv hrun'
    have hsent : sent [⟨.send data, (.error (k, e) : Except (ℕ × String) Unit)⟩] = data.take k := by
      simp [sent, puts]
    refine ⟨?_, ?_⟩
    · rw [hsent]
      exact List.take_prefix _ _
    · rintro v rfl
      rcases hout with hout | hout <;> cases hout
  · obtain ⟨rfl, -, -⟩ := Exec.ret_inv hrun'
    have hsent : sent [⟨.send data, (.ok u : Except (ℕ × String) Unit)⟩] = data := by
      simp [sent, puts]
    rw [hsent]
    exact ⟨List.prefix_rfl, fun _ _ => rfl⟩

lemma pours_writeFrame (t : FrameType) (payload : Bytes) :
    Pours (writeFrame t payload) ((RawFrame.writable t payload).flatMap RawFrame.bytes) := by
  unfold writeFrame RawFrame.writable
  split
  · rw [List.flatMap_singleton]
    exact (pours_writeAll _).bind fun _ => (pours_writeAll _).bind fun _ => pours_writeAll _
  · exact Pours.throw _

lemma pours_flush (what : String) : Pours (flush what) [] :=
  Pours.nothing (Fallible.within_bind ((within_sys .flush).mpr rfl) fun _ => within_orErr _ _)

namespace Transport

variable {env : Env} {codec : Codec Manifest} {proto : Protocol} {id target token : String}
  {snapshot : PathBuf} {R : Host → Host → Prop} {h h' : Host} {tr : List HostSig.Event}

lemma pours_sendChunks (chunks : List Bytes) (hfit : ∀ b ∈ chunks, b.length ≤ chunkSize) :
    Pours (sendChunks chunks) ((chunks.map (Prod.mk FrameType.chunk)).flatMap RawFrame.bytes) := by
  induction chunks with
  | nil => exact Pours.nothing trivial
  | cons b bs ih =>
    rw [List.forall_mem_cons] at hfit
    have hb : RawFrame.writable .chunk b = [(.chunk, b)] :=
      if_pos (lt_of_le_of_lt hfit.1 (by decide))
    have hwrite := pours_writeFrame .chunk b
    rw [hb, List.flatMap_singleton] at hwrite
    exact hwrite.bind fun _ => ih hfit.2

/-! ### The frames of the source -/

/-- The frames of a source: a hello, chunks, and perhaps an end frame, but then the chunks are all of
the content. -/
def Offers (content : Bytes) (fs : List RawFrame) : Prop :=
  ∃ (opening : Bytes) (chunks : List Bytes) (closing : List RawFrame),
    fs = RawFrame.writable .hello opening ++ (chunks.map (Prod.mk FrameType.chunk) ++ closing) ∧
    (∀ b ∈ chunks, b.length ≤ chunkSize) ∧
    (closing = [] ∨ (∃ last, closing = RawFrame.writable .eof last) ∧ chunks.flatten = content)

lemma fits_chunks {chunks : List Bytes} (hall : ∀ b ∈ chunks, b.length ≤ chunkSize) :
    ∀ f ∈ chunks.map (Prod.mk FrameType.chunk), RawFrame.Fits f := by
  intro f hf
  obtain ⟨b, hb, rfl⟩ := List.mem_map.mp hf
  exact lt_of_le_of_lt (hall b hb) (by decide)

lemma Offers.fits {content : Bytes} {fs : List RawFrame} (h : Offers content fs) :
    ∀ f ∈ fs, f.Fits := by
  obtain ⟨opening, chunks, closing, rfl, hall, hclosing⟩ := h
  intro f hf
  rcases List.mem_append.mp hf with hf | hf
  · exact RawFrame.fits_writable _ _ f hf
  rcases List.mem_append.mp hf with hf | hf
  · exact fits_chunks hall f hf
  · rcases hclosing with rfl | ⟨⟨last, rfl⟩, -⟩
    · cases hf
    · exact RawFrame.fits_writable _ _ f hf

/-- Chunks that are followed by an end frame are all the chunks.

**Proof sketch.** Induction on the chunks: a frame of one type is not one of another. -/
lemma chunks_complete {chunks chunks' : List Bytes} {closing : List RawFrame} {last : Bytes}
    (hclosing : closing = [] ∨ ∃ l, closing = RawFrame.writable .eof l)
    (h : chunks'.map (Prod.mk FrameType.chunk) ++ [(.eof, last)] <+:
      chunks.map (Prod.mk FrameType.chunk) ++ closing) : chunks' = chunks ∧ closing ≠ [] := by
  induction chunks' generalizing chunks with
  | nil =>
    cases chunks with
    | nil =>
      refine ⟨rfl, ?_⟩
      rintro rfl
      cases List.prefix_nil.mp h
    | cons c cs => cases (List.cons_prefix_cons.mp h).1
  | cons c' cs' ih =>
    cases chunks with
    | nil =>
      rcases hclosing with rfl | ⟨l, rfl⟩
      · cases List.prefix_nil.mp h
      · unfold RawFrame.writable at h
        split at h
        · cases (List.cons_prefix_cons.mp h).1
        · cases List.prefix_nil.mp h
    | cons c cs =>
      obtain ⟨heq, hrest⟩ := List.cons_prefix_cons.mp h
      obtain rfl : c' = c := congrArg Prod.snd heq
      obtain ⟨rfl, hne⟩ := ih hrest
      exact ⟨rfl, hne⟩

/-- **All of the content.** Whoever read up to the end frame read all of the content. -/
lemma Offers.content {content opening last : Bytes} {chunks : List Bytes} {fs : List RawFrame}
    (h : Offers content fs)
    (hread : (.hello, opening) :: (chunks.map (Prod.mk FrameType.chunk) ++ [(.eof, last)]) <+: fs) :
    chunks.flatten = content := by
  obtain ⟨opening', chunks', closing, rfl, -, hclosing⟩ := h
  unfold RawFrame.writable at hread
  split at hread
  · obtain ⟨-, hrest⟩ := List.cons_prefix_cons.mp hread
    obtain ⟨rfl, hne⟩ := chunks_complete (hclosing.imp id And.left) hrest
    rcases hclosing with rfl | ⟨-, hcontent⟩
    · exact absurd rfl hne
    · exact hcontent
  · cases chunks' with
    | nil =>
      rcases hclosing with rfl | ⟨⟨l, rfl⟩, -⟩
      · cases List.prefix_nil.mp hread
      · unfold RawFrame.writable at hread
        split at hread
        · cases (List.cons_prefix_cons.mp hread).1
        · cases List.prefix_nil.mp hread
    | cons c cs => cases (List.cons_prefix_cons.mp hread).1

/-- Wherever it stops, the program wrote a first part of one frame of type `t`; it wrote all of it if it
returned. -/
def PoursOne {α : Type} (t : FrameType) (x : HostM α) : Prop :=
  ∀ (R : Host → Host → Prop) (h h' : Host) (tr : List HostSig.Event)
    (out : Option (Except RuntimeError α)), Runs R x h tr out h' →
    ∃ payload, sent tr <+: (RawFrame.writable t payload).flatMap RawFrame.bytes ∧
      ∀ a, out = some (.ok a) → sent tr = (RawFrame.writable t payload).flatMap RawFrame.bytes

namespace PoursOne

variable {α β : Type} {t : FrameType} {x : HostM α} {f : α → HostM β}

lemma of_pours {payload : Bytes}
    (h : Pours x ((RawFrame.writable t payload).flatMap RawFrame.bytes)) : PoursOne t x :=
  fun R h₁ h₂ tr out hrun => ⟨payload, h R h₁ h₂ tr out hrun⟩

/-- What comes before writes nothing. -/
lemma after (hx : Pours x []) (hf : ∀ a, PoursOne t (f a)) : PoursOne t (x >>= f) := by
  intro R h h' tr out hrun
  rcases Exec.fallible_bind_inv hrun with ⟨rfl, h₁⟩ | ⟨e, rfl, h₁⟩ | ⟨v, tr₁, tr₂, g, rfl, h₁, h₂⟩
  · refine ⟨[], ?_, fun _ hout => by cases hout⟩
    rw [List.prefix_nil.mp (hx _ _ _ _ _ h₁).1]
    exact List.nil_prefix
  · refine ⟨[], ?_, fun _ hout => by cases hout⟩
    rw [List.prefix_nil.mp (hx _ _ _ _ _ h₁).1]
    exact List.nil_prefix
  · rw [sent_append, (hx _ _ _ _ _ h₁).2 v rfl, List.nil_append]
    exact hf v _ _ _ _ _ h₂

/-- What follows writes nothing. -/
lemma before (hx : PoursOne t x) (hf : ∀ a, Pours (f a) []) : PoursOne t (x >>= f) := by
  intro R h h' tr out hrun
  rcases Exec.fallible_bind_inv hrun with ⟨rfl, h₁⟩ | ⟨e, rfl, h₁⟩ | ⟨v, tr₁, tr₂, g, rfl, h₁, h₂⟩
  · obtain ⟨payload, hpart, -⟩ := hx _ _ _ _ _ h₁
    exact ⟨payload, hpart, fun _ hout => by cases hout⟩
  · obtain ⟨payload, hpart, -⟩ := hx _ _ _ _ _ h₁
    exact ⟨payload, hpart, fun _ hout => by cases hout⟩
  · obtain ⟨payload, hpart, hall⟩ := hx _ _ _ _ _ h₁
    have hnone : sent tr₂ = [] := List.prefix_nil.mp (hf v _ _ _ _ _ h₂).1
    rw [sent_append, hnone, List.append_nil]
    exact ⟨payload, hpart, fun _ _ => hall v rfl⟩

end PoursOne

lemma pours_readJson {α : Type} (expect : FrameType) (c : Codec α) : Pours (readJson proto expect c) [] :=
  Pours.nothing (within_readJson (fun _ => rfl) _ _)

/-- A source writes its hello before the handshake is accepted. -/
lemma announce_pours : PoursOne .hello (announce env proto id snapshot target token) := by
  have hcall (o : HostOp) (ho : o.speaks = false) : Pours (sys o) [] := Pours.nothing ((within_sys o).mpr ho)
  have herr {ε β : Type} (r : Except ε β) (f : ε → RuntimeError) : Pours (orErr r f) [] :=
    Pours.nothing (within_orErr r f)
  unfold announce
  refine PoursOne.after (Pours.nothing (within_resolveTarget (fun _ => rfl) _)) fun addr => ?_
  refine PoursOne.after (hcall (.openFile _) rfl) fun r => PoursOne.after (herr r _) fun fileLen => ?_
  refine PoursOne.after (Pours.nothing (Fallible.within_bind (within_readWhole
    (P := fun o => o.speaks = false) rfl rfl _ _) fun _ => trivial)) fun crc => ?_
  refine PoursOne.after (hcall (.connect _) rfl) fun r => PoursOne.after (herr r _) fun _ => ?_
  refine PoursOne.before ?_ fun _ => ?_
  · exact PoursOne.after (hcall .hostname rfl) fun here =>
      PoursOne.before (.of_pours (pours_writeFrame _ _)) fun _ => pours_flush _
  · exact Pours.nothing (Fallible.within_bind (within_awaitAck (fun _ => rfl) _) fun _ => trivial)

/-- **The stream.** A source writes chunks of its file, and an end frame only behind all of it.

**Proof sketch.** The frames are made of what the reads of the file returned, and the end frame is written
only when they came to its end. -/
lemma stream_frames {c : Content} {n : ℕ} {crc : UInt32} {out : Option (Except RuntimeError Unit)}
    (hk : Keeps R snapshot.path) (hc : h.file snapshot.path = some c)
    (hrun : Runs R (stream proto snapshot n crc) h tr out h') :
    ∃ (chunks : List Bytes) (closing : List RawFrame),
      sent tr <+: (chunks.map (Prod.mk FrameType.chunk) ++ closing).flatMap RawFrame.bytes ∧
      (∀ b ∈ chunks, b.length ≤ chunkSize) ∧
      (closing = [] ∨ (∃ last, closing = RawFrame.writable .eof last) ∧ chunks.flatten = c.raw) := by
  have hnone : ∀ {tr : List HostSig.Event}, sent tr = [] →
      ∃ (chunks : List Bytes) (closing : List RawFrame),
        sent tr <+: (chunks.map (Prod.mk FrameType.chunk) ++ closing).flatMap RawFrame.bytes ∧
        (∀ b ∈ chunks, b.length ≤ chunkSize) ∧
        (closing = [] ∨ (∃ last, closing = RawFrame.writable .eof last) ∧ chunks.flatten = c.raw) :=
    fun hsent => ⟨[], [], by rw [hsent]; exact List.nil_prefix, nofun, .inl rfl⟩
  obtain ⟨h₁, hR, ⟨rfl, -, -⟩ | ⟨r, tr₁, -, rfl, hrun₁⟩⟩ := Exec.call_inv hrun
  · exact hnone rfl
  rcases r with e | k
  · obtain ⟨rfl, -, -⟩ := Exec.ret_inv hrun₁
    exact hnone rfl
  obtain ⟨h₂, hR', ⟨rfl, -, -⟩ | ⟨⟨reads, err⟩, tr₂, hr, rfl, hrun₂⟩⟩ := Exec.call_inv hrun₁
  · exact hnone rfl
  have hsent : sent (⟨.openFile snapshot.path, (.ok k : Except String ℕ)⟩ ::
      ⟨.readAll snapshot.path, (reads, err)⟩ :: tr₂) = sent tr₂ := rfl
  rw [hsent]
  obtain ⟨hflat, hall⟩ := pieces_spec reads
  have hfit : ∀ b ∈ pieces reads, b.length ≤ chunkSize := fun b hb => (hall b hb).2
  have hchunks := pours_sendChunks (pieces reads) hfit
  cases err with
  | some e =>
    change Runs R (sendChunks (pieces reads) >>= fun _ => throw _) _ _ _ _ at hrun₂
    have hpours := (hchunks.bind_nothing fun _ => Pours.throw _) _ _ _ _ _ hrun₂
    refine ⟨pieces reads, [], ?_, hfit, .inl rfl⟩
    rw [List.append_nil]
    exact hpours.1
  | none =>
    have hfile : h₂.file snapshot.path = some c := by
      rw [hk.star hR']
      exact (hk.star hR).trans hc
    have hreads := Host.enabled_readAll hfile hr
    change Runs R (sendChunks (pieces reads) >>= fun _ =>
      if reads.flatten.length ≠ n then throw _
      else writeFrame .eof (proto.eof.encode ⟨reads.flatten.length, crc⟩) >>= fun _ =>
        flush "flush") _ _ _ _ at hrun₂
    refine ⟨pieces reads, RawFrame.writable .eof (proto.eof.encode ⟨reads.flatten.length, crc⟩), ?_, hfit,
      .inr ⟨⟨_, rfl⟩, hflat.trans hreads⟩⟩
    rw [List.flatMap_append]
    refine ((hchunks.bind fun _ => ?_) _ _ _ _ _ hrun₂).1
    split
    · exact Pours.throw _
    · exact (pours_writeFrame _ _).bind_nothing fun _ => pours_flush _

/-- **What a source writes**, wherever it stops. -/
lemma sendSnapshot_frames {c : Content} {out : Option (Except RuntimeError Transfer)}
    (hk : Keeps R snapshot.path) (hc : h.file snapshot.path = some c)
    (hrun : Runs R (sendSnapshot env proto id snapshot target token) h tr out h') :
    ∃ fs, Offers c.raw fs ∧ sent tr <+: fs.flatMap RawFrame.bytes := by
  rw [sendSnapshot_eq] at hrun
  have hstart : ∀ payload, Offers c.raw (RawFrame.writable .hello payload) := fun payload =>
    ⟨payload, [], [], by rw [List.map_nil, List.append_nil, List.append_nil], nofun, .inl rfl⟩
  rcases Exec.fallible_bind_inv hrun with ⟨-, h₁⟩ | ⟨e, -, h₁⟩ | ⟨x, tr₁, tr₂, g, rfl, h₁, h₂⟩
  · obtain ⟨payload, hpart, -⟩ := announce_pours _ _ _ _ _ h₁
    exact ⟨_, hstart payload, hpart⟩
  · obtain ⟨payload, hpart, -⟩ := announce_pours _ _ _ _ _ h₁
    exact ⟨_, hstart payload, hpart⟩
  obtain ⟨payload, -, hall⟩ := announce_pours _ _ _ _ _ h₁
  have hg : g.file snapshot.path = some c :=
    (Runs.file_kept_of_reads hk (announce_reads id snapshot target token) h₁).trans hc
  obtain ⟨tr₃, tr₄, htr, hsent, out', g', hstream⟩ : ∃ tr₃ tr₄, tr₂ = tr₃ ++ tr₄ ∧ sent tr₄ = [] ∧
      ∃ out' g', Runs R (stream proto snapshot x.1 x.2) g tr₃ out' g' := by
    rcases Exec.fallible_bind_inv h₂ with ⟨-, h₃⟩ | ⟨e, -, h₃⟩ | ⟨u, tr₃, tr₄, g₂, rfl, h₃, h₄⟩
    · exact ⟨tr₂, [], (List.append_nil _).symm, rfl, _, _, h₃⟩
    · exact ⟨tr₂, [], (List.append_nil _).symm, rfl, _, _, h₃⟩
    · refine ⟨tr₃, tr₄, rfl, Runs.sent_nil ?_ h₄, _, _, h₃⟩
      refine Fallible.within_bind (Fallible.within_bind (within_readJson (fun _ => rfl) _ _)
        fun result => ?_) fun _ => trivial
      split <;> exact trivial
  obtain ⟨chunks, closing, hpart, hfit, hclosing⟩ := stream_frames hk hg hstream
  refine ⟨_, ⟨payload, chunks, closing, rfl, hfit, hclosing⟩, ?_⟩
  rw [htr, sent_append, sent_append, hsent, List.append_nil, hall x rfl, List.flatMap_append]
  exact (List.prefix_append_right_inj _).mpr hpart

/-! ### The frames of the receiver -/

section Receiver

variable {fuel : ℕ} {index : UInt8} {hello : Hello}

lemma pours_answerHello (accept : Bool) (reason : String) :
    PoursOne .helloAck (answerHello env proto accept reason) :=
  PoursOne.after (Pours.nothing ((within_sys .hostname).mpr rfl)) fun _ =>
    .of_pours (pours_writeFrame _ _)

lemma greet_pours : PoursOne .helloAck (greet env proto token) := by
  have hflush : Pours (sys .flush) [] := Pours.nothing ((within_sys .flush).mpr rfl)
  have hrefuse (reason : String) : PoursOne .helloAck (refuse env proto reason : HostM Hello) :=
    PoursOne.before (pours_answerHello false reason) fun _ => hflush.bind_nothing fun _ => Pours.throw _
  rw [greet_eq]
  refine PoursOne.after (pours_readJson _ _) fun hello => ?_
  unfold welcome
  split
  · exact hrefuse _
  split
  · exact hrefuse _
  split
  · exact hrefuse _
  · exact PoursOne.before (pours_answerHello true "") fun _ =>
      (pours_flush _).bind_nothing fun _ => Pours.nothing trivial

/-- Wherever it stops, the program wrote a first part of an error frame, and nothing if it returned. -/
def Complains {α : Type} (x : HostM α) : Prop :=
  ∀ (R : Host → Host → Prop) (h h' : Host) (tr : List HostSig.Event)
    (out : Option (Except RuntimeError α)), Runs R x h tr out h' →
    (∃ payload, sent tr <+: (RawFrame.writable .error payload).flatMap RawFrame.bytes) ∧
      ∀ a, out = some (.ok a) → sent tr = []

namespace Complains

variable {α β : Type} {x : HostM α} {f : α → HostM β}

lemma nothing (hx : Pours x []) : Complains x := by
  intro R h h' tr out hrun
  have hsent := List.prefix_nil.mp (hx _ _ _ _ _ hrun).1
  rw [hsent]
  exact ⟨⟨[], List.nil_prefix⟩, fun _ _ => rfl⟩

lemma bind (hx : Complains x) (hf : ∀ a, Complains (f a)) : Complains (x >>= f) := by
  intro R h h' tr out hrun
  rcases Exec.fallible_bind_inv hrun with ⟨rfl, h₁⟩ | ⟨e, rfl, h₁⟩ | ⟨v, tr₁, tr₂, g, rfl, h₁, h₂⟩
  · exact ⟨(hx _ _ _ _ _ h₁).1, fun _ hout => by cases hout⟩
  · exact ⟨(hx _ _ _ _ _ h₁).1, fun _ hout => by cases hout⟩
  · rw [sent_append, (hx _ _ _ _ _ h₁).2 v rfl, List.nil_append]
    exact hf v _ _ _ _ _ h₂

/-- A complaint, and then the error. -/
lemma complain {e : RuntimeError} (hx : PoursOne .error x) : Complains (x >>= fun _ => throw e : HostM β) := by
  intro R h h' tr out hrun
  rcases Exec.fallible_bind_inv hrun with ⟨rfl, h₁⟩ | ⟨e', rfl, h₁⟩ | ⟨v, tr₁, tr₂, g, rfl, h₁, h₂⟩
  · obtain ⟨payload, hpart, -⟩ := hx _ _ _ _ _ h₁
    exact ⟨⟨payload, hpart⟩, fun _ hout => by cases hout⟩
  · obtain ⟨payload, hpart, -⟩ := hx _ _ _ _ _ h₁
    exact ⟨⟨payload, hpart⟩, fun _ hout => by cases hout⟩
  · obtain ⟨payload, hpart, -⟩ := hx _ _ _ _ _ h₁
    obtain ⟨rfl, -, hout⟩ := Exec.ret_inv h₂
    rw [List.append_nil]
    refine ⟨⟨payload, hpart⟩, ?_⟩
    rintro w rfl
    rcases hout with hout | hout <;> cases hout

end Complains

lemma checkEof_complains {part : PathBuf} {n len : ℕ} {crc : Crc32} :
    Complains (checkEof proto part hello n crc len) := by
  have hmute (o : HostOp) (ho : o.speaks = false) : Complains (sys o) :=
    .nothing (Pours.nothing ((within_sys o).mpr ho))
  refine Complains.bind (.nothing (Pours.nothing (within_readPayload (fun _ => rfl) _))) fun body => ?_
  refine Complains.bind (.nothing (Pours.nothing ?_)) fun eof => ?_
  · split <;> exact trivial
  refine Complains.bind (.nothing (Pours.nothing ((within_appendTo _ _ _).mpr rfl))) fun _ => ?_
  dsimp only
  split
  · refine Complains.bind (hmute (.removeFile _) rfl) fun _ => ?_
    rw [← bind_assoc]
    refine Complains.complain (PoursOne.before (.of_pours (pours_writeFrame _ _)) fun _ => ?_)
    exact Pours.nothing ((within_sys .flush).mpr rfl)
  · exact .nothing (Pours.nothing trivial)

lemma receiveFile_complains : Complains (receiveFile env proto fuel hello) := by
  have hloop (part : PathBuf) (n : ℕ) (crc : Crc32) : Complains (receive proto part hello fuel n crc) := by
    induction fuel generalizing n crc with
    | zero => exact .nothing (Pours.nothing ⟨rfl, fun r => nomatch (r : Empty)⟩)
    | succ fuel ih =>
      have hremove (e : RuntimeError) : Complains (sys (.removeFile part.path) >>= fun _ => throw e : HostM Unit) :=
        .nothing (Pours.nothing (Fallible.within_bind ((within_sys (.removeFile _)).mpr rfl) fun _ => trivial))
      refine Complains.bind (.nothing (Pours.nothing (within_readHeader fun _ => rfl))) fun x => ?_
      dsimp only
      split
      · refine Complains.bind (.nothing (Pours.nothing (within_readPayload (fun _ => rfl) _)))
          fun body => ?_
        refine Complains.bind (.nothing (Pours.nothing ((within_appendTo _ _ _).mpr rfl))) fun _ => ?_
        split
        · exact hremove _
        · exact ih _ _
      · exact checkEof_complains
      · exact hremove _
  refine Complains.bind (.nothing (Pours.nothing ((within_mkdirAll _ _).mpr rfl))) fun _ => ?_
  refine Complains.bind (.nothing (Pours.nothing ((within_createFile _ _).mpr rfl))) fun _ => ?_
  refine Complains.bind (hloop _ _ _) fun _ => .nothing (Pours.nothing ?_)
  exact Fallible.within_bind ((within_sys (.rename _ _)).mpr rfl) fun _ =>
    Fallible.within_bind (within_orErr _ _) fun _ => trivial

/-- The result that is sent for an outcome. -/
def resultOf (here : String) (hello : Hello) : Except RuntimeError Restore.Report → MigrateResult
  | .ok rep => ⟨true, rep.id, rep.pid, rep.generation, rep.containerIp, s!"restored on {here}"⟩
  | .error e => ⟨false, hello.containerId, 0, 0, none, e.display⟩

lemma answer_frames {outcome : Except RuntimeError Restore.Report}
    {out : Option (Except RuntimeError String)} (hrun : Runs R (answer proto hello outcome) h tr out h') :
    ∃ here, sent tr <+: (RawFrame.writable .result
      (proto.result.encode (resultOf here hello outcome))).flatMap RawFrame.bytes := by
  have hflush : Pours (sys .flush) [] := Pours.nothing ((within_sys .flush).mpr rfl)
  cases outcome with
  | ok rep =>
    obtain ⟨g, -, ⟨rfl, -, -⟩ | ⟨here, tr', -, rfl, hrun'⟩⟩ := Exec.call_inv hrun
    · exact ⟨"", List.nil_prefix⟩
    · have hpours := ((pours_writeFrame .result (proto.result.encode (resultOf here hello (.ok rep)))).bind_nothing
        fun _ => hflush.bind_nothing fun _ => Pours.nothing (α := String) (x := pure rep.id) trivial)
        _ _ _ _ _ hrun'
      exact ⟨here, hpours.1⟩
  | error e =>
    have hpours := ((pours_writeFrame .result (proto.result.encode (resultOf "" hello (.error e)))).bind_nothing
      fun _ => hflush.bind_nothing fun _ => Pours.throw (α := String) e) _ _ _ _ _ hrun
    exact ⟨"", hpours.1⟩

/-! ### The receiver, from hello to result -/

/-- The frames that a receiver read by the time the file is committed: they make up the file. -/
lemma arrive_took {x : Hello × PathBuf} (hrun : Runs R (arrive env proto fuel token) h tr (some (.ok x)) h') :
    x.2 = finalFile env x.1 ∧ ∃ (opening last : Bytes) (chunks : List Bytes),
      received tr = ((.hello, opening) :: (chunks.map (Prod.mk FrameType.chunk) ++
        [(.eof, last)])).flatMap RawFrame.bytes ∧
      (∀ f ∈ (.hello, opening) :: (chunks.map (Prod.mk FrameType.chunk) ++ [(.eof, last)]),
        RawFrame.Fits f) ∧
      (Keeps R (partFile env x.1).path → Keeps R x.2.path →
        h'.file x.2.path = some (.bytes chunks.flatten)) := by
  obtain ⟨hello, tr₁, tr₂, g, rfl, hgreet, hrun₁⟩ := Exec.fallible_bind_ok hrun
  obtain ⟨final, tr₃, tr₄, g₁, rfl, hfile, hrun₂⟩ := Exec.fallible_bind_ok hrun₁
  obtain ⟨rfl, hR, hres⟩ := Exec.ret_some_inv hrun₂
  obtain rfl := Except.ok.inj hres
  obtain ⟨-, -, -, opening, hopening, hlen, -⟩ := greet_opens hgreet
  obtain ⟨rfl, chunks, last, eof, hreceived, hall, -, -, -, -, -, hcommit⟩ := receiveFile_frames hfile
  rw [List.forall_mem_cons] at hall
  have hcap : 4 * 1024 * 1024 < 2 ^ 32 := by decide
  refine ⟨rfl, opening, last, chunks, ?_, ?_, fun hpart hfinal => ?_⟩
  · rw [received_append, received_append, received_nil, List.append_nil, hopening, hreceived]
    rw [List.flatMap_cons, List.flatMap_append, List.flatMap_singleton, List.flatMap_map]
    rfl
  · rw [List.forall_mem_cons, List.forall_mem_append, List.forall_mem_singleton]
    refine ⟨lt_of_le_of_lt hlen hcap, ?_, lt_of_le_of_lt hall.1 hcap⟩
    intro f hf
    obtain ⟨b, hb, rfl⟩ := List.mem_map.mp hf
    exact lt_of_le_of_lt (hall.2 b hb) hcap
  · rw [hfinal.star hR]
    exact hcommit hpart hfinal

/-- **All of the content.** If what a receiver reads are frames of a source, then the file that it commits
is all of the source's. -/
lemma arrive_whole {content : Bytes} {offered : List RawFrame} {x : Hello × PathBuf}
    (hoffers : Offers content offered) (hreads : received tr <+: offered.flatMap RawFrame.bytes)
    (hrun : Runs R (arrive env proto fuel token) h tr (some (.ok x)) h') :
    x.2 = finalFile env x.1 ∧ (Keeps R (partFile env x.1).path → Keeps R x.2.path →
      h'.file x.2.path = some (.bytes content)) := by
  obtain ⟨hfinal, opening, last, chunks, hreceived, hfits, hfile⟩ := arrive_took hrun
  rw [hreceived] at hreads
  rw [← hoffers.content (RawFrame.delimits.words hfits hoffers.fits hreads)]
  exact ⟨hfinal, hfile⟩

/-- What a receiver writes until the file is committed: its acknowledgement, and perhaps a complaint. -/
lemma arrive_frames {out : Option (Except RuntimeError (Hello × PathBuf))}
    (hrun : Runs R (arrive env proto fuel token) h tr out h') :
    ∃ (ack : Bytes) (closing : List RawFrame),
      (closing = [] ∨ ∃ e, closing = RawFrame.writable .error e) ∧
      sent tr <+: (RawFrame.writable .helloAck ack ++ closing).flatMap RawFrame.bytes ∧
      ∀ x, out = some (.ok x) → sent tr = (RawFrame.writable .helloAck ack).flatMap RawFrame.bytes := by
  rcases Exec.fallible_bind_inv hrun with ⟨rfl, h₁⟩ | ⟨e, rfl, h₁⟩ | ⟨hello, tr₁, tr₂, g, rfl, h₁, h₂⟩
  · obtain ⟨ack, hpart, -⟩ := greet_pours _ _ _ _ _ h₁
    refine ⟨ack, [], .inl rfl, ?_, fun _ hout => by cases hout⟩
    rw [List.append_nil]
    exact hpart
  · obtain ⟨ack, hpart, -⟩ := greet_pours _ _ _ _ _ h₁
    refine ⟨ack, [], .inl rfl, ?_, fun _ hout => by cases hout⟩
    rw [List.append_nil]
    exact hpart
  obtain ⟨ack, -, hall⟩ := greet_pours _ _ _ _ _ h₁
  have hcomplains : Complains (receiveFile env proto fuel hello >>= fun final =>
      (pure (hello, final) : HostM (Hello × PathBuf))) :=
    receiveFile_complains.bind fun _ => .nothing (Pours.nothing trivial)
  obtain ⟨⟨e, hpart⟩, hquiet⟩ := hcomplains _ _ _ _ _ h₂
  refine ⟨ack, RawFrame.writable .error e, .inr ⟨e, rfl⟩, ?_, fun x hout => ?_⟩
  · rw [sent_append, hall hello rfl, List.flatMap_append]
    exact (List.prefix_append_right_inj _).mpr hpart
  · rw [sent_append, hall hello rfl, hquiet x hout, List.append_nil]

/-- **The takeover.** The receiver committed a file with this content, and then restored the container
from it. -/
def TakenOver (R : Host → Host → Prop) (env : Env) (codec : Codec Manifest) (proto : Protocol)
    (fuel : Nat) (token : String) (index : UInt8) (h : Host) (tr : List HostSig.Event)
    (content : Bytes) (rep : Restore.Report) : Prop :=
  ∃ hello tr₁ tr₂ tr₃ g g', tr = tr₁ ++ (tr₂ ++ tr₃) ∧
    Runs R (arrive env proto fuel token) h tr₁ (some (.ok (hello, finalFile env hello))) g ∧
    (Keeps R (partFile env hello).path → Keeps R (finalFile env hello).path →
      g.file (finalFile env hello).path = some (.bytes content)) ∧
    Runs R (adoptAndRestore env codec (finalFile env hello) index) g tr₂ (some (.ok rep)) g'

/-- The frames of a receiver: it acknowledges the hello, and then it may complain or tell a result. A
result that tells of a restore is of one that happened. -/
def Answers (proto : Protocol) (Restored : Restore.Report → Prop) (fs : List RawFrame) : Prop :=
  ∃ (ack : Bytes) (closing : List RawFrame), fs = RawFrame.writable .helloAck ack ++ closing ∧
    (closing = [] ∨ (∃ e, closing = RawFrame.writable .error e) ∨
      ∃ m, closing = RawFrame.writable .result (proto.result.encode m) ∧
        (m.ok = true → ∃ here hello rep, m = resultOf here hello (.ok rep) ∧ Restored rep))

lemma Answers.fits {Restored : Restore.Report → Prop} {fs : List RawFrame} (ha : Answers proto Restored fs) :
    ∀ f ∈ fs, f.Fits := by
  obtain ⟨ack, closing, rfl, hclosing⟩ := ha
  intro f hf
  rcases List.mem_append.mp hf with hf | hf
  · exact RawFrame.fits_writable _ _ f hf
  · rcases hclosing with rfl | ⟨e, rfl⟩ | ⟨m, rfl, -⟩
    · cases hf
    · exact RawFrame.fits_writable _ _ f hf
    · exact RawFrame.fits_writable _ _ f hf

/-- **The result.** Whoever read a result read the one that was written. -/
lemma Answers.result {Restored : Restore.Report → Prop} {ack b : Bytes} {fs : List RawFrame}
    (ha : Answers proto Restored fs) (hread : [(.helloAck, ack), (.result, b)] <+: fs) :
    ∃ m, b = proto.result.encode m ∧
      (m.ok = true → ∃ here hello rep, m = resultOf here hello (.ok rep) ∧ Restored rep) := by
  have hshort : ∀ {t : FrameType} {p : Bytes}, [(.helloAck, ack), (.result, b)] <+: RawFrame.writable t p →
      False := fun {t p} hp => by
    have hlen := hp.length_le
    have hone : (RawFrame.writable t p).length ≤ 1 := by
      unfold RawFrame.writable
      split <;> simp
    exact absurd (hlen.trans hone) (by simp)
  obtain ⟨ack', closing, rfl, hclosing⟩ := ha
  unfold RawFrame.writable at hread
  split at hread
  · -- the acknowledgement, and what follows it
    obtain ⟨-, hrest⟩ := List.cons_prefix_cons.mp hread
    change _ <+: closing at hrest
    rcases hclosing with rfl | ⟨e, rfl⟩ | ⟨m, rfl, hm⟩
    · cases List.prefix_nil.mp hrest
    · unfold RawFrame.writable at hrest
      split at hrest
      · cases (List.cons_prefix_cons.mp hrest).1
      · cases List.prefix_nil.mp hrest
    · unfold RawFrame.writable at hrest
      split at hrest
      · exact ⟨m, congrArg Prod.snd (List.cons_prefix_cons.mp hrest).1, hm⟩
      · cases List.prefix_nil.mp hrest
  · rw [List.nil_append] at hread
    rcases hclosing with rfl | ⟨e, rfl⟩ | ⟨m, rfl, -⟩
    · cases List.prefix_nil.mp hread
    · exact (hshort hread).elim
    · exact (hshort hread).elim

/-- Bringing a committed file to life does not use the connection. -/
lemma adoptAndRestore_offline {codec : Codec Manifest} {final : PathBuf} :
    Offline (adoptAndRestore env codec final index) :=
  Fallible.within_bind adoptSnapshot_offline fun _ => restore_offline

/-- **What a receiver writes**, wherever it stops, if what it reads are frames of a source.

**Proof sketch.** Up to the commit it writes its acknowledgement, and perhaps a complaint if it does not
get there; the adoption and the restore write nothing, and the answer tells how they ended. -/
lemma handleOne_frames {codec : Codec Manifest} {content : Bytes} {offered : List RawFrame}
    {out : Option (Except RuntimeError String)} (hoffers : Offers content offered)
    (hreads : received tr <+: offered.flatMap RawFrame.bytes)
    (hrun : Runs R (handleOne env codec proto fuel token index) h tr out h') :
    ∃ fs, Answers proto (TakenOver R env codec proto fuel token index h tr content) fs ∧
      sent tr <+: fs.flatMap RawFrame.bytes := by
  rw [handleOne_eq] at hrun
  have hearly : ∀ {tr' : List HostSig.Event} {o : Option (Except RuntimeError (Hello × PathBuf))},
      Runs R (arrive env proto fuel token) h tr' o h' →
      ∃ fs, Answers proto (TakenOver R env codec proto fuel token index h tr' content) fs ∧
        sent tr' <+: fs.flatMap RawFrame.bytes := fun hrun' => by
    obtain ⟨ack, closing, hclosing, hpart, -⟩ := arrive_frames hrun'
    exact ⟨_, ⟨ack, closing, rfl, hclosing.imp id .inl⟩, hpart⟩
  rcases Exec.fallible_bind_inv hrun with ⟨-, h₁⟩ | ⟨e, -, h₁⟩ | ⟨x, tr₁, tr₂, g, rfl, h₁, h₂⟩
  · exact hearly h₁
  · exact hearly h₁
  rw [received_append] at hreads
  obtain ⟨hfinal, hfile⟩ := arrive_whole hoffers ((List.prefix_append _ _).trans hreads) h₁
  obtain ⟨ack, -, -, -, hsent⟩ := arrive_frames h₁
  have hquiet : ∀ {t : List HostSig.Event} {o : Option (Except RuntimeError Restore.Report)} {w w' : Host},
      Runs R (adoptAndRestore env codec x.2 index) w t o w' → sent t = [] := fun hr =>
    Offline.sent adoptAndRestore_offline hr
  have hack : ∀ {t : List HostSig.Event}, sent t = [] →
      ∃ fs, Answers proto (TakenOver R env codec proto fuel token index h (tr₁ ++ t) content) fs ∧
        sent (tr₁ ++ t) <+: fs.flatMap RawFrame.bytes := fun {t} ht => by
    refine ⟨RawFrame.writable .helloAck ack ++ [], ⟨ack, [], rfl, .inl rfl⟩, ?_⟩
    rw [sent_append, ht, hsent x rfl, List.append_nil, List.append_nil]
  rcases Exec.fallible_bind_inv h₂ with ⟨-, h₃⟩ | ⟨e, -, h₃⟩ | ⟨outcome, tr₃, tr₄, g₁, rfl, h₃, h₄⟩
  · rcases Exec.attempt_inv h₃ with ⟨-, h₅⟩ | ⟨r, hr, -⟩
    · exact hack (hquiet h₅)
    · cases hr
  · rcases Exec.attempt_inv h₃ with ⟨hr, -⟩ | ⟨r, hr, h₅⟩
    · cases hr
    · exact hack (hquiet h₅)
  rcases Exec.attempt_inv h₃ with ⟨hr, -⟩ | ⟨r, hr, h₅⟩
  · cases hr
  obtain rfl : outcome = r := Except.ok.inj (Option.some.inj hr)
  obtain ⟨here, hpart⟩ := answer_frames h₄
  refine ⟨_, ⟨ack, _, rfl, .inr (.inr ⟨resultOf here x.1 outcome, rfl, fun hok => ?_⟩)⟩, ?_⟩
  · cases outcome with
    | error e => cases hok
    | ok rep =>
      obtain ⟨hello, final⟩ := x
      change final = finalFile env hello at hfinal
      subst hfinal
      exact ⟨here, hello, rep, rfl, hello, tr₁, tr₃, tr₄, g, g₁, rfl, h₁, hfile, h₅⟩
  · rw [sent_append, sent_append, hsent x rfl, hquiet h₅, List.nil_append, List.flatMap_append]
    exact (List.prefix_append_right_inj _).mpr hpart

end Receiver

/-! ### What a source reads -/

/-- What comes before reads nothing. -/
lemma received_after {α β : Type} {x : HostM α} {f : α → HostM β} {b : β}
    (hx : x.run.Within fun o : HostOp => o.hears = false) (hrun : Runs R (x >>= f) h tr (some (.ok b)) h') :
    ∃ a tr' g, received tr = received tr' ∧ Runs R (f a) g tr' (some (.ok b)) h' := by
  obtain ⟨a, tr₁, tr₂, g, rfl, h₁, h₂⟩ := Exec.fallible_bind_ok hrun
  refine ⟨a, tr₂, g, ?_, h₂⟩
  rw [received_append, Runs.received_nil hx h₁, List.nil_append]

/-- A JSON frame that was accepted. -/
lemma readJson_frame {α : Type} {t : FrameType} {c : Codec α} {a : α}
    (hrun : Runs R (readJson proto t c) h tr (some (.ok a)) h') :
    ∃ b, received tr = RawFrame.bytes (t, b) ∧ RawFrame.Fits (t, b) ∧ c.decode b = .ok a := by
  obtain ⟨b, hb, hlen, hdec⟩ := readJson_received hrun
  exact ⟨b, hb, lt_of_le_of_lt hlen (by decide), hdec⟩

/-- The handshake takes one acknowledgement. -/
lemma announce_received {x : ℕ × UInt32}
    (hrun : Runs R (announce env proto id snapshot target token) h tr (some (.ok x)) h') :
    ∃ ack, received tr = RawFrame.bytes (.helloAck, ack) ∧ RawFrame.Fits (.helloAck, ack) := by
  have hcall (o : HostOp) (ho : o.hears = false) : (sys o).run.Within fun o : HostOp => o.hears = false :=
    (within_sys o).mpr ho
  have hsay (n : ℕ) (crc : UInt32) : (sayHello env proto id token n crc).run.Within
      fun o : HostOp => o.hears = false := by
    refine Fallible.within_bind (hcall .hostname rfl) fun here => ?_
    refine Fallible.within_bind (within_writeFrame (fun _ => rfl) _ _) fun _ => ?_
    exact Fallible.within_bind (hcall .flush rfl) fun _ => within_orErr _ _
  obtain ⟨addr, tr₁, h₁, heq₁, hrun₁⟩ := received_after (within_resolveTarget (fun _ => rfl) _) hrun
  obtain ⟨r, tr₂, h₂, heq₂, hrun₂⟩ := received_after (hcall (.openFile _) rfl) hrun₁
  obtain ⟨n, tr₃, h₃, heq₃, hrun₃⟩ := received_after (within_orErr _ _) hrun₂
  have hcrc : (crcOfFile snapshot).run.Within fun o : HostOp => o.hears = false := by
    refine Fallible.within_bind (within_readWhole ?_ ?_ _ _) fun _ => trivial <;> rfl
  obtain ⟨crc, tr₄, h₄, heq₄, hrun₄⟩ := received_after hcrc hrun₃
  obtain ⟨r', tr₅, h₅, heq₅, hrun₅⟩ := received_after (hcall (.connect _) rfl) hrun₄
  obtain ⟨u, tr₆, h₆, heq₆, hrun₆⟩ := received_after (within_orErr _ _) hrun₅
  obtain ⟨u', tr₇, h₇, heq₇, hrun₇⟩ := received_after (hsay n crc) hrun₆
  change Runs R (awaitAck env proto target >>= fun _ => pure (n, crc)) _ _ _ _ at hrun₇
  obtain ⟨v, t₁, t₂, h₈, rfl, hawait, hret⟩ := Exec.fallible_bind_ok hrun₇
  obtain ⟨rfl, -, -⟩ := Exec.ret_some_inv hret
  obtain ⟨ack, t₃, t₄, h₉, rfl, hack, hrest⟩ := Exec.fallible_bind_ok hawait
  obtain ⟨b, hb, hfits, -⟩ := readJson_frame hack
  have hdone : received t₄ = [] := by
    refine Runs.received_nil (h := h₉) ?_ hrest
    split
    · exact trivial
    · split <;> exact trivial
  refine ⟨b, ?_, hfits⟩
  rw [heq₁, heq₂, heq₃, heq₄, heq₅, heq₆, heq₇, List.append_nil, received_append, hdone, List.append_nil, hb]

/-- The stream reads nothing from the receiver. -/
lemma stream_deaf {n : ℕ} {crc : UInt32} :
    (stream proto snapshot n crc).run.Within fun o : HostOp => o.hears = false := by
  have hchunks (chunks : List Bytes) : (sendChunks chunks).run.Within fun o : HostOp => o.hears = false := by
    induction chunks with
    | nil => exact trivial
    | cons b bs ih => exact Fallible.within_bind (within_writeFrame (fun _ => rfl) _ _) fun _ => ih
  refine Fallible.within_bind ((within_sys (.openFile _)).mpr rfl) fun _ => ?_
  refine Fallible.within_bind (within_orErr _ _) fun _ => ?_
  refine Fallible.within_bind ((within_sys (.readAll _)).mpr rfl) fun r => ?_
  refine Fallible.within_bind (hchunks _) fun _ => ?_
  split
  · exact trivial
  · dsimp only
    split
    · exact trivial
    · exact Fallible.within_bind (within_writeFrame (fun _ => rfl) _ _) fun _ =>
        Fallible.within_bind ((within_sys .flush).mpr rfl) fun _ => within_orErr _ _

/-- **What a source reads** by the time its transfer is done: an acknowledgement, and a result that tells
of a restore. -/
lemma sendSnapshot_received {tx : Transfer}
    (hrun : Runs R (sendSnapshot env proto id snapshot target token) h tr (some (.ok tx)) h') :
    ∃ ack b, received tr = [(FrameType.helloAck, ack), (FrameType.result, b)].flatMap RawFrame.bytes ∧
      (∀ f ∈ [(FrameType.helloAck, ack), (FrameType.result, b)], RawFrame.Fits f) ∧
      proto.result.decode b = .ok tx.result ∧ tx.result.ok = true := by
  rw [sendSnapshot_eq] at hrun
  obtain ⟨x, tr₁, tr₂, g, rfl, h₁, h₂⟩ := Exec.fallible_bind_ok hrun
  obtain ⟨ack, hack, hfits⟩ := announce_received h₁
  obtain ⟨u, tr₃, g₁, heq, hrun₁⟩ := received_after stream_deaf h₂
  obtain ⟨m, tr₄, tr₅, g₂, rfl, hawait, hret⟩ := Exec.fallible_bind_ok hrun₁
  obtain ⟨rfl, -, hres⟩ := Exec.ret_some_inv hret
  obtain rfl := Except.ok.inj hres
  obtain ⟨m', tr₆, tr₇, g₃, rfl, hread, hrest⟩ := Exec.fallible_bind_ok hawait
  obtain ⟨b, hb, hfits', hdec⟩ := readJson_frame hread
  have hdone : tr₇ = [] ∧ m' = m ∧ m.ok = true := by
    split at hrest
    · exact (Exec.throw_ok_false hrest).elim
    · obtain ⟨rfl, -, hres⟩ := Exec.ret_some_inv hrest
      obtain rfl := Except.ok.inj hres
      exact ⟨rfl, rfl, by simp_all⟩
  obtain ⟨rfl, rfl, hok⟩ := hdone
  refine ⟨ack, b, ?_, ?_, hdec, hok⟩
  · rw [received_append, hack, heq, List.append_nil, List.append_nil, hb]
    rw [List.flatMap_cons, List.flatMap_singleton]
  · rw [List.forall_mem_cons, List.forall_mem_singleton]
    exact ⟨hfits, hfits'⟩

/-- Without a file there is nothing to send. -/
lemma sendSnapshot_unread {out : Option (Except RuntimeError Transfer)} (hk : Keeps R snapshot.path)
    (hc : h.file snapshot.path = none)
    (hrun : Runs R (sendSnapshot env proto id snapshot target token) h tr out h') :
    sent tr = [] ∧ ∀ tx, out ≠ some (.ok tx) := by
  have hresolve {t : List HostSig.Event} {o : Option (Except RuntimeError String)} {g : Host}
      (hr : Runs R (resolveTarget target) h t o g) : sent t = [] ∧ g.file snapshot.path = none :=
    ⟨Runs.sent_nil (within_resolveTarget (fun _ => rfl) _) hr,
      (Runs.file_kept_of_reads hk (within_resolveTarget (fun _ => rfl) _) hr).trans hc⟩
  rcases Exec.fallible_bind_inv hrun with ⟨rfl, h₁⟩ | ⟨e, rfl, h₁⟩ | ⟨addr, tr₁, tr₂, g, rfl, h₁, h₂⟩
  · exact ⟨(hresolve h₁).1, nofun⟩
  · exact ⟨(hresolve h₁).1, nofun⟩
  obtain ⟨hsent, hnone⟩ := hresolve h₁
  rw [sent_append, hsent, List.nil_append]
  obtain ⟨g₁, hR, ⟨rfl, rfl, -⟩ | ⟨r, tr₃, hr, rfl, hrun₁⟩⟩ := Exec.call_inv h₂
  · exact ⟨rfl, nofun⟩
  rcases r with e | n
  · obtain ⟨rfl, -, hout⟩ := Exec.ret_inv hrun₁
    refine ⟨rfl, ?_⟩
    rintro tx rfl
    rcases hout with hout | hout <;> cases hout
  · have hopen := Host.enabled_openFile.mp hr
    rw [hk.star hR, hnone] at hopen
    cases hopen

end Transport

end Mincontainer
