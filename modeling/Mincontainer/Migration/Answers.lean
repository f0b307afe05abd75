import Mincontainer.Migration.Handover

set_option relaxedAutoImplicit false
set_option autoImplicit false

/-!
# A transfer that fails

When a transfer fails, the operator of the source is told that the container was not handed over. The
receiver may have restored it all the same; but then it is the connection that failed, under the answer or
shortly before it.

## Main definitions

* `Mincontainer.HostOp.online` — the call uses the connection.
* `Mincontainer.Transport.Answered` — the receiver went on to answer.

## Main results

* `Mincontainer.Transport.sendSnapshot_error` — how a transfer can fail.
* `Mincontainer.Migrate.answer_lost` — a transfer that fails although the container was restored failed on
  the connection.
-/

namespace Mincontainer

open Effects Files Bytes Transport

/-- The call uses the connection. -/
def HostOp.online (o : HostOp) : Bool := o.speaks || o.hears || match o with
  | .flush => true
  | _ => false

namespace Transport

variable {env : Env} {codec : Codec Manifest} {proto : Protocol} {id target token : String}
  {snapshot : PathBuf} {R : Host → Host → Prop} {h h' : Host} {tr : List HostSig.Event}

/-- The stream fails before it writes its end frame, or on the connection. -/
lemma stream_error {n : ℕ} {crc : UInt32} {e : RuntimeError}
    (hrun : Runs R (stream proto snapshot n crc) h tr (some (.error e)) h') :
    (∃ ev ∈ tr, failed ev = true ∧ ev.1.online = true) ∨
    ∃ chunks : List Bytes, (∀ b ∈ chunks, b.length ≤ chunkSize) ∧
      sent tr <+: (chunks.map (Prod.mk FrameType.chunk)).flatMap RawFrame.bytes := by
  have hnone : ∀ {t : List HostSig.Event}, sent t = [] → ∃ chunks : List Bytes,
      (∀ b ∈ chunks, b.length ≤ chunkSize) ∧
        sent t <+: (chunks.map (Prod.mk FrameType.chunk)).flatMap RawFrame.bytes := fun ht =>
    ⟨[], nofun, by rw [ht]; exact List.nil_prefix⟩
  obtain ⟨h₁, r, tr₁, -, -, rfl, hrun₁⟩ := Exec.call_some_inv hrun
  rcases r with e' | k
  · obtain ⟨rfl, -, -⟩ := Exec.ret_some_inv hrun₁
    exact .inr (hnone rfl)
  obtain ⟨h₂, ⟨reads, err⟩, tr₂, -, -, rfl, hrun₂⟩ := Exec.call_some_inv hrun₁
  have hsent : sent (⟨.openFile snapshot.path, (.ok k : Except String ℕ)⟩ ::
      ⟨.readAll snapshot.path, (reads, err)⟩ :: tr₂) = sent tr₂ := rfl
  rw [hsent]
  have hfit : ∀ b ∈ pieces reads, b.length ≤ chunkSize := fun b hb => ((pieces_spec reads).2 b hb).2
  have hchunks := pours_sendChunks (pieces reads) hfit
  cases err with
  | some e' =>
    change Runs R (sendChunks (pieces reads) >>= fun _ => throw _) _ _ _ _ at hrun₂
    exact .inr ⟨pieces reads, hfit, ((hchunks.bind_nothing fun _ => Pours.throw _) _ _ _ _ _ hrun₂).1⟩
  | none =>
    change Runs R (sendChunks (pieces reads) >>= fun _ =>
      if reads.flatten.length ≠ n then throw _
      else writeFrame .eof (proto.eof.encode ⟨reads.flatten.length, crc⟩) >>= fun _ =>
        flush "flush") _ _ _ _ at hrun₂
    rcases Exec.fallible_bind_inv hrun₂ with ⟨hout, -⟩ | ⟨e', -, h₁⟩ | ⟨u, tr₃, tr₄, g, rfl, h₃, h₄⟩
    · cases hout
    · exact .inr ⟨pieces reads, hfit, (hchunks _ _ _ _ _ h₁).1⟩
    have hdone := (hchunks _ _ _ _ _ h₃).2 u rfl
    have hquiet : sent tr₄ = [] → ∃ chunks : List Bytes, (∀ b ∈ chunks, b.length ≤ chunkSize) ∧
        sent (tr₃ ++ tr₄) <+: (chunks.map (Prod.mk FrameType.chunk)).flatMap RawFrame.bytes := by
      intro hnil
      refine ⟨pieces reads, hfit, ?_⟩
      rw [sent_append, hdone, hnil, List.append_nil]
    by_cases hsize : reads.flatten.length ≠ n
    · rw [if_pos hsize] at h₄
      obtain ⟨rfl, -, -⟩ := Exec.ret_some_inv h₄
      exact .inr (hquiet rfl)
    rw [if_neg hsize] at h₄
    by_cases hlen : (proto.eof.encode ⟨reads.flatten.length, crc⟩).length < 2 ^ 32
    · -- the end frame is written, so it is the connection that failed
      rcases ((says_writeFrame (t := .eof) hlen).seq (says_flush "flush")).returned h₄ with
        ⟨hres, -⟩ | ⟨-, ev, hev, hfailed⟩
      · cases hres
      have honline : (writeFrame .eof (proto.eof.encode ⟨reads.flatten.length, crc⟩) >>= fun _ =>
          flush "flush").run.Within fun o : HostOp => o.online = true :=
        Fallible.within_bind (within_writeFrame (fun _ => rfl) _ _) fun _ =>
          Fallible.within_bind ((within_sys .flush).mpr rfl) fun _ => within_orErr _ _
      exact .inl ⟨ev, by simp [hev], hfailed, Exec.mem_within honline h₄ ev hev⟩
    · rw [writeFrame, if_neg hlen] at h₄
      obtain ⟨rfl, -, -⟩ := Exec.ret_some_inv h₄
      exact .inr (hquiet rfl)

/-- A frame on the way is read, unless the connection fails. -/
lemma readJson_error {α : Type} {t : FrameType} {c : Codec α} {v : α} {payload rest : Bytes}
    {e : RuntimeError} (hlen : payload.length ≤ 4 * 1024 * 1024) (hdec : c.decode payload = .ok v)
    (ht : t ≠ .error) (hreads : received tr <+: RawFrame.bytes (t, payload) ++ rest)
    (hrun : Runs R (readJson proto t c) h tr (some (.error e)) h') :
    ∃ ev ∈ tr, failed ev = true ∧ ev.1.online = true := by
  rw [readJson, readHeader, bind_assoc] at hrun
  obtain ⟨h₁, r, tr₁, -, hr, rfl, hrun₁⟩ := Exec.call_some_inv hrun
  rcases r with e' | hdr
  · exact ⟨_, List.mem_cons_self, rfl, rfl⟩
  -- the header is that of the frame
  have hhdr : hdr.length = 5 := Host.enabled_recv.mp hr
  have hgot : received (⟨.recv 5, (.ok hdr : Except String Bytes)⟩ :: tr₁) = hdr ++ received tr₁ := rfl
  rw [hgot] at hreads
  obtain ⟨tail, htail⟩ := hreads
  have hbytes : hdr ++ (received tr₁ ++ tail) = (t.toU8 :: toBE 4 payload.length) ++ (payload ++ rest) := by
    rw [← List.append_assoc, htail]
    simp [RawFrame.bytes, frame]
  obtain ⟨rfl, hrest⟩ := List.append_inj hbytes (by rw [hhdr, List.length_cons, length_toBE])
  have hparse : parseHeader (t.toU8 :: toBE 4 payload.length) = .ok (t, payload.length) :=
    parseHeader_frame (by rw [FrameType.cap_eq]; exact hlen)
  change Runs R (ofExcept (parseHeader (t.toU8 :: toBE 4 payload.length)) >>= fun x =>
    readPayload x.2 >>= fun body => ofExcept (parseJson proto t c x.1 body)) _ _ _ _ at hrun₁
  rw [hparse] at hrun₁
  change Runs R (sys (.recv payload.length) >>= fun r =>
    orErr r (fun e => .migration s!"read frame payload: {e}") >>= fun body =>
      ofExcept (parseJson proto t c t body)) _ _ _ _ at hrun₁
  obtain ⟨h₂, r, tr₂, -, hr', rfl, hrun₂⟩ := Exec.call_some_inv hrun₁
  rcases r with e' | body
  · exact ⟨⟨.recv payload.length, (.error e' : Except String Bytes)⟩, by simp, rfl, rfl⟩
  -- and so is the payload
  have hbody : body.length = payload.length := Host.enabled_recv.mp hr'
  have hgot' : received (⟨.recv payload.length, (.ok body : Except String Bytes)⟩ :: tr₂) =
      body ++ received tr₂ := rfl
  rw [hgot', List.append_assoc] at hrest
  obtain ⟨rfl, -⟩ := List.append_inj hrest hbody
  have hparse' : parseJson proto t c t body = .ok v := by
    rw [parseJson, if_neg ht, if_neg (not_not.mpr rfl), hdec]
  change Runs R (ofExcept (parseJson proto t c t body)) _ _ _ _ at hrun₂
  rw [hparse'] at hrun₂
  obtain ⟨-, -, hres⟩ := Exec.ret_some_inv hrun₂
  cases hres

/-- A frame that is not on the way is not read, and the connection fails. -/
lemma readJson_unread {α : Type} {t : FrameType} {c : Codec α} {e : RuntimeError} (hnone : received tr = [])
    (hrun : Runs R (readJson proto t c) h tr (some (.error e)) h') :
    ∃ ev ∈ tr, failed ev = true ∧ ev.1.online = true := by
  rw [readJson, readHeader, bind_assoc] at hrun
  obtain ⟨h₁, r, tr₁, -, hr, rfl, -⟩ := Exec.call_some_inv hrun
  rcases r with e' | hdr
  · exact ⟨_, List.mem_cons_self, rfl, rfl⟩
  · have hhdr : hdr.length = 5 := Host.enabled_recv.mp hr
    have hgot : received (⟨.recv 5, (.ok hdr : Except String Bytes)⟩ :: tr₁) = hdr ++ received tr₁ := rfl
    rw [hgot, List.append_eq_nil_iff] at hnone
    rw [hnone.1] at hhdr
    cases hhdr

/-- Waiting for a result fails where reading it does, if the result tells of a restore. -/
lemma awaitResult_error {e : RuntimeError} {m : MigrateResult} (hok : m.ok = true)
    (hcodes : received tr ≠ [] → Codes proto.result m)
    (hreads : received tr <+: (RawFrame.writable .result (proto.result.encode m)).flatMap RawFrame.bytes)
    (hrun : Runs R (awaitResult proto target) h tr (some (.error e)) h') :
    ∃ ev ∈ tr, failed ev = true ∧ ev.1.online = true := by
  rcases Exec.fallible_bind_inv hrun with ⟨hout, -⟩ | ⟨e', -, h₁⟩ | ⟨m', tr₁, tr₂, g, rfl, h₁, h₂⟩
  · cases hout
  · by_cases hnone : received tr = []
    · exact readJson_unread hnone h₁
    · have hfit := hcodes hnone
      have hlen : (proto.result.encode m).length < 2 ^ 32 := lt_of_le_of_lt hfit.fits (by decide)
      rw [RawFrame.writable, if_pos hlen, List.flatMap_singleton] at hreads
      have hword : received tr <+: RawFrame.bytes (.result, proto.result.encode m) ++ [] := by
        rwa [List.append_nil]
      exact readJson_error hfit.fits hfit.roundTrips (by decide) hword h₁
  · -- the result was read, so it is the one that was written
    obtain ⟨body, hbody, hfits, hdec⟩ := readJson_frame h₁
    have hne : received (tr₁ ++ tr₂) ≠ [] := by
      rw [received_append, hbody]
      exact fun hnil => RawFrame.delimits.ne_nil _ (List.append_eq_nil_iff.mp hnil).1
    have hfit := hcodes hne
    have hlen : (proto.result.encode m).length < 2 ^ 32 := lt_of_le_of_lt hfit.fits (by decide)
    rw [RawFrame.writable, if_pos hlen, List.flatMap_singleton, received_append, hbody] at hreads
    have hword : RawFrame.bytes (.result, body) <+: RawFrame.bytes (.result, proto.result.encode m) :=
      (List.prefix_append _ _).trans hreads
    obtain ⟨rest, hrest⟩ := hword
    have heq := RawFrame.delimits.inj (.result, body) (.result, proto.result.encode m) rest [] hfits hlen
      (by rw [hrest, List.append_nil])
    obtain rfl : body = proto.result.encode m := congrArg Prod.snd heq
    obtain rfl : m = m' := Except.ok.inj (hfit.roundTrips.symm.trans hdec)
    rw [hok] at h₂
    obtain ⟨-, -, hres⟩ := Exec.ret_some_inv h₂
    cases hres

/-- An acknowledgement that was read was written. -/
lemma writable_of_read {ack ack' m : Bytes} (hfits : RawFrame.Fits (.helloAck, ack))
    (hreads : RawFrame.bytes (.helloAck, ack) <+: (RawFrame.writable .helloAck ack' ++
      RawFrame.writable .result m).flatMap RawFrame.bytes) :
    RawFrame.writable .helloAck ack' = [(.helloAck, ack)] := by
  have hword : [(FrameType.helloAck, ack)] <+: RawFrame.writable .helloAck ack' ++
      RawFrame.writable .result m := by
    refine RawFrame.delimits.words (List.forall_mem_singleton.mpr hfits) ?_ ?_
    · rw [List.forall_mem_append]
      exact ⟨RawFrame.fits_writable _ _, RawFrame.fits_writable _ _⟩
    · rwa [List.flatMap_singleton]
  unfold RawFrame.writable at hword ⊢
  split at hword
  · rw [if_pos ‹_›, (List.cons_prefix_cons.mp hword).1]
  · rw [List.nil_append] at hword
    split at hword
    · cases (List.cons_prefix_cons.mp hword).1
    · cases List.prefix_nil.mp hword

/-- How a transfer can fail: on the connection; before the end frame is written; or at the result, behind
one acknowledgement. -/
lemma sendSnapshot_error {e : RuntimeError}
    (hrun : Runs R (sendSnapshot env proto id snapshot target token) h tr (some (.error e)) h') :
    (∃ ev ∈ tr, failed ev = true ∧ ev.1.online = true) ∨
    (∃ (payload : Bytes) (chunks : List Bytes), (∀ b ∈ chunks, b.length ≤ chunkSize) ∧
      sent tr <+: (RawFrame.writable .hello payload ++
        chunks.map (Prod.mk FrameType.chunk)).flatMap RawFrame.bytes) ∨
    ∃ ack tr₁ tr₂ e' g, tr = tr₁ ++ tr₂ ∧ received tr₁ = RawFrame.bytes (.helloAck, ack) ∧
      RawFrame.Fits (.helloAck, ack) ∧ Runs R (awaitResult proto target) g tr₂ (some (.error e')) h' := by
  rw [sendSnapshot_eq] at hrun
  rcases Exec.fallible_bind_inv hrun with ⟨hout, -⟩ | ⟨e', -, h₁⟩ | ⟨x, tr₁, tr₂, g, rfl, h₁, h₂⟩
  · cases hout
  · obtain ⟨payload, hpart, -⟩ := announce_pours _ _ _ _ _ h₁
    refine .inr (.inl ⟨payload, [], nofun, ?_⟩)
    rw [List.map_nil, List.append_nil]
    exact hpart
  obtain ⟨payload, -, hall⟩ := announce_pours _ _ _ _ _ h₁
  obtain ⟨ack, hack, hfits⟩ := announce_received h₁
  rcases Exec.fallible_bind_inv h₂ with ⟨hout, -⟩ | ⟨e', -, h₃⟩ | ⟨u, tr₃, tr₄, g₁, rfl, h₃, h₄⟩
  · cases hout
  · rcases stream_error h₃ with ⟨ev, hev, hfailed⟩ | ⟨chunks, hfit, hpart⟩
    · exact .inl ⟨ev, List.mem_append_right _ hev, hfailed⟩
    · refine .inr (.inl ⟨payload, chunks, hfit, ?_⟩)
      rw [sent_append, hall x rfl, List.flatMap_append]
      exact (List.prefix_append_right_inj _).mpr hpart
  · rcases Exec.fallible_bind_inv h₄ with ⟨hout, -⟩ | ⟨e', -, h₅⟩ | ⟨m, tr₅, tr₆, g₂, rfl, -, h₅⟩
    · cases hout
    · refine .inr (.inr ⟨ack, tr₁ ++ tr₃, tr₄, e', g₁, (List.append_assoc _ _ _).symm, ?_, hfits, h₅⟩)
      rw [received_append, hack, Runs.received_nil stream_deaf h₃, List.append_nil]
    · obtain ⟨-, -, hres⟩ := Exec.ret_some_inv h₅
      cases hres

/-- A receiver that reads no end frame does not get as far as its commit. -/
lemma arrive_unfinished {fuel : ℕ} {payload : Bytes} {chunks : List Bytes} {x : Hello × PathBuf}
    (hfit : ∀ b ∈ chunks, b.length ≤ chunkSize)
    (hreads : received tr <+: (RawFrame.writable .hello payload ++
      chunks.map (Prod.mk FrameType.chunk)).flatMap RawFrame.bytes)
    (hrun : Runs R (arrive env proto fuel token) h tr (some (.ok x)) h') : False := by
  have hoffers : ∀ content, Offers content (RawFrame.writable .hello payload ++
      chunks.map (Prod.mk FrameType.chunk)) := fun content =>
    ⟨payload, chunks, [], by rw [List.append_nil], hfit, .inl rfl⟩
  obtain ⟨-, opening, last, chunks', hreceived, hfits, -⟩ := arrive_took hrun
  rw [hreceived] at hreads
  have hwords := RawFrame.delimits.words hfits (hoffers []).fits hreads
  have hone := (hoffers (0 :: chunks'.flatten)).content hwords
  exact List.cons_ne_self _ _ hone.symm

/-- The receiver committed its file, tried to bring the container to life, and went on to answer how that
ended. -/
def Answered (R : Host → Host → Prop) (env : Env) (codec : Codec Manifest) (proto : Protocol)
    (fuel : Nat) (token : String) (index : UInt8) (h : Host) (tr : List HostSig.Event)
    (hello : Hello) (outcome : Except RuntimeError Restore.Report)
    (out : Option (Except RuntimeError String)) (h' : Host) : Prop :=
  ∃ tr₁ tr₂ tr₃ g g', tr = tr₁ ++ (tr₂ ++ tr₃) ∧
    Runs R (arrive env proto fuel token) h tr₁ (some (.ok (hello, finalFile env hello))) g ∧
    Runs R (adoptAndRestore env codec (finalFile env hello) index) g tr₂ (some outcome) g' ∧
    Runs R (answer proto hello outcome) g' tr₃ out h'

section

variable {fuel : ℕ} {index : UInt8} {hello : Hello} {out : Option (Except RuntimeError String)}

/-- It is a run of the receiver. -/
lemma Answered.handleOne {outcome : Except RuntimeError Restore.Report}
    (ha : Answered R env codec proto fuel token index h tr hello outcome out h') :
    Runs R (handleOne env codec proto fuel token index) h tr out h' := by
  obtain ⟨tr₁, tr₂, tr₃, g, g', rfl, h₁, h₂, h₃⟩ := ha
  have hconclude : Runs R (conclude env codec proto index (hello, finalFile env hello)) g (tr₂ ++ tr₃) out
      h' := by
    rw [conclude, Runs, Fallible.run_attempt_bind]
    exact Exec.bind h₂ h₃
  rw [handleOne_eq]
  exact Exec.fallible_bind h₁ hconclude

/-- What a receiver that restored the container writes: its acknowledgement, and a first part of its
result. -/
lemma Answered.frames {rep : Restore.Report}
    (ha : Answered R env codec proto fuel token index h tr hello (.ok rep) out h') :
    ∃ ack here, sent tr <+: (RawFrame.writable .helloAck ack ++ RawFrame.writable .result
      (proto.result.encode (resultOf here hello (.ok rep)))).flatMap RawFrame.bytes ∧
      (sent tr = (RawFrame.writable .helloAck ack).flatMap RawFrame.bytes ∨ ⟨.hostname, here⟩ ∈ tr) := by
  obtain ⟨tr₁, tr₂, tr₃, g, g', rfl, h₁, h₂, h₃⟩ := ha
  obtain ⟨ack, -, -, -, hsent⟩ := arrive_frames h₁
  have hquiet := Offline.sent adoptAndRestore_offline h₂
  have hflush : Pours (sys .flush) [] := Pours.nothing ((within_sys .flush).mpr rfl)
  have hone := hsent _ rfl
  obtain ⟨g₁, -, ⟨rfl, -, -⟩ | ⟨here, tr', -, rfl, hrun'⟩⟩ := Exec.call_inv h₃
  · refine ⟨ack, "", ?_, .inl ?_⟩
    · rw [sent_append, sent_append, hone, hquiet, sent_nil, List.append_nil, List.append_nil,
        List.flatMap_append]
      exact List.prefix_append _ _
    · rw [sent_append, sent_append, hone, hquiet, sent_nil, List.append_nil, List.append_nil]
  · have hpours := ((pours_writeFrame .result (proto.result.encode (resultOf here hello (.ok rep)))).bind_nothing
      fun _ => hflush.bind_nothing fun _ => Pours.nothing (α := String) (x := pure rep.id) trivial)
      _ _ _ _ _ hrun'
    refine ⟨ack, here, ?_, .inr (by simp)⟩
    have hcall : sent (⟨.hostname, here⟩ :: tr') = sent tr' := rfl
    rw [sent_append, sent_append, hone, hquiet, List.nil_append, hcall, List.flatMap_append]
    exact (List.prefix_append_right_inj _).mpr hpours.1

end

end Transport

namespace Migrate

variable {source receiver : List HostSig.Event}

variable {R R' : Host → Host → Prop} {env env' : Env} {codec codec' : Codec Manifest} {proto : Protocol}
  {id target token : String} {opts : Options} {fuel : ℕ} {index : UInt8} {h w w' g g' : Host}
  {out' : Option (Except RuntimeError String)} {hello : Hello}
  {outcome : Except RuntimeError Restore.Report} {b : PathBuf}
  {e : RuntimeError} {s₁ s₂ : List HostSig.Event}

/-- A shipment that fails has a transfer that fails. -/
lemma ship_error (hrun : Runs R (ship env proto id target b opts) w s₂ (some (.error e)) w') :
    ∃ e₁, Runs R (sendSnapshot env proto id b target opts.token) w s₂ (some (.error e₁)) w' := by
  rcases Exec.fallible_bind_inv hrun with ⟨hout, -⟩ | ⟨e', -, h₁⟩ | ⟨r, tr₁, tr₂, g, rfl, h₁, h₂⟩
  · cases hout
  · rcases Exec.attempt_inv h₁ with ⟨hr, -⟩ | ⟨r, hr, -⟩
    · cases hr
    · cases hr
  rcases Exec.attempt_inv h₁ with ⟨hr, -⟩ | ⟨r', hr, h₃⟩
  · cases hr
  obtain rfl : r = r' := Except.ok.inj (Option.some.inj hr)
  cases r with
  | ok tx =>
    obtain ⟨-, -, hres⟩ := Exec.ret_some_inv h₂
    cases hres
  | error e₁ =>
    obtain ⟨rfl, hR, -⟩ := Exec.ret_some_inv h₂
    rw [List.append_nil]
    exact ⟨e₁, h₃.append_env_star hR⟩

/-- **The lost answer.** If a receiver went on to answer, and the operator of the source is told that the
container was not handed over, then either it was not restored, or a call of the source on the connection
failed: a write, a flush, or a read of what the receiver answered.

**Proof sketch.** A receiver that committed a file read the end frame, so the source was past its
announcement, and past its stream if the connection did not fail. What it reads then is an acknowledgement,
and next the result of the receiver, which tells of a restore if there was one. -/
theorem answer_lost
    (hcodes : ∀ (here : String) (rep : Restore.Report), ⟨.hostname, here⟩ ∈ receiver → outcome = .ok rep →
      Codes proto.result (resultOf here hello outcome))
    (hprepare : Runs R (prepare env codec id opts) h s₁ (some (.ok b)) w)
    (hship : Runs R (ship env proto id target b opts) w s₂ (some (.error e)) w')
    (hanswered : Answered R' env' codec' proto fuel token index g receiver hello outcome out' g')
    (hconnected : Connected (s₁ ++ s₂) receiver) :
    (∃ e', outcome = .error e') ∨ ∃ ev ∈ s₂, failed ev = true ∧ ev.1.online = true := by
  cases outcome with
  | error e' => exact .inl ⟨e', rfl⟩
  | ok rep =>
    right
    have hreads := hconnected.receiver_reads
    have hanswers := hconnected.source_reads
    rw [sent_append, Offline.sent prepare_offline hprepare, List.nil_append] at hreads
    rw [received_append, Offline.received prepare_offline hprepare, List.nil_append] at hanswers
    obtain ⟨e₁, hsend⟩ := ship_error hship
    rcases sendSnapshot_error hsend with hfailed | ⟨payload, chunks, hfit, hpart⟩ |
      ⟨ack, t₁, t₂, e₂, w₁, rfl, hack, hfits, hawait⟩
    · exact hfailed
    · obtain ⟨r₁, r₂, r₃, g₁, g₂, rfl, harrive, -, -⟩ := hanswered
      rw [received_append] at hreads
      exact (arrive_unfinished hfit (((List.prefix_append _ _).trans hreads).trans hpart) harrive).elim
    -- what the source reads behind the acknowledgement is the result of the receiver
    obtain ⟨ack', here, hpart, hhere⟩ := hanswered.frames
    rw [received_append, hack] at hanswers
    have hfirst := writable_of_read hfits (((List.prefix_append _ _).trans hanswers).trans hpart)
    rw [hfirst] at hpart hhere
    rw [List.flatMap_append, List.flatMap_singleton] at hpart
    rw [List.flatMap_singleton] at hhere
    have hresult := (List.prefix_append_right_inj _).mp (hanswers.trans hpart)
    have hcode : received t₂ ≠ [] → Codes proto.result (resultOf here hello (.ok rep)) := by
      intro hne
      apply hcodes here rep _ rfl
      apply hhere.resolve_left
      intro hquiet
      rw [hquiet] at hanswers
      have hlen := hanswers.length_le
      rw [List.length_append] at hlen
      exact hne (List.eq_nil_of_length_eq_zero (by omega))
    obtain ⟨ev, hev, hfailed⟩ := awaitResult_error (by rfl) hcode hresult hawait
    exact ⟨ev, List.mem_append_right _ hev, hfailed⟩

end Migrate

/-! ### A whole snapshot -/

namespace Demo

variable {tr₁ tr₂ : List HostSig.Event} {rep : Restore.Report} {g : Host}

/-- The receiver that restores the container goes on to answer. -/
lemma Handed.answered (hh : Handed tr₁ tr₂ rep g) : Answered quiet env codec webProtocol 2 "secret" 0
    (host frozen [] []) (tr₁ ++ (receiving ++ (tr₂ ++ answering))) webHello (.ok rep) (some (.ok "web")) g := by
  have harrive : Runs quiet (arrive env webProtocol 2 "secret") (host frozen [] [])
      (tr₁ ++ (receiving ++ [])) (some (.ok (webHello, finalFile env webHello))) arrived :=
    Exec.fallible_bind hh.greet (Exec.fallible_bind web_received (.ret _ _))
  rw [List.append_nil] at harrive
  exact ⟨tr₁ ++ receiving, tr₂, answering, arrived, g, (List.append_assoc _ _ _).symm, harrive, hh.restore,
    hh.answer⟩

/-- What it tells fits a frame, and reads back. -/
lemma Handed.codes (hh : Handed tr₁ tr₂ rep g) {here : String}
    (hmem : ⟨.hostname, here⟩ ∈ tr₁ ++ (receiving ++ (tr₂ ++ answering))) :
    Codes webProtocol.result (resultOf here webHello (.ok rep)) := by
  obtain rfl : here = "node" := of_decide_eq_true (hh.expects _ hmem)
  have hresult : resultOf "node" webHello (.ok rep) = handed := hh.tells
  rw [hresult]
  obtain ⟨-, -, -, -, hfits⟩ := courier_fits
  constructor
  · simp only [webProtocol, if_true]
    exact hfits
  · simp only [Codec.RoundTrips, webProtocol, only, if_true]

/-- The connection is gone when the source waits for the answer. -/
def losing : List HostSig.Event :=
  [⟨.recv 5, (.error "Connection reset by peer (os error 104)" : Except String Bytes)⟩]

/-- The source does not hear of the restore. -/
lemma courier_untold : Runs quiet (collect webProtocol "node" snapshotBytes.length) courier losing
    (some (.error (.migration "read frame header: Connection reset by peer (os error 104)"))) courier := by
  have hlost : machine.Enabled courier (.recv 5) (.error "Connection reset by peer (os error 104)") := rfl
  exact Exec.call hlost (.ret _ _)

end Demo

namespace Migrate

/-- A receiver that restores the container, and a source that loses the connection under the answer. -/
theorem answer_lost_demo : ∃ s₁ s₂ w e receiver rep g',
    Runs quiet (prepare Demo.env Demo.codec "web" Demo.moving) Demo.courier s₁ (some (.ok Demo.carried)) w ∧
    Runs quiet (ship Demo.env Demo.webProtocol "web" "node" Demo.carried Demo.moving) w s₂
      (some (.error e)) w ∧
    Answered quiet Demo.env Demo.codec Demo.webProtocol 2 "secret" 0 (Demo.host Demo.frozen [] []) receiver
      Demo.webHello (.ok rep) (some (.ok "web")) g' ∧
    Connected (s₁ ++ s₂) receiver ∧ ∃ ev ∈ s₂, failed ev = true ∧ ev.1.online = true := by
  obtain ⟨tr₁, tr₂, rep, g, hh⟩ := Demo.web_handed
  obtain ⟨s, hprepare⟩ := Demo.courier_prepares
  have hship := ship_run (Demo.courier_delivers Demo.courier_untold)
  have hnothing : received Demo.losing <+: frame .result Demo.handedText.toUTF8.data.toList :=
    List.nil_prefix
  have hconnected := hh.connected (Offline.sent prepare_offline hprepare)
    (Offline.received prepare_offline hprepare) hnothing
  refine ⟨s, _, Demo.courier, _, _, rep, g, hprepare, hship, hh.answered, hconnected, ?_⟩
  refine (answer_lost (fun here rep' hmem hok => ?_) hprepare hship hh.answered hconnected).resolve_left nofun
  obtain rfl := Except.ok.inj hok
  exact hh.codes hmem

end Migrate

end Mincontainer
