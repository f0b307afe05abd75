import Mincontainer.Migration.Gate

set_option relaxedAutoImplicit false
set_option autoImplicit false

/-!
# An honest transfer

Two parties on two hosts, and a connection that delivers what the sender wrote. The sender's file does
not change; its reads may cut the content anywhere. Then the frames it sends are a hello, the content
in chunks, and an end frame, and they lead the receiver's loop to the commit of the same content:
only a call on the receiver's own files can fail on the way.

## Main definitions

* `Mincontainer.Transport.Holds` — a file holds certain bytes, unless somebody else writes it.
* `Mincontainer.Transport.LocalFailure` — the errors of the receiver's own file calls.

## Main results

* `Mincontainer.Transport.delivers_receiveFile` — the receiver, over the frames of an honest sender.
* `Mincontainer.Transport.stream_says` — the frames of the sender.
* `Mincontainer.Transport.honest_delivers` — the transfer.
-/

namespace Mincontainer

open Effects Files Bytes

namespace Transport

/-! ### Rules for the receiver -/

/-- The file holds these bytes, as long as the environment leaves it alone. -/
def Holds (R : Host → Host → Prop) (p : Path) (b : Bytes) (h : Host) : Prop :=
  Keeps R p → h.file p = some (.bytes b)

/-- The call gets a reply: it neither hangs nor ends the process. -/
def Returning (o : HostOp) : Prop := o ≠ .spin ∧ o ≠ .abort

/-- Over its incoming stream the program promises `Q` of the value it returns and `E` of an error, and
gets stuck nowhere. -/
abbrev Delivers {α : Type} (R : Host → Host → Prop) (Q : α → Host × Bytes → Prop)
    (E : RuntimeError → Prop) (x : HostM α) (w : Host × Bytes) : Prop :=
  incoming.Promises (Besides R) Returning Q E x w

section Rules

variable {R : Host → Host → Prop} {E : RuntimeError → Prop} {h h' : Host} {p : Path}
  {b data input rest : Bytes}

lemma Holds.star (hf : Holds R p b h) (hR : Relation.ReflTransGen R h h') : Holds R p b h' :=
  fun hk => (hk.star hR).trans (hf hk)

/-- An exact read of bytes that are there gets them. -/
lemma delivers_readExact {n : ℕ} {f : String → RuntimeError} (hn : b.length = n) :
    Delivers R (fun a w => a = b ∧ w.2 = rest ∧ Relation.ReflTransGen R h w.1) E (readExact n f)
      (h, b ++ rest) := by
  subst hn
  refine Machine.Promises.call ⟨nofun, nofun⟩ fun w r hw hr => ?_
  obtain ⟨hR, hinput⟩ := Besides.star hw
  obtain ⟨g, input⟩ := w
  obtain rfl : input = b ++ rest := hinput
  obtain ⟨hr, htakes⟩ := hr
  rcases r with e | c
  · exact absurd htakes (by simp [takes])
  · have hc : c = b := by
      by_contra hc
      simp [takes, hc] at htakes
    subst hc
    refine Machine.Promises.pure fun w' hw' => ?_
    obtain ⟨hR', hinput'⟩ := Besides.star hw'
    refine ⟨rfl, ?_, hR.trans hR'⟩
    rw [hinput']
    simp [incoming, takes]

lemma delivers_ofExcept {α : Type} {x : Except RuntimeError α} {a : α} {w : Host × Bytes}
    (hx : x = .ok a) :
    Delivers R (fun a' w' => a' = a ∧ Relation.ReflTransGen (Besides R) w w') E (ofExcept x) w := by
  subst hx
  exact Machine.Promises.pure fun w' hw' => ⟨rfl, hw'⟩

/-- The header of a frame on the stream. -/
lemma delivers_readHeader {t : FrameType} {n : ℕ} (hn : n ≤ 4 * 1024 * 1024) :
    Delivers R (fun a w => a = (t, n) ∧ w.2 = rest ∧ Relation.ReflTransGen R h w.1) E readHeader
      (h, t.toU8 :: (toBE 4 n ++ rest)) := by
  rw [readHeader_eq]
  refine Machine.Promises.bind (delivers_readExact (b := t.toU8 :: toBE 4 n) ?_) fun hdr w hw => ?_
  · simp [length_toBE]
  · obtain ⟨rfl, hrest, hR⟩ := hw
    refine (delivers_ofExcept (parseHeader_frame (by rw [FrameType.cap_eq]; exact hn))).mono ?_
      fun _ h => h
    rintro a w' ⟨rfl, hw'⟩
    obtain ⟨hR', hrest'⟩ := Besides.star hw'
    exact ⟨rfl, hrest'.trans hrest, hR.trans hR'⟩

/-- A call that does not read from the stream, and the check of its reply. -/
lemma delivers_local {α : Type} {o : HostOp} {f : o.Reply → HostM α} {Q : α → Host × Bytes → Prop}
    (ho : Returning o) (hdeaf : o.hears = false)
    (hf : ∀ g r, Relation.ReflTransGen R h g → machine.Enabled g o r →
      Delivers R Q E (f r) (machine.next g o r, input)) :
    Delivers R Q E (sys o >>= f) (h, input) := by
  refine Machine.Promises.call ho fun w r hw hr => ?_
  obtain ⟨hR, hinput⟩ := Besides.star hw
  obtain ⟨g, input'⟩ := w
  obtain rfl : input' = input := hinput
  have hnext : incoming.next (g, input') o r = (machine.next g o r, input') := by
    cases o <;> first | rfl | cases hdeaf
  rw [hnext]
  exact hf g r hR hr.1

lemma delivers_mkdirAll {f : String → RuntimeError} (hE : ∀ m, E (f m)) :
    Delivers R (fun _ w => w.2 = input) E (mkdirAll p f) (h, input) := by
  refine delivers_local ⟨nofun, nofun⟩ rfl fun g r _ _ => ?_
  rcases r with ⟨k, e⟩ | u
  · exact Machine.Promises.throw (hE e)
  · exact Machine.Promises.pure fun w hw => (Besides.star hw).2

/-- Creating a file leaves it empty. -/
lemma delivers_createFile {f : String → RuntimeError} (hE : ∀ m, E (f m)) :
    Delivers R (fun _ w => w.2 = input ∧ Holds R p [] w.1) E (createFile p f) (h, input) := by
  refine delivers_local ⟨nofun, nofun⟩ rfl fun g r _ _ => ?_
  rcases r with e | u
  · exact Machine.Promises.throw (hE e)
  · refine Machine.Promises.pure fun w hw => ?_
    obtain ⟨hR, hinput⟩ := Besides.star hw
    exact ⟨hinput, Holds.star (fun _ => g.file_write _ _) hR⟩

/-- Writing to a file appends the bytes. -/
lemma delivers_appendTo {f : String → RuntimeError} (hE : ∀ m, E (f m)) (hfile : Holds R p b h) :
    Delivers R (fun _ w => w.2 = input ∧ Holds R p (b ++ data) w.1) E (appendTo p data f)
      (h, input) := by
  refine delivers_local ⟨nofun, nofun⟩ rfl fun g r hR _ => ?_
  rcases r with ⟨k, e⟩ | u
  · exact Machine.Promises.throw (hE e)
  · refine Machine.Promises.pure fun w hw => ?_
    obtain ⟨hR', hinput⟩ := Besides.star hw
    exact ⟨hinput, Holds.star (fun hk => g.file_extend (hfile.star hR hk) data) hR'⟩

/-- Renaming a file takes its content along. -/
lemma delivers_rename {src dst : Path} {f : String → RuntimeError} (hE : ∀ m, E (f m))
    (hfile : Holds R src b h) :
    Delivers R (fun _ w => w.2 = input ∧ (Keeps R src → Holds R dst b w.1)) E
      (sys (.rename src dst) >>= fun r => orErr r f) (h, input) := by
  refine delivers_local ⟨nofun, nofun⟩ rfl fun g r hR _ => ?_
  rcases r with e | u
  · exact Machine.Promises.throw (hE e)
  · refine Machine.Promises.pure fun w hw => ?_
    obtain ⟨hR', hinput⟩ := Besides.star hw
    exact ⟨hinput, fun hk => Holds.star (fun _ => file_rename (hfile.star hR hk)) hR'⟩

end Rules

/-! ### The receiver of an honest sender -/

/-- The errors of the receiver's calls on its own files. -/
def LocalFailure (env : Env) (hello : Hello) (e : RuntimeError) : Prop :=
  ∃ m : String, e = .migration s!"mkdir inbox: {m}" ∨
    e = .migration s!"create {(partFile env hello).text}: {m}" ∨
    e = .migration s!"write {(partFile env hello).text}: {m}" ∨
    e = .migration s!"flush {(partFile env hello).text}: {m}" ∨
    e = .migration s!"commit snapshot: {m}"

section Receiver

variable {R : Host → Host → Prop} {env : Env} {proto : Protocol} {hello : Hello} {h : Host}
  {b rest : Bytes} {chunks : List Bytes} {last : Bytes} {eof : Eof} {fuel n : ℕ} {crc : Crc32}

/-- The end frame of an honest sender is accepted. -/
lemma delivers_checkEof (hdec : proto.eof.decode last = .ok eof) (hbytes : eof.bytes = n)
    (hcrc : eof.crc32 = crc.finish) (hhello : hello.snapshotCrc32 = crc.finish)
    (hfile : Holds R (partFile env hello).path b h) :
    Delivers R (fun _ w => w.2 = rest ∧ Holds R (partFile env hello).path b w.1)
      (LocalFailure env hello) (checkEof proto (partFile env hello) hello n crc last.length)
      (h, last ++ rest) := by
  refine Machine.Promises.bind (delivers_readExact rfl) fun body w hw => ?_
  obtain ⟨g, input⟩ := w
  obtain ⟨rfl, hinput, hR⟩ := hw
  obtain rfl : input = rest := hinput
  refine Machine.Promises.bind (Q := fun a w => a = eof ∧ Relation.ReflTransGen (Besides R) (g, input) w)
    ?_ fun eof' w hw => ?_
  · rw [hdec]
    exact Machine.Promises.pure fun w hw => ⟨rfl, hw⟩
  obtain ⟨rfl, hw⟩ := hw
  obtain ⟨hR', hinput⟩ := Besides.star hw
  obtain ⟨g', input'⟩ := w
  obtain rfl : input' = input := hinput
  refine Machine.Promises.bind (delivers_appendTo (fun m => ⟨m, by simp⟩)
    ((hfile.star hR).star hR')) fun _ w hw => ?_
  dsimp only
  rw [if_neg (by simp [hbytes, hcrc, hhello])]
  refine Machine.Promises.pure fun w' hw' => ?_
  obtain ⟨hR'', hinput''⟩ := Besides.star hw'
  rw [List.append_nil] at hw
  exact ⟨hinput''.trans hw.1, hw.2.star hR''⟩

/-- **The loop over an honest stream.** Chunk frames and an end frame that tells their total length and
checksum lead the receive loop to its end, with the content behind what the file held.

**Proof sketch.** Induction on the chunks. Each round takes one chunk frame, which stays below the
announced length because all that is still to come does. -/
lemma delivers_receive (hchunks : ∀ c ∈ chunks, c.length ≤ 4 * 1024 * 1024)
    (hlast : last.length ≤ 4 * 1024 * 1024) (hdec : proto.eof.decode last = .ok eof)
    (hbytes : eof.bytes = n + chunks.flatten.length)
    (hcrc : eof.crc32 = (crc.update chunks.flatten).finish)
    (hhello : hello.snapshotCrc32 = (crc.update chunks.flatten).finish)
    (hcap : n + chunks.flatten.length ≤ hello.snapshotBytes) (hfuel : chunks.length < fuel)
    (hfile : Holds R (partFile env hello).path b h) :
    Delivers R (fun _ w => w.2 = rest ∧ Holds R (partFile env hello).path (b ++ chunks.flatten) w.1)
      (LocalFailure env hello) (receive proto (partFile env hello) hello fuel n crc)
      (h, chunks.flatMap (frame .chunk) ++ (frame .eof last ++ rest)) := by
  induction chunks generalizing fuel n crc h b with
  | nil =>
    obtain ⟨fuel, rfl⟩ : ∃ k, fuel = k + 1 :=
      Nat.exists_eq_succ_of_ne_zero (Nat.ne_zero_of_lt hfuel)
    have hinput : [].flatMap (frame .chunk) ++ (frame .eof last ++ rest) =
        FrameType.eof.toU8 :: (toBE 4 last.length ++ (last ++ rest)) := by simp [frame]
    rw [hinput]
    refine Machine.Promises.bind (delivers_readHeader hlast) fun x w hw => ?_
    obtain ⟨g, input⟩ := w
    obtain ⟨rfl, hrest, hR⟩ := hw
    obtain rfl : input = last ++ rest := hrest
    dsimp only
    simp only [List.flatten_nil, List.append_nil, List.length_nil, Nat.add_zero, Crc32.update_nil]
      at hbytes hcrc hhello ⊢
    exact delivers_checkEof hdec hbytes hcrc hhello (hfile.star hR)
  | cons c chunks ih =>
    obtain ⟨fuel, rfl⟩ : ∃ k, fuel = k + 1 :=
      Nat.exists_eq_succ_of_ne_zero (Nat.ne_zero_of_lt hfuel)
    have hinput : (c :: chunks).flatMap (frame .chunk) ++ (frame .eof last ++ rest) =
        FrameType.chunk.toU8 :: (toBE 4 c.length ++
          (c ++ (chunks.flatMap (frame .chunk) ++ (frame .eof last ++ rest)))) := by simp [frame]
    rw [hinput]
    refine Machine.Promises.bind (delivers_readHeader (hchunks c List.mem_cons_self)) fun x w hw => ?_
    obtain ⟨g, input⟩ := w
    obtain ⟨rfl, hrest, hR⟩ := hw
    obtain rfl : input = _ := hrest
    dsimp only
    refine Machine.Promises.bind (delivers_readExact rfl) fun body w hw => ?_
    obtain ⟨g₁, input⟩ := w
    obtain ⟨rfl, hrest, hR₁⟩ := hw
    obtain rfl : input = _ := hrest
    refine Machine.Promises.bind (delivers_appendTo (fun m => ⟨m, by simp⟩)
      ((hfile.star hR).star hR₁)) fun _ w hw => ?_
    obtain ⟨g₂, input⟩ := w
    obtain ⟨hrest, hfile₂⟩ := hw
    obtain rfl : input = _ := hrest
    simp only [List.flatten_cons, List.length_append, List.length_cons, Crc32.update_append]
      at hbytes hcrc hhello hcap hfuel ⊢
    rw [if_neg (by omega), ← List.append_assoc]
    exact ih (fun c hc => hchunks c (List.mem_cons_of_mem _ hc)) (by omega) hcrc hhello (by omega)
      (by omega) hfile₂

/-- **The receiver of an honest sender.** It commits the content, or fails in a call on its own
files. -/
lemma delivers_receiveFile (hchunks : ∀ c ∈ chunks, c.length ≤ 4 * 1024 * 1024)
    (hlast : last.length ≤ 4 * 1024 * 1024) (hdec : proto.eof.decode last = .ok eof)
    (hbytes : eof.bytes = chunks.flatten.length) (hcrc : eof.crc32 = crc32 chunks.flatten)
    (hhello : hello.snapshotCrc32 = crc32 chunks.flatten)
    (hcap : chunks.flatten.length ≤ hello.snapshotBytes) (hfuel : chunks.length < fuel) :
    Delivers R (fun final w => final = finalFile env hello ∧ w.2 = rest ∧
        (Keeps R (partFile env hello).path → Keeps R final.path →
          w.1.file final.path = some (.bytes chunks.flatten)))
      (LocalFailure env hello) (receiveFile env proto fuel hello)
      (h, chunks.flatMap (frame .chunk) ++ (frame .eof last ++ rest)) := by
  refine Machine.Promises.bind (delivers_mkdirAll fun m => ⟨m, by simp⟩) fun _ w hw => ?_
  obtain ⟨g, input⟩ := w
  obtain rfl : input = _ := hw
  refine Machine.Promises.bind (delivers_createFile fun m => ⟨m, .inr (.inl rfl)⟩) fun _ w hw => ?_
  obtain ⟨g₁, input⟩ := w
  obtain ⟨hrest, hfile⟩ := hw
  obtain rfl : input = _ := hrest
  refine Machine.Promises.bind (Q := fun _ w => w.2 = rest ∧ Holds R (partFile env hello).path
    ([] ++ chunks.flatten) w.1) (delivers_receive hchunks hlast hdec (by simpa using hbytes) hcrc
      hhello (by simpa using hcap) hfuel hfile) fun _ w hw => ?_
  obtain ⟨g₂, input⟩ := w
  obtain ⟨hrest, hfile₂⟩ := hw
  obtain rfl : input = _ := hrest
  change Delivers R _ _ (sys (.rename (partFile env hello).path (finalFile env hello).path) >>=
    fun r => orErr r (fun e => .migration s!"commit snapshot: {e}") >>= fun _ =>
      pure (finalFile env hello)) _
  rw [← bind_assoc]
  refine Machine.Promises.bind (delivers_rename (fun m => ⟨m, by simp⟩) hfile₂) fun _ w hw => ?_
  obtain ⟨hrest, hfile₃⟩ := hw
  refine Machine.Promises.pure fun w' hw' => ?_
  obtain ⟨hR, hrest'⟩ := Besides.star hw'
  exact ⟨rfl, hrest'.trans hrest, fun hk hkf => (hfile₃ hk).star hR hkf⟩

end Receiver

/-! ### The sender -/

/-- The hello of the sender. -/
def helloOf (env : Env) (id token here : String) (fileLen : Nat) (crc : UInt32) : Hello where
  protoVersion := protoVersion
  producer := "mincontainer/0.1.0"
  containerId := id
  sourceHost := here
  sourceArch := env.arch
  snapshotBytes := fileLen
  snapshotCrc32 := crc
  token := token

/-- A run of the program that returned wrote exactly these bytes; if it failed, one of its calls did. -/
structure Says (x : HostM Unit) (data : Bytes) : Prop where
  returned : ∀ {R : Host → Host → Prop} {h h' : Host} {tr : List HostSig.Event}
    {res : Except RuntimeError Unit}, Runs R x h tr (some res) h' →
      res = .ok () ∧ sent tr = data ∨ (∃ e, res = .error e) ∧ ∃ e ∈ tr, failed e = true

namespace Says

variable {x y : HostM Unit} {a b : Bytes}

lemma nothing : Says (pure ()) [] := by
  refine ⟨fun hrun => ?_⟩
  obtain ⟨rfl, -, rfl⟩ := Exec.ret_some_inv hrun
  exact .inl ⟨rfl, rfl⟩

/-- One after the other. -/
lemma seq (hx : Says x a) (hy : Says y b) : Says (x >>= fun _ => y) (a ++ b) := by
  refine ⟨fun hrun => ?_⟩
  rcases Exec.fallible_bind_inv hrun with ⟨hout, -⟩ | ⟨e, hout, h₁⟩ | ⟨u, tr₁, tr₂, g, rfl, h₁, h₂⟩
  · cases hout
  · obtain rfl := Option.some.inj hout
    rcases hx.returned h₁ with ⟨hres, -⟩ | herr
    · cases hres
    · exact .inr herr
  · rcases hx.returned h₁ with ⟨-, hsent⟩ | ⟨⟨e, hres⟩, -⟩
    · rcases hy.returned h₂ with ⟨hres, hsent'⟩ | ⟨hres, e, he, hfailed⟩
      · exact .inl ⟨hres, by rw [sent_append, hsent, hsent']⟩
      · exact .inr ⟨hres, e, List.mem_append_right _ he, hfailed⟩
    · cases hres

end Says

lemma says_writeAll (data : Bytes) : Says (writeAll data) data := by
  refine ⟨fun hrun => ?_⟩
  obtain ⟨g, r, tr, -, -, rfl, hrun'⟩ := Exec.call_some_inv hrun
  rcases r with ⟨k, e⟩ | u
  · obtain ⟨rfl, -, rfl⟩ := Exec.ret_some_inv hrun'
    exact .inr ⟨⟨_, rfl⟩, _, List.mem_cons_self, rfl⟩
  · obtain ⟨rfl, -, rfl⟩ := Exec.ret_some_inv hrun'
    exact .inl ⟨rfl, by simp [sent, puts]⟩

lemma says_writeFrame {t : FrameType} {payload : Bytes} (hlen : payload.length < 2 ^ 32) :
    Says (writeFrame t payload) (frame t payload) := by
  rw [writeFrame, if_pos hlen]
  exact (says_writeAll _).seq ((says_writeAll _).seq (says_writeAll _))

lemma says_flush (what : String) : Says (flush what) [] := by
  refine ⟨fun hrun => ?_⟩
  obtain ⟨g, r, tr, -, -, rfl, hrun'⟩ := Exec.call_some_inv hrun
  rcases r with e | u
  · obtain ⟨rfl, -, rfl⟩ := Exec.ret_some_inv hrun'
    exact .inr ⟨⟨_, rfl⟩, _, List.mem_cons_self, rfl⟩
  · obtain ⟨rfl, -, rfl⟩ := Exec.ret_some_inv hrun'
    exact .inl ⟨rfl, by simp [sent, puts]⟩

lemma says_sendChunks {chunks : List Bytes} (h : ∀ b ∈ chunks, b.length ≤ chunkSize) :
    Says (sendChunks chunks) (chunks.flatMap (frame .chunk)) := by
  induction chunks with
  | nil => exact Says.nothing
  | cons b bs ih =>
    have hb : b.length < 2 ^ 32 := lt_of_le_of_lt (h b List.mem_cons_self) (by decide)
    exact (says_writeFrame hb).seq (ih fun c hc => h c (List.mem_cons_of_mem _ hc))

/-! ### Chunks -/

/-- The pieces are the content, cut into bytes that fit a chunk.

**Proof sketch.** Induction on the number of pieces that may still come, which is at least the length
of what is left. -/
lemma cut_spec {n k : ℕ} {b : Bytes} (hn : 0 < n) (hk : b.length ≤ k) :
    (cut n k b).flatten = b ∧ ∀ c ∈ cut n k b, 0 < c.length ∧ c.length ≤ n := by
  induction k generalizing b with
  | zero =>
    obtain rfl : b = [] := List.length_eq_zero_iff.mp (by omega)
    exact ⟨rfl, List.forall_mem_nil _⟩
  | succ k ih =>
    rw [cut]
    split
    · rename_i hb
      exact ⟨hb.symm, List.forall_mem_nil _⟩
    · rename_i hb
      have hpos : 0 < b.length := List.length_pos_iff.mpr hb
      obtain ⟨hflat, hall⟩ := ih (b := b.drop n) (by rw [List.length_drop]; omega)
      refine ⟨by rw [List.flatten_cons, hflat, List.take_append_drop], ?_⟩
      refine List.forall_mem_cons.mpr ⟨?_, hall⟩
      rw [List.length_take]
      omega

/-- The reads of a file, cut into chunks: the content, in pieces of one byte to a chunk. -/
lemma pieces_spec (chunks : List Bytes) :
    (pieces chunks).flatten = chunks.flatten ∧
      ∀ c ∈ pieces chunks, 0 < c.length ∧ c.length ≤ chunkSize := by
  induction chunks with
  | nil => exact ⟨rfl, List.forall_mem_nil _⟩
  | cons b bs ih =>
    obtain ⟨hflat, hall⟩ := cut_spec (n := chunkSize) (k := b.length) (by decide) (le_refl b.length)
    have hcons : pieces (b :: bs) = cut chunkSize b.length b ++ pieces bs := List.flatMap_cons
    rw [hcons, List.flatten_append, hflat, ih.1, List.flatten_cons]
    exact ⟨rfl, fun c hc => (List.mem_append.mp hc).elim (hall c) (ih.2 c)⟩

/-- There are no more pieces than bytes. -/
lemma length_le_of_pos {chunks : List Bytes} (h : ∀ c ∈ chunks, 0 < c.length) :
    chunks.length ≤ chunks.flatten.length := by
  induction chunks with
  | nil => exact le_rfl
  | cons b bs ih =>
    have hb := h b List.mem_cons_self
    have hbs := ih fun c hc => h c (List.mem_cons_of_mem _ hc)
    simp only [List.length_cons, List.flatten_cons, List.length_append]
    omega

section Sender

variable {R : Host → Host → Prop} {env : Env} {proto : Protocol} {id target token : String}
  {snapshot : PathBuf} {h h' : Host} {tr : List HostSig.Event} {c : Content}

/-- Reading a file that does not change: it is there, and the pieces make it up. -/
lemma readWhole_ok {f g : String → RuntimeError} {chunks : List Bytes} (hk : Keeps R snapshot.path)
    (hc : h.file snapshot.path = some c)
    (hrun : Runs R (readWhole snapshot f g) h tr (some (.ok chunks)) h') : chunks.flatten = c.raw := by
  obtain ⟨h₁, r, tr₁, hR, -, rfl, hrun₁⟩ := Exec.call_some_inv hrun
  rcases r with e | n
  · obtain ⟨-, -, hres⟩ := Exec.ret_some_inv hrun₁
    cases hres
  obtain ⟨h₂, r, tr₂, hR', hr, rfl, hrun₂⟩ := Exec.call_some_inv hrun₁
  have hfile : h₂.file snapshot.path = some c := by
    rw [hk.star hR']
    exact (hk.star hR).trans hc
  obtain ⟨chunks', e⟩ := r
  cases e with
  | some e =>
    obtain ⟨-, -, hres⟩ := Exec.ret_some_inv hrun₂
    cases hres
  | none =>
    obtain ⟨-, -, hres⟩ := Exec.ret_some_inv hrun₂
    obtain rfl := Except.ok.inj hres
    exact Host.enabled_readAll hfile hr

/-- The checksum of a file that does not change. -/
lemma crcOfFile_ok {crc : UInt32} (hk : Keeps R snapshot.path) (hc : h.file snapshot.path = some c)
    (hrun : Runs R (crcOfFile snapshot) h tr (some (.ok crc)) h') : crc = crc32 c.raw := by
  obtain ⟨chunks, tr₁, tr₂, h₁, rfl, hread, hret⟩ := Exec.fallible_bind_ok hrun
  obtain ⟨-, -, hres⟩ := Exec.ret_some_inv hret
  rw [Except.ok.inj hres, finish_foldl_update, readWhole_ok hk hc hread]

/-- The hello, as it was sent. -/
lemma sayHello_ok {n : ℕ} {crc : UInt32} {u : Unit}
    (hsize : ∀ here : String, ⟨.hostname, here⟩ ∈ tr →
      (proto.hello.encode (helloOf env id token here n crc)).length ≤ 4 * 1024 * 1024)
    (hrun : Runs R (sayHello env proto id token n crc) h tr (some (.ok u)) h') :
    ∃ here : String, ⟨.hostname, here⟩ ∈ tr ∧
      sent tr = frame .hello (proto.hello.encode (helloOf env id token here n crc)) := by
  obtain ⟨g, here, tr₁, -, -, rfl, hrun₁⟩ := Exec.call_some_inv hrun
  change Runs R (writeFrame .hello (proto.hello.encode (helloOf env id token here n crc)) >>= fun _ =>
    flush "flush hello") _ _ _ _ at hrun₁
  have hlen := lt_of_le_of_lt (hsize here List.mem_cons_self)
    (show 4 * 1024 * 1024 < 2 ^ 32 by decide)
  rcases ((says_writeFrame hlen).seq (says_flush _)).returned hrun₁ with ⟨-, hsent⟩ | ⟨⟨e, hres⟩, -⟩
  · refine ⟨here, List.mem_cons_self, ?_⟩
    rw [List.append_nil] at hsent
    exact hsent
  · cases hres

/-- **The announcement.** The sender tells the length and the checksum of the file, and that is all it
wrote by the time the handshake is accepted. -/
lemma announce_ok {n : ℕ} {crc : UInt32} (hk : Keeps R snapshot.path)
    (hc : h.file snapshot.path = some c)
    (hsize : ∀ here : String, ⟨.hostname, here⟩ ∈ tr →
      (proto.hello.encode (helloOf env id token here c.raw.length (crc32 c.raw))).length ≤
        4 * 1024 * 1024)
    (hrun : Runs R (announce env proto id snapshot target token) h tr (some (.ok (n, crc))) h') :
    n = c.raw.length ∧ crc = crc32 c.raw ∧ h'.file snapshot.path = some c ∧
      ∃ here : String, ⟨.hostname, here⟩ ∈ tr ∧
        sent tr = frame .hello (proto.hello.encode (helloOf env id token here n crc)) := by
  have hkept : h'.file snapshot.path = some c :=
    (Runs.file_kept_of_reads hk (announce_reads id snapshot target token) hrun).trans hc
  obtain ⟨addr, tr₁, tr₂, h₁, rfl, hresolve, hrun₁⟩ := Exec.fallible_bind_ok hrun
  have hc₁ : h₁.file snapshot.path = some c :=
    (Runs.file_kept_of_reads hk (within_resolveTarget (fun _ => rfl) _) hresolve).trans hc
  obtain ⟨h₂, r, tr₃, hR, hr, rfl, hrun₂⟩ := Exec.call_some_inv hrun₁
  have hc₂ : h₂.file snapshot.path = some c := (hk.star hR).trans hc₁
  rcases r with e | len
  · obtain ⟨-, -, hres⟩ := Exec.ret_some_inv hrun₂
    cases hres
  obtain rfl : c.raw.length = len := by
    have hlen := Host.enabled_openFile.mp hr
    rw [hc₂] at hlen
    exact Option.some.inj hlen
  change Runs R (crcOfFile snapshot >>= fun crc => sys (.connect addr) >>= fun r =>
    orErr r (fun e => .migration s!"connect to {target}: {e}") >>= fun _ =>
      sayHello env proto id token c.raw.length crc >>= fun _ => awaitAck env proto target >>= fun _ =>
        pure (c.raw.length, crc)) _ _ _ _ at hrun₂
  obtain ⟨crc', tr₄, tr₅, h₃, rfl, hcrc, hrun₃⟩ := Exec.fallible_bind_ok hrun₂
  obtain rfl : crc' = crc32 c.raw := crcOfFile_ok hk hc₂ hcrc
  obtain ⟨h₄, r, tr₆, -, -, rfl, hrun₄⟩ := Exec.call_some_inv hrun₃
  rcases r with e | u
  · obtain ⟨-, -, hres⟩ := Exec.ret_some_inv hrun₄
    cases hres
  change Runs R (sayHello env proto id token c.raw.length (crc32 c.raw) >>= fun _ =>
    awaitAck env proto target >>= fun _ => pure (c.raw.length, crc32 c.raw)) _ _ _ _ at hrun₄
  obtain ⟨_, tr₇, tr₈, h₅, rfl, hhello, hrun₅⟩ := Exec.fallible_bind_ok hrun₄
  obtain ⟨_, tr₉, tr₁₀, h₆, rfl, hack, hrun₆⟩ := Exec.fallible_bind_ok hrun₅
  obtain ⟨rfl, -, hres⟩ := Exec.ret_some_inv hrun₆
  cases hres
  have h1 : sent tr₁ = [] := Runs.sent_nil (within_resolveTarget (fun _ => rfl) _) hresolve
  have hmute : (crcOfFile snapshot).run.Within fun o : HostOp => o.speaks = false := by
    refine Fallible.within_bind (within_readWhole ?_ ?_ _ _) fun _ => trivial <;> rfl
  have h4 : sent tr₄ = [] := Runs.sent_nil hmute hcrc
  have h9 : sent tr₉ = [] := Runs.sent_nil (within_awaitAck (fun _ => rfl) _) hack
  obtain ⟨here, hmem, hsent⟩ := sayHello_ok (fun here hhere => hsize here (by simp [hhere])) hhello
  refine ⟨rfl, rfl, hkept, here, by simp [hmem], ?_⟩
  have hopen : ∀ tr, sent (⟨.openFile snapshot.path, (.ok c.raw.length : Except String ℕ)⟩ :: tr) =
      sent tr := fun tr => rfl
  have hconnect : ∀ tr, sent (⟨.connect addr, (.ok u : Except String Unit)⟩ :: tr) = sent tr :=
    fun tr => rfl
  rw [sent_append, hopen, sent_append, hconnect, sent_append, sent_append, h1, h4, h9, hsent]
  simp

/-- **The stream.** Reads of a file that does not change make the sender write its content in chunks,
and an end frame; it never finds that the size changed. It fails only where one of its calls does. -/
lemma stream_says {crc : UInt32} {res : Except RuntimeError Unit} (hk : Keeps R snapshot.path)
    (hc : h.file snapshot.path = some c)
    (hsize : (proto.eof.encode ⟨c.raw.length, crc⟩).length ≤ 4 * 1024 * 1024)
    (hrun : Runs R (stream proto snapshot c.raw.length crc) h tr (some res) h') :
    (∃ e, res = .error e) ∧ (∃ e ∈ tr, failed e = true) ∨
      res = .ok () ∧ ∃ chunks : List Bytes, chunks.flatten = c.raw ∧
        (∀ b ∈ chunks, 0 < b.length ∧ b.length ≤ chunkSize) ∧
        sent tr = chunks.flatMap (frame .chunk) ++
          frame .eof (proto.eof.encode ⟨c.raw.length, crc⟩) := by
  obtain ⟨h₁, r, tr₁, hR, -, rfl, hrun₁⟩ := Exec.call_some_inv hrun
  rcases r with e | n
  · obtain ⟨rfl, -, rfl⟩ := Exec.ret_some_inv hrun₁
    exact .inl ⟨⟨_, rfl⟩, _, List.mem_cons_self, rfl⟩
  obtain ⟨h₂, ⟨reads, err⟩, tr₂, hR', hr, rfl, hrun₂⟩ := Exec.call_some_inv hrun₁
  have hfile : h₂.file snapshot.path = some c := by
    rw [hk.star hR']
    exact (hk.star hR).trans hc
  cases err with
  | some e =>
    refine .inl ⟨?_, ⟨.readAll snapshot.path, (reads, some e)⟩, by simp, rfl⟩
    have hthrow : Fallible.Obeys (fun _ => True) (fun _ => False) (sendChunks (pieces reads) >>= fun _ =>
        (throw (.migration s!"read snapshot: {e}") : HostM Unit)) :=
      Fallible.Obeys.bind (.of_within (Program.within_true _)) fun _ _ => Fallible.Obeys.throw _
    have hres := Exec.out_obeys hthrow hrun₂ _ rfl
    rcases res with e | u
    · exact ⟨e, rfl⟩
    · exact (hres u rfl).elim
  | none =>
    have hreads := Host.enabled_readAll hfile hr
    obtain ⟨hflat, hall⟩ := pieces_spec reads
    change Runs R (sendChunks (pieces reads) >>= fun _ =>
      if reads.flatten.length ≠ c.raw.length then throw _
      else writeFrame .eof (proto.eof.encode ⟨reads.flatten.length, crc⟩) >>= fun _ =>
        flush "flush") _ _ _ _ at hrun₂
    rw [hreads, if_neg (not_not.mpr rfl)] at hrun₂
    have hlen := lt_of_le_of_lt hsize (show 4 * 1024 * 1024 < 2 ^ 32 by decide)
    have hsays := (says_sendChunks fun b hb => (hall b hb).2).seq
      ((says_writeFrame (t := .eof) hlen).seq (says_flush "flush"))
    rcases hsays.returned hrun₂ with ⟨hres, hsent⟩ | ⟨herr, e, he, hfailed⟩
    · refine .inr ⟨hres, pieces reads, hflat.trans hreads, hall, ?_⟩
      rw [List.append_nil] at hsent
      exact hsent
    · exact .inl ⟨herr, e, by simp [he], hfailed⟩

end Sender

/-! ### The transfer -/

/-- The message fits a control frame and is read back as it was. -/
structure Codes {α : Type} (c : Codec α) (a : α) : Prop where
  fits : (c.encode a).length ≤ maxControlFrame
  roundTrips : c.RoundTrips a

/-- A receiver whose connection delivers these bytes and who accepts the handshake is led to the
commit of the content: over what is left of the bytes its receive loop gets stuck nowhere, fails in a
call on its own files only, and when it ends the committed file holds the content. -/
def LeadTo (proto : Protocol) (bytes content : Bytes) : Prop :=
  ∀ (R : Host → Host → Prop) (env : Env) (token : String) (fuel : ℕ) (h h' : Host)
    (tr : List HostSig.Event) (hello : Hello) (rest : Bytes), content.length < fuel →
    Runs R (greet env proto token) h tr (some (.ok hello)) h' → remaining bytes tr = some rest →
    Delivers R (fun final w => final = finalFile env hello ∧ w.2 = [] ∧
        (Keeps R (partFile env hello).path → Keeps R final.path →
          w.1.file final.path = some (.bytes content)))
      (LocalFailure env hello) (receiveFile env proto fuel hello) (h', rest)

/-- Frames of one type in front of the same bytes are the same. -/
lemma frame_inj {t : FrameType} {a b x y : Bytes} (ha : a.length ≤ 4 * 1024 * 1024)
    (hb : b.length ≤ 4 * 1024 * 1024) (h : frame t a ++ x = frame t b ++ y) : a = b ∧ x = y := by
  have hcap : 4 * 1024 * 1024 < 256 ^ 4 := by decide
  simp only [frame, List.cons_append, List.append_assoc, List.cons.injEq, true_and] at h
  obtain ⟨hlen, hrest⟩ := List.append_inj h (by rw [length_toBE, length_toBE])
  have hab : a.length = b.length := by
    rw [← ofBE_toBE_of_lt (lt_of_le_of_lt ha hcap), hlen, ofBE_toBE_of_lt (lt_of_le_of_lt hb hcap)]
  exact List.append_inj hrest hab

/-- The frames of an honest sender lead the receiver to the commit of the content. -/
lemma leadTo_frames {proto : Protocol} {hello : Hello} {content : Bytes} {chunks : List Bytes}
    {eof : Eof} (hhello : Codes proto.hello hello) (heof : Codes proto.eof eof)
    (hchunks : ∀ b ∈ chunks, 0 < b.length ∧ b.length ≤ chunkSize) (hcontent : chunks.flatten = content)
    (hbytes : eof.bytes = content.length) (hcrc : eof.crc32 = crc32 content)
    (hcap : hello.snapshotBytes = content.length) (hsum : hello.snapshotCrc32 = crc32 content) :
    LeadTo proto (frame .hello (proto.hello.encode hello) ++
      (chunks.flatMap (frame .chunk) ++ frame .eof (proto.eof.encode eof))) content := by
  intro R env token fuel h h' tr hello' rest hfuel hgreet hdel
  obtain ⟨-, -, hok, opening, hreceived, hlen, hdec⟩ := greet_opens hgreet
  have hinput := remaining_received hdel hok
  rw [hreceived] at hinput
  obtain ⟨rfl, rfl⟩ := frame_inj hhello.fits hlen hinput
  obtain rfl : hello = hello' := Except.ok.inj (hhello.roundTrips.symm.trans hdec)
  subst hcontent
  rw [← List.append_nil (frame .eof (proto.eof.encode eof))]
  refine delivers_receiveFile (fun b hb => (hchunks b hb).2.trans (by decide)) heof.fits
    heof.roundTrips hbytes hcrc hsum hcap.ge ?_
  exact lt_of_le_of_lt (length_le_of_pos fun b hb => (hchunks b hb).1) hfuel

/-- **An honest transfer.** The file does not change while it is sent, its hello fits a control frame,
and the handshake is accepted. Then, however the reads of the sender split the content, streaming
fails only where one of its own calls does, and otherwise what was written are a hello, chunks of the
content and an end frame, which lead the receiver to the commit of the very same content.

**Proof sketch.** The checksum of the earlier pass is that of the content, since a checksum does not
depend on how a stream is cut. The receiver's counter and checksum follow the chunks, and at the end
frame both are those of the whole content. -/
theorem honest_delivers {R : Host → Host → Prop} {env : Env} {proto : Protocol}
    {id target token : String} {snapshot : PathBuf} {h g g' : Host} {tr₁ tr₂ : List HostSig.Event}
    {c : Content} {x : ℕ × UInt32} {res : Except RuntimeError Unit}
    (hk : Keeps R snapshot.path) (hc : h.file snapshot.path = some c)
    (hhello : ∀ here : String, ⟨.hostname, here⟩ ∈ tr₁ →
      Codes proto.hello (helloOf env id token here c.raw.length (crc32 c.raw)))
    (heof : Codes proto.eof ⟨c.raw.length, crc32 c.raw⟩)
    (hannounce : Runs R (announce env proto id snapshot target token) h tr₁ (some (.ok x)) g)
    (hstream : Runs R (stream proto snapshot x.1 x.2) g tr₂ (some res) g') :
    (sendSnapshot env proto id snapshot target token =
      announce env proto id snapshot target token >>= fun x =>
        stream proto snapshot x.1 x.2 >>= fun _ => collect proto target x.1) ∧
    ((∃ e, res = .error e) ∧ (∃ e ∈ tr₂, failed e = true) ∨
      res = .ok () ∧ ∃ (here : String) (chunks : List Bytes), chunks.flatten = c.raw ∧
        (∀ b ∈ chunks, 0 < b.length ∧ b.length ≤ chunkSize) ∧
        sent (tr₁ ++ tr₂) =
          frame .hello (proto.hello.encode (helloOf env id token here c.raw.length (crc32 c.raw))) ++
            (chunks.flatMap (frame .chunk) ++
              frame .eof (proto.eof.encode ⟨c.raw.length, crc32 c.raw⟩)) ∧
        LeadTo proto (sent (tr₁ ++ tr₂)) c.raw) := by
  obtain ⟨n, crc⟩ := x
  obtain ⟨rfl, rfl, hc', here, hmem, hsent⟩ :=
    announce_ok hk hc (fun here hhere => (hhello here hhere).fits) hannounce
  refine ⟨sendSnapshot_eq id snapshot target token, ?_⟩
  rcases stream_says hk hc' heof.fits hstream with herr | ⟨hres, chunks, hflat, hall, hsent'⟩
  · exact .inl herr
  · refine .inr ⟨hres, here, chunks, hflat, hall, ?_, ?_⟩
    · rw [sent_append, hsent, hsent']
    · rw [sent_append, hsent, hsent']
      exact leadTo_frames (hhello here hmem) heof hall hflat rfl rfl rfl rfl

end Transport

/-! ### A transfer of one byte -/

namespace Demo

/-- The receiver accepts the handshake. -/
def accepting : ℕ → Host → (o : HostOp) → Option o.Reply
  | _, _, .hostname => some "peer"
  | _, _, .recv 5 => some (.ok (2 :: toBE 4 ((protocol "web").helloAck.encode
      ⟨1, true, "node", "x86_64", ""⟩).length))
  | _, _, .recv n => some (.ok (((protocol "web").helloAck.encode
      ⟨1, true, "node", "x86_64", ""⟩).take n))
  | _, _, _ => none

/-- A snapshot file. -/
def shipped : PathBuf := ⟨"/root/web.mcsnap", []⟩

/-- A host that holds it. -/
def sender : Host := host frozen [(shipped.path, .bytes [1])] []

lemma only_roundTrips {α : Type} (text : String) (v : α) : (only text v).RoundTrips v := if_pos rfl

lemma codes_hello : Transport.Codes (protocol "web").hello (Transport.helloOf env "web" "secret" "peer" 1
    (crc32 [1])) := by
  have hhello : Transport.helloOf env "web" "secret" "peer" 1 (crc32 [1]) = hello "web" := by
    decide +kernel
  rw [hhello]
  exact ⟨by decide +kernel, only_roundTrips _ _⟩

lemma codes_eof : Transport.Codes (protocol "web").eof ⟨1, crc32 [1]⟩ := by
  have heof : (⟨1, crc32 [1]⟩ : Eof) = ⟨1, 2768625435⟩ := by decide +kernel
  rw [heof]
  exact ⟨by decide +kernel, only_roundTrips _ _⟩

end Demo

namespace Transport

/-- A snapshot of one byte: the sender gets through, and leads its receiver to commit that byte. -/
theorem honest_delivers_demo : ∃ tr₁ tr₂ x g g',
    Runs quiet (announce Demo.env (Demo.protocol "web") "web" Demo.shipped "node" "secret")
      Demo.sender tr₁ (some (.ok x)) g ∧
    Runs quiet (stream (Demo.protocol "web") Demo.shipped x.1 x.2) g tr₂ (some (.ok ())) g' ∧
    LeadTo (Demo.protocol "web") (sent (tr₁ ++ tr₂)) [1] := by
  have hannounce : ((machine.drive (departing Demo.accepting) 20 0
      (announce Demo.env (Demo.protocol "web") "web" Demo.shipped "node" "secret").run
      Demo.sender).map fun x => (x.2.1, x.2.2, x.1.all (Demo.tellsName "peer"))) = some (some (.ok (1, 2768625435)), Demo.sender, true) := by
    decide +kernel
  obtain ⟨⟨tr₁, out, g⟩, hx, hres⟩ := Option.map_eq_some_iff.mp hannounce
  simp only [Prod.mk.injEq] at hres
  obtain ⟨rfl, rfl, hhere⟩ := hres
  have hrun₁ := Machine.drive_exec hx
  have hstream : ((machine.drive obliging 20 0
      (stream (Demo.protocol "web") Demo.shipped 1 2768625435).run Demo.sender).map fun x =>
        (x.2.1, x.2.2)) = some (some (.ok ()), Demo.sender) := by
    decide +kernel
  obtain ⟨⟨tr₂, out, g'⟩, hy, hres⟩ := Option.map_eq_some_iff.mp hstream
  simp only [Prod.mk.injEq] at hres
  obtain ⟨rfl, rfl⟩ := hres
  have hrun₂ := Machine.drive_exec hy
  refine ⟨tr₁, tr₂, (1, 2768625435), Demo.sender, Demo.sender, hrun₁, hrun₂, ?_⟩
  have hsent := honest_delivers (c := .bytes [1]) (keeps_quiet _) (by decide +kernel)
    (fun here hmem => ?_) Demo.codes_eof hrun₁ hrun₂
  · rcases hsent.2 with ⟨⟨e, hres⟩, -⟩ | ⟨-, here, chunks, -, -, -, hlead⟩
    · cases hres
    · exact hlead
  · have hpeer : here = "peer" := of_decide_eq_true (List.all_eq_true.mp hhere _ hmem)
    rw [hpeer]
    exact Demo.codes_hello

end Transport

end Mincontainer
