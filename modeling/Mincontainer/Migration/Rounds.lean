import Mincontainer.Migration.Gate

set_option relaxedAutoImplicit false
set_option autoImplicit false

/-!
# How long a peer can keep the receiver

The receive loop reads a frame a round: its header, and then its payload. A chunk that carries data
uses up a part of what the hello announced. A chunk without data uses up nothing, and the receiver
takes as many of these as the peer sends.

## Main definitions

* `Mincontainer.heard` — what the reads of a trace returned.
* `Mincontainer.Transport.rounds`, `Mincontainer.Transport.empties` — the frames that were read, and
  the empty chunks among them.

## Main results

* `Mincontainer.Transport.receive_rounds` — the loop reads no more frames than the announced bytes and
  the empty chunks account for.
* `Mincontainer.Transport.rounds_bounded_iff` — for which peers the number of frames is bounded.
-/

namespace Mincontainer

open Effects Files Bytes

/-! ### What the reads returned -/

/-- What a read of the stream returned. -/
def hearing : HostSig.Event → Option (Except String Bytes)
  | ⟨.recv _, r⟩ => some r
  | _ => none

/-- What the reads of the stream returned, one after the other. -/
def heard (tr : List HostSig.Event) : List (Except String Bytes) := tr.filterMap hearing

@[simp] lemma heard_nil : heard [] = [] := rfl

@[simp] lemma heard_append (tr tr' : List HostSig.Event) : heard (tr ++ tr') = heard tr ++ heard tr' :=
  List.filterMap_append

@[simp] lemma heard_recv (n : ℕ) (r : Except String Bytes) (tr : List HostSig.Event) :
    heard (⟨.recv n, r⟩ :: tr) = r :: heard tr := rfl

lemma heard_of_deaf {tr : List HostSig.Event} (h : ∀ e ∈ tr, e.1.hears = false) : heard tr = [] := by
  refine List.filterMap_eq_nil_iff.mpr fun e he => ?_
  obtain ⟨o, r⟩ := e
  cases o <;> first | rfl | cases h _ he

section

variable {α : Type} {R : Host → Host → Prop} {h h' : Host} {tr : List HostSig.Event}

/-- A program that reads nothing from the stream hears nothing. -/
lemma Runs.heard_nil {x : HostM α} {out : Option (Except RuntimeError α)}
    (hx : x.run.Within fun o : HostOp => o.hears = false) (hrun : Runs R x h tr out h') :
    heard tr = [] :=
  heard_of_deaf (Exec.mem_within hx hrun)

/-- One exact read: it was made, unless the run was cut before, and its result decides the outcome. -/
lemma readExact_inv {n : ℕ} {f : String → RuntimeError} {out : Option (Except RuntimeError Bytes)}
    (hrun : Runs R (readExact n f) h tr out h') :
    (tr = [] ∧ out = none) ∨ ∃ r : Except String Bytes, tr = [⟨.recv n, r⟩] ∧
      (out = none ∨ out = some (r.mapError f)) ∧ ∀ b, r = .ok b → b.length = n := by
  obtain ⟨h₁, hR, ⟨rfl, rfl, rfl⟩ | ⟨r, tr', hr, rfl, hrun₁⟩⟩ := Exec.call_inv hrun
  · exact .inl ⟨rfl, rfl⟩
  refine .inr ⟨r, ?_⟩
  rcases r with e | b
  · obtain ⟨rfl, -, hout⟩ := Exec.ret_inv hrun₁
    exact ⟨rfl, hout, by rintro b ⟨⟩⟩
  · obtain ⟨rfl, -, hout⟩ := Exec.ret_inv hrun₁
    refine ⟨rfl, hout, ?_⟩
    rintro c ⟨⟩
    exact Host.enabled_recv.mp hr

/-- What the result of the read makes of a header. -/
def readsHeader (r : Except String Bytes) : Except RuntimeError (FrameType × ℕ) :=
  r.mapError (fun e => .migration s!"read frame header: {e}") >>= parseHeader

lemma readsHeader_ok {r : Except String Bytes} {t : FrameType} {n : ℕ}
    (h : readsHeader r = .ok (t, n)) : ∃ hdr, r = .ok hdr ∧ parseHeader hdr = .ok (t, n) := by
  rcases r with e | hdr
  · cases h
  · exact ⟨hdr, rfl, h⟩

/-- Reading a header is one read, whose result decides the outcome. -/
lemma readHeader_inv {out : Option (Except RuntimeError (FrameType × ℕ))}
    (hrun : Runs R readHeader h tr out h') :
    (heard tr = [] ∧ out = none) ∨ ∃ r : Except String Bytes, heard tr = [r] ∧
      (out = none ∨ out = some (readsHeader r)) := by
  rw [readHeader_eq] at hrun
  rcases Exec.fallible_bind_inv hrun with ⟨rfl, h₁⟩ | ⟨e, rfl, h₁⟩ | ⟨hdr, tr₁, tr₂, g, rfl, h₁, h₂⟩
  · rcases readExact_inv h₁ with ⟨rfl, -⟩ | ⟨r, rfl, -, -⟩
    · exact .inl ⟨rfl, rfl⟩
    · exact .inr ⟨r, rfl, .inl rfl⟩
  · rcases readExact_inv h₁ with ⟨-, hout⟩ | ⟨r, rfl, hout, -⟩
    · cases hout
    · rcases r with m | b <;> rcases hout with hout | hout <;> cases hout
      exact .inr ⟨_, rfl, .inr rfl⟩
  · rcases readExact_inv h₁ with ⟨-, hout⟩ | ⟨r, rfl, hout, -⟩
    · cases hout
    have hdeaf : heard tr₂ = [] := Runs.heard_nil (within_ofExcept _) h₂
    refine .inr ⟨r, by rw [heard_append, hdeaf]; rfl, ?_⟩
    rcases r with m | b <;> rcases hout with hout | hout <;> cases hout
    change out = none ∨ out = some (parseHeader hdr)
    cases hparse : parseHeader hdr <;> rw [hparse] at h₂ <;> exact (Exec.ret_inv h₂).2.2

lemma readPayload_inv {n : ℕ} {out : Option (Except RuntimeError Bytes)}
    (hrun : Runs R (readPayload n) h tr out h') :
    (heard tr = [] ∧ out = none) ∨ ∃ r : Except String Bytes, heard tr = [r] ∧
      (out = none ∨ out = some (r.mapError fun e => .migration s!"read frame payload: {e}")) ∧
      ∀ b, r = .ok b → b.length = n := by
  rcases readExact_inv hrun with ⟨rfl, hout⟩ | ⟨r, rfl, hout, hlen⟩
  · exact .inl ⟨rfl, hout⟩
  · exact .inr ⟨r, rfl, hout, hlen⟩

/-- A header that was read. -/
lemma readHeader_heard {t : FrameType} {n : ℕ}
    (hrun : Runs R readHeader h tr (some (.ok (t, n))) h') :
    ∃ hdr, heard tr = [.ok hdr] ∧ parseHeader hdr = .ok (t, n) := by
  rcases readHeader_inv hrun with ⟨-, hout⟩ | ⟨r, hr, hout⟩
  · cases hout
  · obtain ⟨hdr, rfl, hparse⟩ := readsHeader_ok (Option.some.inj (hout.resolve_left (by rintro ⟨⟩))).symm
    exact ⟨hdr, hr, hparse⟩

/-- A payload that was read. -/
lemma readPayload_heard {n : ℕ} {body : Bytes}
    (hrun : Runs R (readPayload n) h tr (some (.ok body)) h') :
    heard tr = [.ok body] ∧ body.length = n := by
  rcases readPayload_inv hrun with ⟨-, hout⟩ | ⟨r, hr, hout, hlen⟩
  · cases hout
  · rcases r with m | b <;> rcases hout with hout | hout <;> cases hout
    exact ⟨hr, hlen _ rfl⟩

lemma readHeader_heard_le {out : Option (Except RuntimeError (FrameType × ℕ))}
    (hrun : Runs R readHeader h tr out h') : (heard tr).length ≤ 1 := by
  rcases readHeader_inv hrun with ⟨hnil, -⟩ | ⟨r, hr, -⟩
  · rw [hnil]
    exact Nat.zero_le 1
  · rw [hr]
    exact le_rfl

lemma readPayload_heard_le {n : ℕ} {out : Option (Except RuntimeError Bytes)}
    (hrun : Runs R (readPayload n) h tr out h') : (heard tr).length ≤ 1 := by
  rcases readPayload_inv hrun with ⟨hnil, -⟩ | ⟨r, hr, -⟩
  · rw [hnil]
    exact Nat.zero_le 1
  · rw [hr]
    exact le_rfl

/-- Giving up by hand reads nothing. -/
lemma giveUp_deaf (p : Path) (e : RuntimeError) :
    (sys (.removeFile p) >>= fun _ => throw e : HostM α).run.Within fun o : HostOp =>
      o.hears = false :=
  Fallible.within_bind ((within_sys (.removeFile p)).mpr rfl) fun _ => trivial

end

namespace Transport

/-! ### Rounds -/

/-- The headers among the reads of the loop: every other one. -/
def headers : List (Except String Bytes) → List (Except String Bytes)
  | [] => []
  | [r] => [r]
  | r :: _ :: rs => r :: headers rs

/-- The frames that the loop read, or began to read. -/
def rounds (tr : List HostSig.Event) : ℕ := (headers (heard tr)).length

/-- The header of a chunk without data. -/
def isEmptyChunk : Except String Bytes → Bool
  | .ok hdr => match parseHeader hdr with
    | .ok (.chunk, n) => n = 0
    | _ => false
  | .error _ => false

/-- The empty chunks among the frames. -/
def empties (tr : List HostSig.Event) : ℕ := (headers (heard tr)).countP isEmptyChunk

lemma empties_le_rounds (tr : List HostSig.Event) : empties tr ≤ rounds tr := List.countP_le_length

lemma rounds_le_one {tr : List HostSig.Event} (h : (heard tr).length ≤ 2) : rounds tr ≤ 1 := by
  rw [rounds]
  generalize heard tr = l at h
  rcases l with _ | ⟨r, _ | ⟨r', _ | ⟨r'', l⟩⟩⟩
  · exact Nat.zero_le 1
  · exact le_rfl
  · exact le_rfl
  · simp at h

section

variable {env : Env} {proto : Protocol} {fuel : ℕ} {R : Host → Host → Prop} {h h' : Host}
  {tr : List HostSig.Event} {part : PathBuf} {hello : Hello} {n : ℕ} {crc : Crc32}

/-- The end of a transfer takes one read at most. -/
lemma checkEof_heard {len : ℕ} {out : Option (Except RuntimeError Unit)}
    (hrun : Runs R (checkEof proto part hello n crc len) h tr out h') : (heard tr).length ≤ 1 := by
  rcases Exec.fallible_bind_inv hrun with ⟨-, h₁⟩ | ⟨e, -, h₁⟩ | ⟨body, tr₁, tr₂, g, rfl, h₁, h₂⟩
  · exact readPayload_heard_le h₁
  · exact readPayload_heard_le h₁
  have hdeaf : heard tr₂ = [] := by
    refine Runs.heard_nil (Fallible.within_bind ?_ fun eof => ?_) h₂
    · split <;> exact trivial
    · refine Fallible.within_bind ((within_appendTo _ _ _).mpr rfl) fun _ => ?_
      dsimp only
      split
      · refine Fallible.within_bind ((within_sys (.removeFile _)).mpr rfl) fun _ => ?_
        refine Fallible.within_bind (within_writeFrame (fun _ => rfl) _ _) fun _ => ?_
        exact Fallible.within_bind ((within_sys .flush).mpr rfl) fun _ => trivial
      · exact trivial
  rw [heard_append, hdeaf, List.append_nil]
  exact readPayload_heard_le h₁

/-- **The rounds of the loop.** Each takes a part of what the hello announced, except for the empty
chunks and the last one.

**Proof sketch.** Induction on the rounds. A round that goes on read the header and the payload of a
chunk, and what is left of the announced bytes shrinks by its length, or the chunk is counted among the
empty ones. Any other round is the last. -/
lemma receive_rounds {out : Option (Except RuntimeError Unit)} (hn : n ≤ hello.snapshotBytes)
    (hrun : Runs R (receive proto part hello fuel n crc) h tr out h') :
    rounds tr + n ≤ hello.snapshotBytes + empties tr + 1 := by
  have hlast : ∀ {tr : List HostSig.Event}, (heard tr).length ≤ 2 →
      rounds tr + n ≤ hello.snapshotBytes + empties tr + 1 := fun h => by
    have := rounds_le_one h
    omega
  induction fuel generalizing h tr n crc with
  | zero =>
    refine hlast ?_
    rw [Runs.heard_nil (Fallible.within_bind ((within_sys .spin).mpr rfl) fun r => (r : Empty).elim) hrun]
    exact Nat.zero_le 2
  | succ fuel ih =>
    rcases Exec.fallible_bind_inv hrun with ⟨-, h₁⟩ | ⟨e, -, h₁⟩ |
      ⟨⟨t, len⟩, tr₁, tr₂, g, rfl, h₁, h₂⟩
    · exact hlast (by have := readHeader_heard_le h₁; omega)
    · exact hlast (by have := readHeader_heard_le h₁; omega)
    have hone := readHeader_heard_le h₁
    obtain ⟨hdr, htr₁, hparse⟩ := readHeader_heard h₁
    dsimp only at h₂
    split at h₂
    · -- a chunk
      rcases Exec.fallible_bind_inv h₂ with ⟨-, h₃⟩ | ⟨e, -, h₃⟩ | ⟨body, tr₃, tr₄, g₁, rfl, h₃, h₄⟩
      · exact hlast (by have := readPayload_heard_le h₃; rw [heard_append, List.length_append]; omega)
      · exact hlast (by have := readPayload_heard_le h₃; rw [heard_append, List.length_append]; omega)
      obtain ⟨htr₃, hlen⟩ := readPayload_heard h₃
      have hstop : heard tr₄ = [] → rounds (tr₁ ++ (tr₃ ++ tr₄)) + n ≤
          hello.snapshotBytes + empties (tr₁ ++ (tr₃ ++ tr₄)) + 1 := fun hnil => by
        refine hlast ?_
        rw [heard_append, heard_append, htr₁, htr₃, hnil]
        exact le_rfl
      have happend : (appendTo part.path body fun e =>
          .migration s!"write {part.text}: {e}").run.Within fun o : HostOp => o.hears = false :=
        (within_appendTo _ _ _).mpr rfl
      rcases Exec.fallible_bind_inv h₄ with ⟨-, h₅⟩ | ⟨e, -, h₅⟩ | ⟨_, tr₅, tr₆, g₂, rfl, h₅, h₆⟩
      · exact hstop (Runs.heard_nil happend h₅)
      · exact hstop (Runs.heard_nil happend h₅)
      have htr₅ : heard tr₅ = [] := Runs.heard_nil happend h₅
      split at h₆
      · refine hstop ?_
        rw [heard_append, htr₅, List.nil_append]
        exact Runs.heard_nil (giveUp_deaf _ _) h₆
      rename_i hcap
      have hrest := ih (Nat.le_of_not_lt hcap) h₆ fun htwo => by
        have := rounds_le_one htwo
        omega
      have hheard : heard (tr₁ ++ (tr₃ ++ (tr₅ ++ tr₆))) = .ok hdr :: .ok body :: heard tr₆ := by
        simp [htr₁, htr₃, htr₅]
      have hrounds : rounds (tr₁ ++ (tr₃ ++ (tr₅ ++ tr₆))) = rounds tr₆ + 1 := by
        rw [rounds, hheard]
        rfl
      have hempties : empties (tr₁ ++ (tr₃ ++ (tr₅ ++ tr₆))) =
          empties tr₆ + if isEmptyChunk (.ok hdr) then 1 else 0 := by
        rw [empties, hheard, headers, List.countP_cons]
        rfl
      rw [hrounds, hempties]
      simp only [isEmptyChunk, hparse, decide_eq_true_eq]
      split <;> omega
    · -- the end of the file
      have := checkEof_heard h₂
      exact hlast (by rw [heard_append, List.length_append]; omega)
    · -- any other frame ends the transfer
      have hdeaf : heard tr₂ = [] := Runs.heard_nil (giveUp_deaf _ _) h₂
      exact hlast (by rw [heard_append, hdeaf, List.append_nil]; omega)

/-- What is done before and after the loop reads nothing. -/
lemma receiveFile_rounds {out : Option (Except RuntimeError PathBuf)}
    (hrun : Runs R (receiveFile env proto fuel hello) h tr out h') :
    rounds tr ≤ hello.snapshotBytes + empties tr + 1 := by
  have hnone : heard tr = [] → rounds tr ≤ hello.snapshotBytes + empties tr + 1 := fun hnil => by
    rw [rounds, hnil]
    exact Nat.zero_le _
  have hdir : (mkdirAll (inbox env) fun e => .migration s!"mkdir inbox: {e}").run.Within
      fun o : HostOp => o.hears = false := (within_mkdirAll _ _).mpr rfl
  have hcreate : (createFile (partFile env hello).path fun e =>
      .migration s!"create {(partFile env hello).text}: {e}").run.Within
      fun o : HostOp => o.hears = false := (within_createFile _ _).mpr rfl
  rcases Exec.fallible_bind_inv hrun with ⟨-, h₁⟩ | ⟨e, -, h₁⟩ | ⟨_, tr₁, tr₂, g, rfl, h₁, h₂⟩
  · exact hnone (Runs.heard_nil hdir h₁)
  · exact hnone (Runs.heard_nil hdir h₁)
  have htr₁ : heard tr₁ = [] := Runs.heard_nil hdir h₁
  rcases Exec.fallible_bind_inv h₂ with ⟨-, h₃⟩ | ⟨e, -, h₃⟩ | ⟨_, tr₃, tr₄, g₁, rfl, h₃, h₄⟩
  · exact hnone (by rw [heard_append, htr₁, List.nil_append]; exact Runs.heard_nil hcreate h₃)
  · exact hnone (by rw [heard_append, htr₁, List.nil_append]; exact Runs.heard_nil hcreate h₃)
  have htr₃ : heard tr₃ = [] := Runs.heard_nil hcreate h₃
  have hloop : ∀ {tr' : List HostSig.Event}, heard (tr₁ ++ (tr₃ ++ tr₄)) = heard tr' →
      rounds tr' ≤ hello.snapshotBytes + empties tr' + 1 →
      rounds (tr₁ ++ (tr₃ ++ tr₄)) ≤ hello.snapshotBytes + empties (tr₁ ++ (tr₃ ++ tr₄)) + 1 := by
    intro tr' heq hle
    rw [rounds, empties, heq]
    exact hle
  have hheard : heard (tr₁ ++ (tr₃ ++ tr₄)) = heard tr₄ := by
    rw [heard_append, heard_append, htr₁, htr₃, List.nil_append, List.nil_append]
  rcases Exec.fallible_bind_inv h₄ with ⟨-, h₅⟩ | ⟨e, -, h₅⟩ | ⟨_, tr₅, tr₆, g₂, rfl, h₅, h₆⟩
  · exact hloop hheard (receive_rounds (Nat.zero_le _) h₅)
  · exact hloop hheard (receive_rounds (Nat.zero_le _) h₅)
  have htr₆ : heard tr₆ = [] := by
    refine Runs.heard_nil (Fallible.within_bind ((within_sys (.rename _ _)).mpr rfl) fun r => ?_) h₆
    exact Fallible.within_bind (within_orErr _ _) fun _ => trivial
  refine hloop ?_ (receive_rounds (Nat.zero_le _) h₅)
  rw [hheard, heard_append, htr₆, List.append_nil]

end

/-! ### Bounds -/

/-- The trace is one of receiving the file that the hello announces, over any number of rounds and
whatever the peer and the host reply. -/
def Receives (R : Host → Host → Prop) (env : Env) (proto : Protocol) (hello : Hello)
    (tr : List HostSig.Event) : Prop :=
  ∃ fuel h out h', Runs R (receiveFile env proto fuel hello) h tr out h'

/-- **How long a peer can keep the receiver.** The loop reads at most one frame more than the hello
announced bytes and the peer sent empty chunks. So among any peers, the number of frames is bounded in
terms of the announced bytes exactly when the number of their empty chunks is. -/
theorem rounds_bounded_iff (R : Host → Host → Prop) (env : Env) (proto : Protocol)
    (Peer : Hello → List HostSig.Event → Prop) :
    (∀ hello tr, Receives R env proto hello tr →
      rounds tr ≤ hello.snapshotBytes + empties tr + 1) ∧
    ((∃ bound : ℕ → ℕ, ∀ hello tr, Peer hello tr → Receives R env proto hello tr →
        rounds tr ≤ bound hello.snapshotBytes) ↔
      ∃ bound : ℕ → ℕ, ∀ hello tr, Peer hello tr → Receives R env proto hello tr →
        empties tr ≤ bound hello.snapshotBytes) := by
  have hrounds : ∀ hello tr, Receives R env proto hello tr →
      rounds tr ≤ hello.snapshotBytes + empties tr + 1 := by
    rintro hello tr ⟨fuel, h, out, h', hrun⟩
    exact receiveFile_rounds hrun
  refine ⟨hrounds, ?_, ?_⟩
  · rintro ⟨bound, hbound⟩
    refine ⟨bound, fun hello tr hpeer hrun => ?_⟩
    exact (empties_le_rounds tr).trans (hbound hello tr hpeer hrun)
  · rintro ⟨bound, hbound⟩
    refine ⟨fun bytes => bytes + bound bytes + 1, fun hello tr hpeer hrun => ?_⟩
    have := hrounds hello tr hrun
    have := hbound hello tr hpeer hrun
    dsimp only
    omega

/-! ### A peer that sends empty chunks -/

/-- Any number of empty chunks is received.

**Proof sketch.** Induction on their number: each is read, appended, and leaves the loop where it
was. -/
lemma receive_empty_chunks {proto : Protocol} {hello : Hello} {part : PathBuf}
    (k : ℕ) {n : ℕ} {crc : Crc32} {h : Host} (hn : n ≤ hello.snapshotBytes)
    (hpart : h.kind part.path = some .file) :
    ∃ tr h', Runs quiet (receive proto part hello k n crc) h tr none h' ∧ rounds tr = k := by
  induction k generalizing h crc with
  | zero => exact ⟨[], h, .cut _ _, rfl⟩
  | succ k ih =>
    obtain ⟨c, hc⟩ := (h.kind_file_iff _).mp hpart
    have hpart' : (h.extend part.path []).kind part.path = some .file :=
      (Host.kind_file_iff _ _).mpr ⟨_, h.file_extend hc []⟩
    obtain ⟨tr, h', hrun, hk⟩ : ∃ tr h', Runs quiet (receive proto part hello k n (crc.update []))
        (h.extend part.path []) tr none h' ∧ rounds tr = k := ih hpart'
    refine ⟨⟨.recv 5, (.ok [3, 0, 0, 0, 0] : Except String Bytes)⟩ ::
      ⟨.recv 0, (.ok [] : Except String Bytes)⟩ ::
      ⟨.append part.path [], (.ok () : Except (ℕ × String) Unit)⟩ :: tr, h', ?_, ?_⟩
    · refine Exec.call rfl (Exec.call rfl (Exec.call ?_ ?_))
      · change decide (h.kind part.path = some .file) = true
        exact decide_eq_true hpart
      · change Exec machine quiet (ExceptT.run (if n + 0 > hello.snapshotBytes then _
          else receive proto part hello k n (crc.update []))) (h.extend part.path []) _ _ _
        rw [if_neg (by omega)]
        exact hrun
    · rw [rounds, heard_recv, heard_recv]
      change (headers (heard tr)).length + 1 = k + 1
      rw [← hk, rounds]

/-- The inbox of the example host can be made, and can take a file. -/
lemma Demo.inbox_creatable : machine.Enabled (Demo.host Demo.frozen [] [])
    (.mkdirAll (inbox Demo.env)) (.ok ()) := by
  decide +kernel

lemma Demo.part_creatable : machine.Enabled
    (machine.next (Demo.host Demo.frozen [] []) (.mkdirAll (inbox Demo.env)) (.ok ()))
    (.createFile (partFile Demo.env (Demo.hello "web")).path) (.ok ()) := by
  decide +kernel

lemma Demo.part_created : (machine.next
    (machine.next (Demo.host Demo.frozen [] []) (.mkdirAll (inbox Demo.env)) (.ok ()))
    (.createFile (partFile Demo.env (Demo.hello "web")).path) (.ok ())).kind
      (partFile Demo.env (Demo.hello "web")).path = some .file :=
  (Host.kind_file_iff _ _).mpr ⟨_, Host.file_write _ _ _⟩

/-- **A peer that never stops.** For a hello that announces one byte, the loop reads as many empty
chunks as the peer sends. -/
theorem rounds_unbounded : ¬ ∃ bound : ℕ → ℕ, ∀ hello tr,
    Receives quiet Demo.env (Demo.protocol "web") hello tr → rounds tr ≤ bound hello.snapshotBytes := by
  rintro ⟨bound, hbound⟩
  obtain ⟨tr, h', hrun, hk⟩ := @receive_empty_chunks (Demo.protocol "web") _
    (partFile Demo.env (Demo.hello "web")) (bound 1 + 1) _ _ _ (Nat.zero_le _) Demo.part_created
  have hfile : Runs quiet (receiveFile Demo.env (Demo.protocol "web") (bound 1 + 1)
      (Demo.hello "web")) (Demo.host Demo.frozen [] [])
      ([⟨.mkdirAll (inbox Demo.env), .ok ()⟩] ++
        ([⟨.createFile (partFile Demo.env (Demo.hello "web")).path, .ok ()⟩] ++ tr)) none h' := by
    refine Exec.fallible_bind (Exec.call Demo.inbox_creatable (.ret _ _)) ?_
    refine Exec.fallible_bind (Exec.call Demo.part_creatable (.ret _ _)) ?_
    rw [Fallible.run_bind]
    exact Exec.bind_cut hrun
  have hle := hbound _ _ ⟨_, _, _, _, hfile⟩
  change rounds tr ≤ bound 1 at hle
  omega

end Transport

end Mincontainer
