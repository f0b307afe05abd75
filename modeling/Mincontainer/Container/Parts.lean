import Mincontainer.Container.Handed
import Mincontainer.Effects.Endings

set_option relaxedAutoImplicit false
set_option autoImplicit false

/-!
# The parts of the processes of `spawn`

A part names what comes next in the source, line by line, with the descriptors that are held there and
those that are closed by then: the parent closes its end of the pipe to the container before it waits, and
holds no end that it reads from the other side of.

## Main definitions

* `Mincontainer.Spawn.exitCode` — the code that a waiting process makes of an ending.
* `Mincontainer.Spawn.Part` — what a process of `spawn` is about to do.

## Main results

* `Mincontainer.Spawn.Part.plays_prog` — who starts a container plays the parent.
* `Mincontainer.Spawn.Part.holds_move` — each part passes on what the next holds.
-/

namespace Mincontainer

open Effects Bytes Processes

namespace Spawn

/-- The code of a process that ended: what it exited with, or 128 and the signal that killed it. -/
def exitCode : Ending → ℤ
  | .exited code => code.toNat
  | .signaled sig => 128 + sig.val

/-- Such a code fits into a byte. -/
lemma exitCode_byte (e : Ending) : 0 ≤ exitCode e ∧ exitCode e < 256 := by
  cases e with
  | exited code =>
    have hlt := code.toNat_lt
    simp only [exitCode]
    omega
  | signaled sig =>
    have hlt := sig.isLt
    simp only [exitCode]
    omega

/-- A code that is passed on is not changed by the kernel. -/
lemma exitCode_passed_on (e : Ending) : exitCode (.exited (UInt8.ofInt (exitCode e))) = exitCode e := by
  obtain ⟨hpos, hlt⟩ := exitCode_byte e
  generalize exitCode e = code at hpos hlt
  have hcode : (UInt8.ofInt code).toNat = (code % 2 ^ 8).toNat % 2 ^ 8 := by
    unfold UInt8.ofInt
    exact UInt8.toNat_ofNat'
  show ((UInt8.ofInt code).toNat : ℤ) = code
  rw [hcode]
  omega

/-- The container becomes its command. -/
def runsCommand : SpawnAct → Prop
  | .execvpe _ _ _ => True
  | _ => False

instance : DecidablePred runsCommand := fun a =>
  match a with
  | .execvpe _ _ _ => .isTrue trivial
  | .cgroupCreate _ => .isFalse id
  | .cgroupApply _ => .isFalse id
  | .addProcess _ => .isFalse id
  | .networkSetup _ _ _ => .isFalse id
  | .unshare => .isFalse id
  | .stage _ => .isFalse id

/-! ### Parts -/

/-- What a process of `spawn` is about to do. -/
inductive Part where
  /-- The parent before the fork, with the pipes it has made. -/
  | setup (go pidp : Bool)
  /-- The parent of the middle process `m`, which closes the ends that are not its own. -/
  | forked (m : ℕ)
  | closing (m : ℕ)
  /-- The parent that reads the pid of the container. -/
  | asking (m : ℕ)
  /-- The parent that confines the container, until it has released it. -/
  | knowing (m : ℕ)
  | released (m : ℕ)
  /-- The parent that was told how the middle process ended. -/
  | done
  /-- The middle process, which closes the ends that are not its own. -/
  | leaving
  | sealing
  /-- The middle process before its fork. -/
  | middle
  /-- The middle process that has a pid to tell, and then waits for the container. -/
  | telling (c : ℕ)
  | waiting (c : ℕ)
  /-- The middle process that passes on a code. -/
  | relaying (code : ℤ)
  /-- The container, which closes the end that is not its own. -/
  | inner
  /-- The container before it has read from `go`. -/
  | ready
  | running
deriving DecidableEq, Repr

namespace Part

/-- What a part allows. -/
def Allowed : Part → SpawnSig.Op → Prop
  | .setup go pidp, o =>
    match o with
    | .pipe _ => True
    | .act (.cgroupCreate _) => True
    | .act (.cgroupApply _) => True
    | .fork => go = true ∧ pidp = true
    | .exit _ => True
    | _ => False
  | .forked _, o => o = .close goRead
  | .closing _, o => o = .close pidWrite
  | .asking _, o => o = .read pidRead 4
  | .knowing _, o =>
    match o with
    | .close _ => True
    | .write fd _ => fd = goWrite
    | .act (.addProcess _) => True
    | .act (.networkSetup _ _ _) => True
    | .exit _ => True
    | _ => False
  | .released m, o => o = .wait m
  | .done, o =>
    match o with
    | .exit _ => True
    | _ => False
  | .leaving, o => o = .close goWrite
  | .sealing, o => o = .close pidRead
  | .middle, o =>
    match o with
    | .act .unshare => True
    | .fork => True
    | .exit code => code = 127
    | _ => False
  | .telling c, o => o = .write pidWrite (toLE 4 c)
  | .waiting c, o => o = .wait c
  | .relaying code, o => o = .exit code
  | .inner, o => o = .close pidWrite
  | .ready, o => o = .read goRead 1
  | .running, o =>
    match o with
    | .close _ => True
    | .act (.stage _) => True
    | .act (.execvpe _ _ _) => True
    | .exit _ => True
    | _ => False

/-- The part after a reply. -/
def move : Part → (o : SpawnSig.Op) → SpawnSig.Reply o → Part
  | .setup go pidp, .pipe p, (r : Bool) =>
    match p with
    | .go => .setup (go || r) pidp
    | .pidp => .setup go (pidp || r)
  | .setup go pidp, .fork, (r : Forked) =>
    match r with
    | .child => .leaving
    | .parent m => .forked m
    | .failed => .setup go pidp
  | .forked m, _, _ => .closing m
  | .closing m, _, _ => .asking m
  | .asking m, _, _ => .knowing m
  | .knowing m, .close fd, _ => if fd = goWrite then .released m else .knowing m
  | .released _, _, _ => .done
  | .leaving, _, _ => .sealing
  | .sealing, _, _ => .middle
  | .middle, .fork, (r : Forked) =>
    match r with
    | .child => .inner
    | .parent c => .telling c
    | .failed => .middle
  | .telling c, _, _ => .waiting c
  | .waiting _, .wait _, (code : ℤ) => .relaying code
  | .inner, _, _ => .ready
  | .ready, _, _ => .running
  | ρ, _, _ => ρ

/-- The descriptors that a process holds in a part, and those that it has closed. -/
def Holds : Part → List (Fd Pipe) → Prop
  | .setup go pidp, fds =>
    (go = true → goRead ∈ fds ∧ goWrite ∈ fds) ∧ (pidp = true → pidRead ∈ fds ∧ pidWrite ∈ fds)
  | .forked _, fds => pidRead ∈ fds
  | .closing _, fds => pidRead ∈ fds
  | .asking _, fds => pidRead ∈ fds ∧ pidWrite ∉ fds
  | .released _, fds => goWrite ∉ fds
  | .done, fds => goWrite ∉ fds
  | .leaving, fds => goRead ∈ fds ∧ pidWrite ∈ fds
  | .sealing, fds => goRead ∈ fds ∧ pidWrite ∈ fds ∧ goWrite ∉ fds
  | .middle, fds => goRead ∈ fds ∧ pidWrite ∈ fds ∧ goWrite ∉ fds
  | .telling _, fds => pidWrite ∈ fds ∧ goWrite ∉ fds
  | .waiting _, fds => goWrite ∉ fds
  | .relaying _, fds => goWrite ∉ fds
  | .inner, fds => goRead ∈ fds ∧ goWrite ∉ fds
  | .ready, fds => goRead ∈ fds ∧ goWrite ∉ fds ∧ pidWrite ∉ fds
  | _, _ => True

/-- The program makes the calls of its part. -/
abbrev Plays {α : Type} (ρ : Part) (Q : Part → α → Prop) (p : Program SpawnSig α) : Prop :=
  p.Conforms Allowed move Q ρ

variable {ρ : Part} {α β : Type}

/-! ### The programs play their parts -/

lemma plays_exit {Q : Part → Except RuntimeError α → Prop} {code : ℤ} (h : ρ.Allowed (.exit code)) :
    ρ.Plays Q (exit code : SpawnM α).run :=
  ⟨h, fun r => nomatch (r : Empty)⟩

lemma plays_call {Q : Part → Except RuntimeError β → Prop} {o : SpawnSig.Op}
    {f : SpawnSig.Reply o → SpawnM β} (h : ρ.Allowed o)
    (hf : ∀ r, (ρ.move o r).Plays Q (f r).run) : ρ.Plays Q (call o >>= f).run :=
  ⟨h, hf⟩

/-- A call that does not move the part. -/
lemma plays_act {Q : Part → Except RuntimeError Unit → Prop} {a : SpawnAct}
    (h : ρ.Allowed (.act a)) (hstay : ∀ r, ρ.move (.act a) r = ρ) (hQ : ∀ r, Q ρ r) :
    ρ.Plays Q (act a).run := by
  refine plays_call h fun r => ?_
  rw [hstay r]
  cases r with
  | ok _ => exact hQ (.ok ())
  | error e => exact hQ (.error e)

lemma plays_pipe {p : Pipe} {go pidp : Bool} :
    (setup go pidp).Plays (fun ρ r => ρ = (setup go pidp).move (.pipe p) (Except.isOk r))
      (makePipe p).run := by
  refine plays_call trivial fun r => ?_
  cases r with
  | false => exact rfl
  | true => exact rfl

/-- The stages, and the command after them. -/
lemma plays_stages (cfg : ContainerConfig) (ss : List Stage) :
    running.Plays (fun ρ _ => ρ = running) (runStages ss >>= fun _ => execCommand cfg).run := by
  refine Fallible.conforms_bind (P := fun ρ _ => ρ = running) ?_ ?_ fun _ _ h => h
  · induction ss with
    | nil => exact Program.conforms_ret rfl
    | cons s ss ih =>
      refine Fallible.conforms_bind (P := fun ρ _ => ρ = running)
        (plays_act trivial (fun _ => rfl) fun _ => rfl) ?_ fun _ _ h => h
      rintro _ _ rfl
      exact ih
  · rintro _ _ rfl
    unfold execCommand
    split
    · exact plays_exit trivial
    · split
      · exact Program.conforms_ret rfl
      · split
        · exact plays_exit trivial
        · exact plays_act trivial (fun _ => rfl) fun _ => rfl

/-- The container waits at the pipe first. -/
lemma plays_grandchild (cfg : ContainerConfig) (io : Option String) :
    ready.Plays (fun ρ _ => ρ = running) (grandchild cfg io goRead).run := by
  refine plays_call rfl fun r => ?_
  exact plays_call (ρ := running) trivial fun _ => plays_stages cfg _

/-- The middle process never returns. -/
lemma plays_middle {Q : Part → Except RuntimeError α → Prop} (cfg : ContainerConfig)
    (io : Option String) : middle.Plays Q (Spawn.middle cfg io goRead pidWrite : SpawnM α).run := by
  unfold Spawn.middle
  rw [Fallible.run_attempt_bind]
  refine Program.Conforms.bind (Q := fun ρ _ => ρ = middle)
    (plays_act trivial (fun _ => rfl) fun _ => rfl) ?_
  rintro _ r rfl
  cases r with
  | error e => exact plays_exit rfl
  | ok _ =>
    refine plays_call trivial fun (r : Forked) => ?_
    cases r with
    | failed => exact plays_exit rfl
    | parent c =>
      refine plays_call (ρ := telling c) rfl fun _ => ?_
      refine plays_call (ρ := waiting c) rfl fun code => ?_
      exact plays_exit rfl
    | child =>
      refine plays_call (ρ := inner) rfl fun _ => ?_
      change ready.Plays Q (Fallible.attempt (grandchild cfg io goRead) >>= _).run
      rw [Fallible.run_attempt_bind]
      refine Program.Conforms.bind (plays_grandchild cfg io) ?_
      rintro _ _ rfl
      exact plays_exit trivial

/-- How `spawn` is left: with a handle on the middle process, or with an error, after which the parent
exits. -/
def Left (ρ : Part) : Except RuntimeError Handle → Prop
  | .ok handle => ρ = released handle.supervisorPid
  | .error _ => ∀ code, ρ.Allowed (.exit code)

/-- The end of `spawn`. -/
lemma plays_release {gc m : ℕ} :
    (knowing m).Plays Left (do notify goWrite; close goWrite; pure ⟨gc, m⟩ : SpawnM Handle).run := by
  refine plays_call (ρ := knowing m) rfl fun _ => ?_
  exact plays_call (ρ := knowing m) trivial fun _ => Program.conforms_ret rfl

lemma plays_spawn (cfg : ContainerConfig) (index : UInt8) (io : Option String) :
    (setup false false).Plays Left (spawn cfg index io).run := by
  have hstay : ∀ {go pidp : Bool} {a : SpawnAct}, (setup go pidp).Allowed (.act a) →
      (setup go pidp).Plays (fun ρ _ => ρ = setup go pidp) (act a).run := fun ha =>
    plays_act ha (fun _ => rfl) fun _ => rfl
  have hstay' : ∀ {m : ℕ} {a : SpawnAct}, (knowing m).Allowed (.act a) →
      (knowing m).Plays (fun ρ _ => ρ = knowing m) (act a).run := fun ha =>
    plays_act ha (fun _ => rfl) fun _ => rfl
  have herr : ∀ (go pidp : Bool) (ρ : Part) (e : RuntimeError), ρ = setup go pidp →
      Left ρ (.error e) := by
    rintro go pidp _ e rfl code
    trivial
  refine Fallible.conforms_bind (hstay trivial) ?_ (herr _ _)
  rintro _ - rfl
  refine Fallible.conforms_bind (hstay trivial) ?_ (herr _ _)
  rintro _ - rfl
  refine Fallible.conforms_bind plays_pipe ?_ (herr _ _)
  rintro _ - rfl
  refine Fallible.conforms_bind plays_pipe ?_ (herr _ _)
  rintro _ - rfl
  refine plays_call ⟨rfl, rfl⟩ fun (r : Forked) => ?_
  cases r with
  | failed => exact Program.conforms_ret fun _ => trivial
  | child =>
    refine plays_call (ρ := leaving) rfl fun _ => ?_
    refine plays_call (ρ := sealing) rfl fun _ => ?_
    exact plays_middle cfg io
  | parent m =>
    refine plays_call (ρ := forked m) rfl fun _ => ?_
    refine plays_call (ρ := closing m) rfl fun _ => ?_
    refine plays_call (ρ := asking m) rfl fun (b : List UInt8) => ?_
    change (knowing m).Plays _ _
    generalize ofLE b = gc
    refine plays_call (ρ := knowing m) trivial fun _ => ?_
    have herr' : ∀ (ρ : Part) (e : RuntimeError), ρ = knowing m → Left ρ (.error e) := by
      rintro _ e rfl code
      trivial
    refine Fallible.conforms_bind (hstay' trivial) ?_ herr'
    rintro _ - rfl
    dsimp only
    split
    · refine Fallible.conforms_bind (hstay' trivial) ?_ herr'
      rintro _ - rfl
      exact plays_release
    · exact plays_release

/-- Who starts a container plays the parent, and waits for the middle process. -/
lemma plays_prog (cfg : ContainerConfig) (caller : Caller) :
    (setup false false).Plays (fun _ _ => True) (toProcess (caller.prog cfg)) := by
  refine Program.Conforms.bind (Q := fun _ _ => True) ?_ fun _ _ _ => Program.conforms_ret trivial
  cases caller with
  | detached io =>
    change (setup false false).Plays _ (supervise cfg io).run
    unfold supervise
    rw [Fallible.run_attempt_bind]
    refine Program.Conforms.bind (plays_spawn cfg 0 (some io)) fun ρ r hρ => ?_
    cases r with
    | error e => exact plays_exit (hρ _)
    | ok handle =>
      obtain rfl : ρ = released handle.supervisorPid := hρ
      exact plays_call rfl fun code => plays_exit trivial
  | attached index =>
    change (setup false false).Plays _ (startAttached cfg index).run
    unfold startAttached
    rw [Fallible.run_attempt_bind]
    refine Program.Conforms.bind (Q := fun ρ _ => ∀ code, ρ.Allowed (.exit code)) ?_ fun ρ r hρ => ?_
    · refine Fallible.conforms_bind (plays_spawn cfg index none) (fun ρ handle hρ => ?_)
        fun _ _ h => h
      obtain rfl : ρ = released handle.supervisorPid := hρ
      exact plays_call rfl fun code => Program.conforms_ret fun _ => trivial
    · cases r with
      | error e => exact plays_exit (hρ _)
      | ok code => exact plays_exit (hρ _)

/-- Each part passes on what the next holds, and closes what the next does not. -/
lemma holds_move (ρ : Part) (o : SpawnSig.Op) (r : SpawnSig.Reply o) (fds : List (Fd Pipe))
    (ha : ρ.Allowed o) (hh : ρ.Holds fds) : (ρ.move o r).Holds (fdsAfter fds o r) := by
  have hkept : ∀ {fd fd' : Fd Pipe}, fd ∈ fds → fd ≠ fd' → fd ∈ fds.filter fun f => f ≠ fd' :=
    fun hfd hne => List.mem_filter.mpr ⟨hfd, decide_eq_true hne⟩
  have hclosed : ∀ {fd : Fd Pipe}, fd ∉ fds.filter fun f => f ≠ fd := by simp
  have hnot : ∀ {fd fd' : Fd Pipe}, fd ∉ fds → fd ∉ fds.filter fun f => f ≠ fd' := fun hfd hmem =>
    hfd (List.mem_filter.mp hmem).1
  cases ρ with
  | setup go pidp =>
    cases o with
    | pipe p =>
      obtain ⟨hgo, hpid⟩ := hh
      cases (r : Bool) <;> cases p <;>
        simp_all [move, Holds, fdsAfter, goRead, goWrite, pidRead, pidWrite]
    | fork =>
      obtain ⟨rfl, rfl⟩ := ha
      cases (r : Forked) with
      | child => exact ⟨(hh.1 rfl).1, (hh.2 rfl).2⟩
      | parent c => exact (hh.2 rfl).1
      | failed => exact hh
    | close _ | write _ _ | read _ _ | wait _ => exact ha.elim
    | _ => exact hh
  | forked m =>
    obtain rfl : o = .close goRead := ha
    exact hkept hh (by decide)
  | closing m =>
    obtain rfl : o = .close pidWrite := ha
    exact ⟨hkept hh (by decide), hclosed⟩
  | asking m =>
    obtain rfl : o = .read pidRead 4 := ha
    trivial
  | knowing m =>
    cases o with
    | close fd =>
      by_cases hfd : fd = goWrite
      · rw [move, if_pos hfd, hfd]
        exact hclosed
      · rw [move, if_neg hfd]
        trivial
    | _ => trivial
  | released m =>
    obtain rfl : o = .wait m := ha
    exact hh
  | done =>
    cases o with
    | exit _ => cases (r : Empty)
    | _ => exact ha.elim
  | leaving =>
    obtain rfl : o = .close goWrite := ha
    exact ⟨hkept hh.1 (by decide), hkept hh.2 (by decide), hclosed⟩
  | sealing =>
    obtain rfl : o = .close pidRead := ha
    exact ⟨hkept hh.1 (by decide), hkept hh.2.1 (by decide), hnot hh.2.2⟩
  | middle =>
    cases o with
    | fork =>
      cases (r : Forked) with
      | child => exact ⟨hh.1, hh.2.2⟩
      | parent c => exact hh.2
      | failed => exact hh
    | act _ => exact hh
    | exit _ => exact hh
    | _ => exact ha.elim
  | telling c =>
    obtain rfl : o = .write pidWrite (toLE 4 c) := ha
    exact hh.2
  | waiting c =>
    obtain rfl : o = .wait c := ha
    exact hh
  | relaying code =>
    obtain rfl : o = .exit code := ha
    exact hh
  | inner =>
    obtain rfl : o = .close pidWrite := ha
    exact ⟨hkept hh.1 (by decide), hnot hh.2, hclosed⟩
  | ready => trivial
  | running => trivial

end Part

end Spawn

end Mincontainer
