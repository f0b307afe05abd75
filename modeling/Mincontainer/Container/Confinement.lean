import Mincontainer.Container.Spawn
import Mathlib.Data.List.Nodup

set_option relaxedAutoImplicit false
set_option autoImplicit false

/-!
# When the container runs confined

The container waits at the pipe `go` until there is a byte to read or nobody is left to write one.
The byte is written after the parent has moved the container into its cgroup and wired its network,
but the end of the file comes as well when the parent is gone. Then the container goes on and runs
its command without either. Where the parent does not end too early, it never does.

Each process is followed through a role, which says what calls it can make next; the roles of the
three processes and the bytes in the pipes make a handshake, and its invariant is kept by each step.

## Main definitions

* `Mincontainer.Spawn.Role` — what a process of `spawn` is about to do.
* `Mincontainer.Spawn.Handshake` — who is there, in which role, and what the parent has learnt.
* `Mincontainer.Spawn.Sound` — how roles, pipes and what the parent has done fit together.
* `Mincontainer.Spawn.Orderly` — the steps in which the parent does not end too early.

## Main results

* `Mincontainer.Spawn.confined_of_orderly` — in orderly runs the command is reached confined only.
* `Mincontainer.Spawn.runs_unconfined` — when moving the container into its cgroup fails, the
  container runs its command.
-/

namespace Mincontainer

open Effects Bytes Processes

namespace Spawn

/-! ### Roles -/

/-- What a process of `spawn` is about to do. -/
inductive Role where
  /-- The parent before the fork, with the pipes it has made. -/
  | setup (go pidp : Bool)
  /-- The parent before it knows the pid of the container. -/
  | forked
  /-- The parent with the pid it has read, and whether it has moved and wired that process. -/
  | learnt (pid : ℕ) (moved wired : Bool)
  /-- The middle process before the fork. -/
  | middle
  /-- The middle process that has a pid to tell. -/
  | telling (pid : ℕ)
  /-- The middle process that has told it. -/
  | told
  /-- The container before it has read from `go`. -/
  | waiting
  | released
deriving DecidableEq, Repr

namespace Role

/-- What a role allows; `net` says whether the container is to have a network. -/
def Allowed (net : Bool) : Role → SpawnSig.Op → Prop
  | .setup go pidp, o =>
    match o with
    | .pipe _ => True
    | .act (.cgroupCreate _) => True
    | .act (.cgroupApply _) => True
    | .fork => go = true ∧ pidp = true
    | .wait _ => True
    | .exit _ => True
    | _ => False
  | .forked, o =>
    match o with
    | .close fd => fd ≠ goWrite ∧ fd ≠ pidRead
    | .read fd n => fd = pidRead ∧ n = 4
    | _ => False
  | .learnt pid moved wired, o =>
    match o with
    | .close fd => fd = goWrite → moved = true ∧ (net = true → wired = true)
    | .write fd _ => fd = goWrite ∧ moved = true ∧ (net = true → wired = true)
    | .act (.addProcess c) => c = pid
    | .act (.networkSetup _ c _) => c = pid
    | .wait _ => True
    | .exit _ => True
    | _ => False
  | .middle, o =>
    match o with
    | .close fd => fd ≠ pidWrite ∧ fd ≠ goRead
    | .act .unshare => True
    | .fork => True
    | .exit _ => True
    | _ => False
  | .telling pid, o => o = .write pidWrite (toLE 4 pid)
  | .told, o =>
    match o with
    | .wait _ => True
    | .exit _ => True
    | _ => False
  | .waiting, o =>
    match o with
    | .close fd => fd ≠ goRead
    | .read fd n => fd = goRead ∧ n = 1
    | _ => False
  | .released, o =>
    match o with
    | .close _ => True
    | .act (.stage _) => True
    | .act (.execvpe _ _ _) => True
    | .exit _ => True
    | _ => False

/-- The role after a reply. -/
def move : Role → (o : SpawnSig.Op) → SpawnSig.Reply o → Role
  | .setup go pidp, .pipe p, (r : Bool) =>
    match p with
    | .go => .setup (go || r) pidp
    | .pidp => .setup go (pidp || r)
  | .setup go pidp, .fork, (r : Forked) =>
    match r with
    | .child => .middle
    | .parent _ => .forked
    | .failed => .setup go pidp
  | .forked, .read _ _, (data : List UInt8) => .learnt (ofLE data) false false
  | .learnt pid moved wired, .act (.addProcess _), r => .learnt pid (moved || r.isOk) wired
  | .learnt pid moved wired, .act (.networkSetup _ _ _), r => .learnt pid moved (wired || r.isOk)
  | .middle, .fork, (r : Forked) =>
    match r with
    | .child => .waiting
    | .parent c => .telling c
    | .failed => .middle
  | .telling _, _, _ => .told
  | .waiting, .read _ _, _ => .released
  | ρ, _, _ => ρ

/-- The descriptors a role relies on. -/
def Holds (net : Bool) : Role → List (Fd Pipe) → Prop
  | .setup go pidp, fds =>
    (go = true → goRead ∈ fds ∧ goWrite ∈ fds) ∧ (pidp = true → pidRead ∈ fds ∧ pidWrite ∈ fds)
  | .forked, fds => goWrite ∈ fds ∧ pidRead ∈ fds
  | .learnt _ moved wired, fds => moved = true ∧ (net = true → wired = true) ∨ goWrite ∈ fds
  | .middle, fds => pidWrite ∈ fds ∧ goRead ∈ fds
  | .telling _, fds => pidWrite ∈ fds
  | .told, _ => True
  | .waiting, fds => goRead ∈ fds
  | .released, _ => True

/-- The program makes the calls of its role. -/
abbrev Plays (net : Bool) {α : Type} (ρ : Role) (Q : Role → α → Prop) (p : Program SpawnSig α) :
    Prop :=
  p.Conforms (Allowed net) move Q ρ

/-- The parent when it has nothing left to do for the container. -/
def Done : Role → Prop
  | .setup _ _ => True
  | .learnt _ _ _ => True
  | _ => False

variable {net : Bool} {ρ : Role} {α β : Type}

lemma Done.exit (h : ρ.Done) (code : ℤ) : ρ.Allowed net (.exit code) := by
  cases ρ <;> trivial

lemma Done.wait (h : ρ.Done) (pid : ℕ) : ρ.Allowed net (.wait pid) := by
  cases ρ <;> trivial

/-- Waiting changes no role. -/
lemma Done.move_wait (h : ρ.Done) (pid : ℕ) (r : ℤ) : (ρ.move (.wait pid) r).Done := by
  cases ρ <;> trivial

/-! ### The programs play their roles -/

lemma plays_exit {Q : Role → Except RuntimeError α → Prop} {code : ℤ}
    (h : ρ.Allowed net (.exit code)) : ρ.Plays net Q (exit code : SpawnM α).run :=
  ⟨h, fun r => nomatch (r : Empty)⟩

lemma plays_call {Q : Role → Except RuntimeError β → Prop} {o : SpawnSig.Op}
    {f : SpawnSig.Reply o → SpawnM β} (h : ρ.Allowed net o)
    (hf : ∀ r, (ρ.move o r).Plays net Q (f r).run) : ρ.Plays net Q (call o >>= f).run :=
  ⟨h, hf⟩

lemma plays_act {Q : Role → Except RuntimeError Unit → Prop} {a : SpawnAct}
    (h : ρ.Allowed net (.act a)) (hQ : ∀ r, Q (ρ.move (.act a) r) r) :
    ρ.Plays net Q (act a).run := by
  refine plays_call h fun r => ?_
  cases r with
  | ok _ => exact hQ (.ok ())
  | error e => exact hQ (.error e)

lemma plays_pipe {p : Pipe} {go pidp : Bool} :
    (setup go pidp).Plays net
      (fun ρ r => ρ = (setup go pidp).move (.pipe p) (Except.isOk r))
      (makePipe p).run := by
  refine plays_call trivial fun r => ?_
  cases r with
  | false => exact rfl
  | true => exact rfl

/-- The stages, and the command after them. -/
lemma plays_stages (cfg : ContainerConfig) (ss : List Stage) :
    released.Plays net (fun ρ _ => ρ = released) (runStages ss >>= fun _ => execCommand cfg).run := by
  refine Fallible.conforms_bind (P := fun ρ _ => ρ = released) ?_ ?_ fun _ _ h => h
  · induction ss with
    | nil => exact Program.conforms_ret rfl
    | cons s ss ih =>
      refine Fallible.conforms_bind (P := fun ρ _ => ρ = released)
        (plays_act trivial fun _ => rfl) ?_ fun _ _ h => h
      rintro _ _ rfl
      exact ih
  · rintro _ _ rfl
    unfold execCommand
    split
    · exact plays_exit trivial
    · split
      · exact Program.conforms_ret rfl
      · split
        · exact plays_exit trivial
        · exact plays_act trivial fun _ => rfl

/-- The container waits at the pipe first. -/
lemma plays_grandchild (cfg : ContainerConfig) (io : Option String) :
    waiting.Plays net (fun ρ _ => ρ = released) (grandchild cfg io goRead).run := by
  refine plays_call ⟨rfl, rfl⟩ fun r => ?_
  exact plays_call (ρ := released) trivial fun _ => plays_stages cfg _

/-- The middle process never returns. -/
lemma plays_middle {Q : Role → Except RuntimeError α → Prop} (cfg : ContainerConfig)
    (io : Option String) : middle.Plays net Q (Spawn.middle cfg io goRead pidWrite : SpawnM α).run := by
  unfold Spawn.middle
  rw [Fallible.run_attempt_bind]
  refine Program.Conforms.bind (Q := fun ρ _ => ρ = middle) (plays_act trivial fun _ => rfl) ?_
  rintro _ r rfl
  cases r with
  | error e => exact plays_exit trivial
  | ok _ =>
    refine plays_call trivial fun (r : Forked) => ?_
    cases r with
    | failed => exact plays_exit trivial
    | parent c =>
      refine plays_call (ρ := telling c) rfl fun _ => ?_
      refine plays_call (ρ := told) trivial fun code => ?_
      exact plays_exit trivial
    | child =>
      refine plays_call (show pidWrite ≠ goRead by decide) fun _ => ?_
      change waiting.Plays net Q (Fallible.attempt (grandchild cfg io goRead) >>= _).run
      rw [Fallible.run_attempt_bind]
      refine Program.Conforms.bind (plays_grandchild cfg io) ?_
      rintro _ _ rfl
      exact plays_exit trivial

/-- The end of `spawn`: what comes before it has moved and wired the container. -/
lemma plays_release {gc : ℕ} {wired : Bool} {a : α} (h : net = true → wired = true) :
    (learnt gc true wired).Plays net (fun ρ _ => ρ.Done)
      (do notify goWrite; close goWrite; pure a : SpawnM α).run := by
  refine plays_call (ρ := learnt gc true wired) ⟨rfl, rfl, h⟩ fun _ => ?_
  exact plays_call (ρ := learnt gc true wired) (fun _ => ⟨rfl, h⟩) fun _ =>
    Program.conforms_ret trivial

/-- The parent writes to the container last, when it has moved it and wired it. -/
lemma plays_spawn (cfg : ContainerConfig) (index : UInt8) (io : Option String) :
    (setup false false).Plays cfg.network (fun ρ _ => ρ.Done) (spawn cfg index io).run := by
  refine Fallible.conforms_bind (P := fun ρ _ => ρ = setup false false)
    (plays_act trivial fun _ => rfl) ?_ (by rintro _ _ rfl; trivial)
  rintro _ - rfl
  refine Fallible.conforms_bind (P := fun ρ _ => ρ = setup false false)
    (plays_act trivial fun _ => rfl) ?_ (by rintro _ _ rfl; trivial)
  rintro _ - rfl
  refine Fallible.conforms_bind plays_pipe ?_ (by rintro _ _ rfl; trivial)
  rintro _ - rfl
  refine Fallible.conforms_bind plays_pipe ?_ (by rintro _ _ rfl; trivial)
  rintro _ - rfl
  refine plays_call ⟨rfl, rfl⟩ fun (r : Forked) => ?_
  cases r with
  | failed => exact Program.conforms_ret trivial
  | child =>
    refine plays_call (ρ := middle) (show goWrite ≠ pidWrite ∧ goWrite ≠ goRead by decide)
      fun _ => ?_
    refine plays_call (ρ := middle) (show pidRead ≠ pidWrite ∧ pidRead ≠ goRead by decide)
      fun _ => ?_
    exact plays_middle cfg io
  | parent m =>
    refine plays_call (ρ := forked) (show goRead ≠ goWrite ∧ goRead ≠ pidRead by decide)
      fun _ => ?_
    refine plays_call (ρ := forked) (show pidWrite ≠ goWrite ∧ pidWrite ≠ pidRead by decide)
      fun _ => ?_
    refine plays_call (ρ := forked) ⟨rfl, rfl⟩ fun (b : List UInt8) => ?_
    change (learnt (ofLE b) false false).Plays _ _ _
    generalize ofLE b = gc
    refine plays_call (ρ := learnt gc false false)
      (fun h : pidRead = goWrite => absurd h (by decide)) fun _ => ?_
    refine Fallible.conforms_bind (P := fun ρ r => ρ = learnt gc (Except.isOk r) false)
      (plays_act rfl fun r => rfl) ?_ (by rintro _ _ rfl; trivial)
    rintro _ - rfl
    dsimp only
    split
    · refine Fallible.conforms_bind (P := fun ρ r => ρ = learnt gc true (Except.isOk r))
        (plays_act rfl fun r => rfl) ?_ (by rintro _ _ rfl; trivial)
      rintro _ - rfl
      exact plays_release fun _ => rfl
    · exact plays_release fun h => absurd h ‹_›

/-- Who starts a container plays the parent. -/
lemma plays_prog (cfg : ContainerConfig) (caller : Caller) :
    (setup false false).Plays cfg.network (fun _ _ => True) (toProcess (caller.prog cfg)) := by
  refine Program.Conforms.bind (Q := fun _ _ => True) ?_ fun _ _ _ => Program.conforms_ret trivial
  cases caller with
  | detached io =>
    change (setup false false).Plays _ _ (supervise cfg io).run
    unfold supervise
    rw [Fallible.run_attempt_bind]
    refine Program.Conforms.bind (plays_spawn cfg 0 (some io)) fun ρ r hρ => ?_
    cases r with
    | error e => exact plays_exit (hρ.exit _)
    | ok handle =>
      exact plays_call (hρ.wait _) fun code => plays_exit ((hρ.move_wait _ code).exit _)
  | attached index =>
    change (setup false false).Plays _ _ (startAttached cfg index).run
    unfold startAttached
    rw [Fallible.run_attempt_bind]
    refine Program.Conforms.bind (Q := fun ρ _ => ρ.Done) ?_ fun ρ r hρ => ?_
    · refine Fallible.conforms_bind (plays_spawn cfg index none) (fun ρ handle hρ => ?_)
        fun _ _ h => h
      exact plays_call (hρ.wait _) fun code => Program.conforms_ret (hρ.move_wait _ code)
    · cases r with
      | error e => exact plays_exit (hρ.exit _)
      | ok code => exact plays_exit (hρ.exit _)

/-- Each role keeps what it relies on, or passes it to the next. -/
lemma holds_move (ρ : Role) (o : SpawnSig.Op) (r : SpawnSig.Reply o) (fds : List (Fd Pipe))
    (ha : ρ.Allowed net o) (hh : ρ.Holds net fds) : (ρ.move o r).Holds net (fdsAfter fds o r) := by
  cases ρ with
  | setup go pidp =>
    cases o with
    | pipe p =>
      obtain ⟨hgo, hpid⟩ := hh
      cases (r : Bool) <;> cases p <;>
        simp_all [move, Holds, fdsAfter, goRead, goWrite, pidRead, pidWrite]
    | fork =>
      obtain ⟨rfl, rfl⟩ := ha
      cases (r : Forked) with
      | child => exact ⟨(hh.2 rfl).2, (hh.1 rfl).1⟩
      | parent c => exact ⟨(hh.1 rfl).2, (hh.2 rfl).1⟩
      | failed => exact hh
    | close _ | write _ _ | read _ _ => exact ha.elim
    | _ => exact hh
  | forked =>
    cases o with
    | close fd =>
      exact ⟨List.mem_filter.mpr ⟨hh.1, decide_eq_true ha.1.symm⟩,
        List.mem_filter.mpr ⟨hh.2, decide_eq_true ha.2.symm⟩⟩
    | read _ _ => exact .inr hh.1
    | _ => exact ha.elim
  | learnt pid moved wired =>
    cases o with
    | close fd =>
      by_cases hfd : fd = goWrite
      · exact .inl (ha hfd)
      · exact hh.imp id fun h => List.mem_filter.mpr ⟨h, decide_eq_true (Ne.symm hfd)⟩
    | act a =>
      cases a with
      | addProcess c => exact hh.imp (fun h => ⟨by simp [h.1], h.2⟩) id
      | networkSetup _ c _ => exact hh.imp (fun h => ⟨h.1, fun hn => by simp [h.2 hn]⟩) id
      | _ => exact ha.elim
    | pipe _ | fork | read _ _ => exact ha.elim
    | _ => exact hh
  | middle =>
    cases o with
    | close fd =>
      exact ⟨List.mem_filter.mpr ⟨hh.1, decide_eq_true ha.1.symm⟩,
        List.mem_filter.mpr ⟨hh.2, decide_eq_true ha.2.symm⟩⟩
    | fork =>
      cases (r : Forked) with
      | child => exact hh.2
      | parent c => exact hh.1
      | failed => exact hh
    | pipe _ | write _ _ | read _ _ | wait _ => exact ha.elim
    | _ => exact hh
  | telling pid => exact trivial
  | told => exact trivial
  | waiting =>
    cases o with
    | close fd => exact List.mem_filter.mpr ⟨hh, decide_eq_true (Ne.symm ha)⟩
    | read _ _ => exact trivial
    | _ => exact ha.elim
  | released => exact trivial

end Role

/-! ### The handshake -/

/-- Who is there, under which pid and in which role, and what the parent has learnt. -/
structure Handshake where
  parent : Option (ℕ × Role)
  middle : Option (ℕ × Role)
  container : Option (ℕ × Role)
  /-- The pid of the container, once it is forked. -/
  born : Option ℕ
  /-- The pid the parent has read. -/
  learnt : Option ℕ
  /-- The middle process has written the pid of the container. -/
  told : Bool

namespace Handshake

/-- The roles, in the order of the processes: a child stands before its parent. -/
def roles (h : Handshake) : List (ℕ × Role) :=
  h.container.toList ++ h.middle.toList ++ h.parent.toList

/-- One role is the container's, the middle process's or the parent's. -/
lemma roles_split {h : Handshake} {l₁ l₂ : List (ℕ × Role)} {x : ℕ × Role}
    (hs : h.roles = l₁ ++ x :: l₂) :
    (h.container = some x ∧ l₁ = [] ∧ l₂ = h.middle.toList ++ h.parent.toList) ∨
    (h.middle = some x ∧ l₁ = h.container.toList ∧ l₂ = h.parent.toList) ∨
    (h.parent = some x ∧ l₁ = h.container.toList ++ h.middle.toList ∧ l₂ = []) := by
  obtain ⟨p, m, c, _, _, _⟩ := h
  rcases p with _ | p <;> rcases m with _ | m <;> rcases c with _ | c <;>
    rcases l₁ with _ | ⟨a, _ | ⟨b, _ | ⟨d, l₁⟩⟩⟩ <;> simp_all [roles]

/-- The handshake after the process `pid` is gone. -/
def without (h : Handshake) (pid : ℕ) : Handshake :=
  { h with
    parent := h.parent.filter fun x => x.1 ≠ pid
    middle := h.middle.filter fun x => x.1 ≠ pid
    container := h.container.filter fun x => x.1 ≠ pid }

lemma roles_without (h : Handshake) (pid : ℕ) :
    (h.without pid).roles = h.roles.filter fun x => x.1 ≠ pid := by
  have htoList : ∀ x : Option (ℕ × Role), (x.filter fun x => x.1 ≠ pid).toList =
      x.toList.filter fun x => x.1 ≠ pid := by
    intro x
    cases x with
    | none => rfl
    | some x => by_cases hx : x.1 = pid <;> simp [hx]
  simp only [roles, without, htoList, List.filter_append]

end Handshake

/-- Some process is in the cgroup, and wired when there is to be a network. -/
def Settled (net : Bool) (w : Confinement) : Prop :=
  ∃ c ∈ w.moved, net = true → c ∈ w.wired

/-- What the role of the parent says about the others. -/
def ParentSound (h : Handshake) (buf : Pipe → List UInt8) (w : Confinement) : Role → Prop
  | .setup _ _ => h.middle = none ∧ h.container = none ∧ h.born = none ∧ h.told = false ∧
      h.learnt = none ∧ (∀ p, buf p = [])
  | .forked => h.learnt = none
  | .learnt pid moved wired => h.learnt = some pid ∧ (moved = true → pid ∈ w.moved) ∧
      (wired = true → pid ∈ w.wired)
  | _ => False

/-- What the role of the middle process says about the container. -/
def MiddleSound (h : Handshake) : Role → Prop
  | .middle => h.born = none ∧ h.told = false
  | .telling pid => h.born = some pid ∧ h.told = false
  | .told => h.told = true
  | _ => False

/-- How roles, pipes and what the parent has done fit together. -/
structure Sound (net : Bool) (root : ℕ) (h : Handshake) (buf : Pipe → List UInt8)
    (w : Confinement) : Prop where
  parent : ∀ x ∈ h.parent, x.1 = root ∧ ParentSound h buf w x.2
  middle : ∀ x ∈ h.middle, MiddleSound h x.2
  /-- The container is released when the parent has settled. -/
  container : ∀ x ∈ h.container, h.born = some x.1 ∧
    (x.2 = .waiting ∨ x.2 = .released ∧ Settled net w)
  born : ∀ c ∈ h.born, c < 2 ^ 31
  goBuf : buf .go ≠ [] → Settled net w
  untold : h.told = false → buf .pidp = []
  unread : h.told = true → h.learnt = none → ∃ c, h.born = some c ∧ buf .pidp = toLE 4 c
  /-- The middle process does not leave before it has told what it knows. -/
  silent : h.parent ≠ none → h.middle = none → h.born ≠ none → h.told = true
  learnt : ∀ c ∈ h.learnt, h.born = some c ∨ h.born = none ∧ h.middle = none
  moved : ∀ c ∈ w.moved, h.learnt = some c
  wired : ∀ c ∈ w.wired, h.learnt = some c
  /-- Without the parent, nobody is left or the container is settled. -/
  orphan : h.parent = none → h.middle = none ∧ h.container = none ∨ Settled net w

/-- The processes of the system, as a handshake. -/
structure Shows (net : Bool) (root : ℕ) (s : System) (h : Handshake) : Prop where
  played : Played (Role.Allowed net) Role.move (Role.Holds net) s.procs h.roles
  pids : (s.procs.map Process.pid).Nodup
  sound : Sound net root h s.buf s.world

section Steps

variable {net : Bool} {root : ℕ} {h : Handshake} {buf : Pipe → List UInt8} {w : Confinement}
  {s : System} {q : Process Pipe ⟨SpawnAct, fun _ => Except RuntimeError Unit⟩}
  {o : SpawnSig.Op} {r : SpawnSig.Reply o} {ρ : Role}

/-- What the parent has read is the pid of the container, when there is one. -/
lemma Sound.container_settled (hs : Sound net root h buf w) (hw : Settled net w) {x : ℕ × Role}
    (hx : x ∈ h.container) : x.1 ∈ w.moved ∧ (net = true → x.1 ∈ w.wired) := by
  obtain ⟨c, hc, hnet⟩ := hw
  have hborn := (hs.container x hx).1
  rcases hs.learnt c (hs.moved c hc) with hb | ⟨hb, -⟩
  · obtain rfl : x.1 = c := Option.some.inj (hborn.symm.trans hb)
    exact ⟨hc, hnet⟩
  · rw [hborn] at hb
    cases hb

/-- The parent goes on, and nothing else changes. -/
lemma Sound.parent_quiet (hs : Sound net root h buf w) {pid : ℕ} (hp : h.parent = some (pid, ρ))
    {ρ' : Role} (hρ : ParentSound h buf w ρ') :
    Sound net root { h with parent := some (pid, ρ') } buf w :=
  { hs with
    parent := by
      rintro _ ⟨⟩
      exact ⟨(hs.parent _ hp).1, hρ⟩
    silent := fun _ => hs.silent (by simp [hp])
    orphan := nofun }

/-- The parent forks the middle process. -/
lemma Sound.fork_middle (hs : Sound net root h buf w) {pid c : ℕ} {go pidp : Bool}
    (hp : h.parent = some (pid, .setup go pidp)) :
    Sound net root { h with parent := some (pid, .forked), middle := some (c, .middle) } buf w := by
  obtain ⟨hpid, hmid, hcon, hborn, htold, hlearnt, hbuf⟩ := hs.parent _ hp
  exact { hs with
    parent := by
      rintro _ ⟨⟩
      exact ⟨hpid, hlearnt⟩
    middle := by
      rintro _ ⟨⟩
      exact ⟨hborn, htold⟩
    silent := nofun
    learnt := fun c hc => by
      rw [show h.learnt = some c from hc] at hlearnt
      cases hlearnt
    orphan := nofun }

/-- The parent reads a pid: the container's, or none when there is no container.

**Proof sketch.** What is in the pipe is what the middle process has told. When nothing comes, the
middle process is gone without a word, and a middle process that has forked does not leave before it
has told. -/
lemma Sound.learn (hs : Sound net root h buf w) {pid : ℕ} (hp : h.parent = some (pid, .forked))
    {data : List UInt8} (hdata : (buf .pidp ≠ [] ∧ data = (buf .pidp).take 4) ∨
      (buf .pidp = [] ∧ data = [] ∧ ∀ x ∈ h.middle, x.2 = .told))
    {buf' : Pipe → List UInt8} (hgo : buf' .go = buf .go)
    (hpidp : buf' .pidp = (buf .pidp).drop 4) :
    Sound net root { h with
      parent := some (pid, .learnt (ofLE data) false false)
      learnt := some (ofLE data) } buf' w := by
  have hlearnt : h.learnt = none := (hs.parent _ hp).2
  have hnone : ∀ {P : Prop} {c : ℕ}, h.learnt = some c → P := fun hc => by
    rw [hlearnt] at hc
    cases hc
  have hknown : h.born = some (ofLE data) ∨ h.born = none ∧ h.middle = none := by
    cases htold : h.told with
    | true =>
      obtain ⟨c, hc, hbuf⟩ := hs.unread htold hlearnt
      rcases hdata with ⟨-, rfl⟩ | ⟨hempty, -⟩
      · have hlt : c < 256 ^ 4 := lt_trans (hs.born c hc) (by decide)
        rw [hbuf, List.take_of_length_le (by simp), ofLE_toLE_of_lt hlt]
        exact .inl hc
      · rw [hbuf] at hempty
        simp [toLE] at hempty
    | false =>
      rcases hdata with ⟨hne, -⟩ | ⟨-, -, hmid⟩
      · exact absurd (hs.untold htold) hne
      · have hgone : h.middle = none := by
          cases hm : h.middle with
          | none => rfl
          | some x =>
            have hx := hs.middle x hm
            rw [hmid x hm, MiddleSound, htold] at hx
            cases hx
        refine .inr ⟨?_, hgone⟩
        by_contra hborn
        have := hs.silent (by simp [hp]) hgone hborn
        simp [htold] at this
  exact { hs with
    parent := by
      rintro _ ⟨⟩
      refine ⟨(hs.parent _ hp).1, rfl, ?_, ?_⟩ <;> rintro ⟨⟩
    goBuf := fun hne => hs.goBuf (hgo ▸ hne)
    untold := fun htold => by rw [hpidp, hs.untold htold]; rfl
    unread := by
      rintro _ ⟨⟩
    silent := fun _ => hs.silent (by simp [hp])
    learnt := by
      rintro _ ⟨⟩
      exact hknown
    moved := fun c hc => hnone (hs.moved c hc)
    wired := fun c hc => hnone (hs.wired c hc)
    orphan := by rintro ⟨⟩ }

/-- The parent moves or wires the process it has learnt of. -/
lemma Sound.confine (hs : Sound net root h buf w) {pid c : ℕ} {moved wired moved' wired' : Bool}
    (hp : h.parent = some (pid, .learnt c moved wired)) {w' : Confinement}
    (hmoved : ∀ x, x ∈ w.moved → x ∈ w'.moved) (hwired : ∀ x, x ∈ w.wired → x ∈ w'.wired)
    (hmoved' : ∀ x ∈ w'.moved, x = c ∨ x ∈ w.moved) (hwired' : ∀ x ∈ w'.wired, x = c ∨ x ∈ w.wired)
    (hm : moved' = true → c ∈ w'.moved) (hw : wired' = true → c ∈ w'.wired) :
    Sound net root { h with parent := some (pid, .learnt c moved' wired') } buf w' := by
  have hlearnt : h.learnt = some c := (hs.parent _ hp).2.1
  have hsettled : Settled net w → Settled net w' := fun ⟨x, hx, hnet⟩ =>
    ⟨x, hmoved x hx, fun hn => hwired x (hnet hn)⟩
  exact { hs with
    parent := by
      rintro _ ⟨⟩
      exact ⟨(hs.parent _ hp).1, hlearnt, hm, hw⟩
    container := fun x hx =>
      ⟨(hs.container x hx).1, (hs.container x hx).2.imp id fun hr => ⟨hr.1, hsettled hr.2⟩⟩
    goBuf := fun hne => hsettled (hs.goBuf hne)
    silent := fun _ => hs.silent (by simp [hp])
    moved := fun x hx => (hmoved' x hx).elim (fun hxc => hxc ▸ hlearnt) (hs.moved x)
    wired := fun x hx => (hwired' x hx).elim (fun hxc => hxc ▸ hlearnt) (hs.wired x)
    orphan := nofun }

/-- After the fork, the parent knows of the others by what it has learnt. -/
lemma ParentSound.forked (hρ : ParentSound h buf w ρ) (hne : ∀ go pidp, ρ ≠ .setup go pidp)
    {h' : Handshake} {buf' : Pipe → List UInt8} (hl : h'.learnt = h.learnt) :
    ParentSound h' buf' w ρ := by
  cases ρ with
  | setup go pidp => exact absurd rfl (hne go pidp)
  | forked => exact hl.trans hρ
  | learnt pid moved wired => exact ⟨hl.trans hρ.1, hρ.2⟩
  | _ => exact hρ

/-- There is no middle process, and no container, before the parent has forked. -/
lemma Sound.not_setup (hs : Sound net root h buf w) (hne : h.middle ≠ none ∨ h.container ≠ none)
    {x : ℕ × Role} (hx : x ∈ h.parent) (go pidp : Bool) : x.2 ≠ .setup go pidp := by
  intro heq
  have hpar := (hs.parent x hx).2
  rw [heq] at hpar
  exact hne.elim (fun hm => hm hpar.1) fun hc => hc hpar.2.1

/-- The parent writes to the container when it has settled it. -/
lemma Sound.write_go (hs : Sound net root h buf w) (hw : Settled net w)
    {buf' : Pipe → List UInt8} (hpidp : buf' .pidp = buf .pidp)
    (hne : ∀ x ∈ h.parent, ∀ go pidp, x.2 ≠ .setup go pidp) : Sound net root h buf' w :=
  { hs with
    parent := fun x hx => ⟨(hs.parent x hx).1, (hs.parent x hx).2.forked (hne x hx) rfl⟩
    goBuf := fun _ => hw
    untold := fun htold => hpidp ▸ hs.untold htold
    unread := fun htold hl => hpidp ▸ hs.unread htold hl }

/-- The middle process goes on, and nothing else changes. -/
lemma Sound.middle_quiet (hs : Sound net root h buf w) {pid : ℕ} (hm : h.middle = some (pid, ρ))
    {ρ' : Role} (hρ : MiddleSound h ρ') :
    Sound net root { h with middle := some (pid, ρ') } buf w :=
  { hs with
    parent := fun x hx => ⟨(hs.parent x hx).1,
      (hs.parent x hx).2.forked (hs.not_setup (.inl (by simp [hm])) hx) rfl⟩
    middle := by
      rintro _ ⟨⟩
      exact hρ
    silent := nofun
    learnt := fun c hc => .inl ((hs.learnt c hc).resolve_right (by simp [hm]))
    orphan := fun hp => .inr ((hs.orphan hp).resolve_left (by simp [hm])) }

/-- The middle process forks the container. -/
lemma Sound.fork_container (hs : Sound net root h buf w) {pid c : ℕ}
    (hm : h.middle = some (pid, .middle)) (hc : c < 2 ^ 31) :
    h.container = none ∧ Sound net root { h with
      middle := some (pid, .telling c)
      container := some (c, .waiting)
      born := some c } buf w := by
  obtain ⟨hborn, htold⟩ := hs.middle _ hm
  refine ⟨?_, { hs with
    parent := fun x hx => ⟨(hs.parent x hx).1,
      (hs.parent x hx).2.forked (hs.not_setup (.inl (by simp [hm])) hx) rfl⟩
    middle := by
      rintro _ ⟨⟩
      exact ⟨rfl, htold⟩
    container := by
      rintro _ ⟨⟩
      exact ⟨rfl, .inl rfl⟩
    born := by
      rintro _ ⟨⟩
      exact hc
    unread := fun h => absurd h (by simp [htold])
    silent := nofun
    learnt := fun x hx => absurd (hs.learnt x hx) (by simp [hborn, hm])
    orphan := fun hp => .inr ((hs.orphan hp).resolve_left (by simp [hm])) }⟩
  cases hcon : h.container with
  | none => rfl
  | some x =>
    have := (hs.container x hcon).1
    rw [hborn] at this
    cases this

/-- The middle process tells the pid of the container. -/
lemma Sound.tell (hs : Sound net root h buf w) {pid c : ℕ} (hm : h.middle = some (pid, .telling c))
    {buf' : Pipe → List UInt8} (hgo : buf' .go = buf .go)
    (hpidp : buf' .pidp = buf .pidp ++ toLE 4 c) :
    Sound net root { h with middle := some (pid, .told), told := true } buf' w := by
  obtain ⟨hborn, htold⟩ := hs.middle _ hm
  exact { hs with
    parent := fun x hx => ⟨(hs.parent x hx).1,
      (hs.parent x hx).2.forked (hs.not_setup (.inl (by simp [hm])) hx) rfl⟩
    middle := by
      rintro _ ⟨⟩
      exact rfl
    goBuf := fun hne => hs.goBuf (hgo ▸ hne)
    untold := nofun
    unread := fun _ _ => ⟨c, hborn, by rw [hpidp, hs.untold htold, List.nil_append]⟩
    silent := nofun
    learnt := fun x hx => .inl ((hs.learnt x hx).resolve_right (by simp [hm]))
    orphan := fun hp => .inr ((hs.orphan hp).resolve_left (by simp [hm])) }

/-- The container goes on, and is released only when the parent has settled it. -/
lemma Sound.container_moves (hs : Sound net root h buf w) {pid : ℕ}
    (hc : h.container = some (pid, ρ)) {ρ' : Role}
    (hρ : ρ' = .waiting ∨ ρ' = .released ∧ Settled net w) {buf' : Pipe → List UInt8}
    (hgo : buf' .go ≠ [] → Settled net w) (hpidp : buf' .pidp = buf .pidp) :
    Sound net root { h with container := some (pid, ρ') } buf' w :=
  { hs with
    parent := fun x hx => ⟨(hs.parent x hx).1,
      (hs.parent x hx).2.forked (hs.not_setup (.inr (by simp [hc])) hx) rfl⟩
    container := by
      rintro _ ⟨⟩
      exact ⟨(hs.container _ hc).1, hρ⟩
    goBuf := hgo
    untold := fun htold => hpidp ▸ hs.untold htold
    unread := fun htold hl => hpidp ▸ hs.unread htold hl
    orphan := fun hp => .inr ((hs.orphan hp).resolve_left (by simp [hc])) }

/-- When the container reads, there is a byte of the parent, or the parent has closed the pipe or is
gone: in each case it has settled the container before. -/
lemma Shows.settled_of_read (hs : Shows net root s h) {pid : ℕ}
    (hc : h.container = some (pid, .waiting))
    (hread : s.buf .go ≠ [] ∨ ∀ q ∈ s.procs, goWrite ∉ q.fds) : Settled net s.world := by
  rcases hread with hne | hnone
  · exact hs.sound.goBuf hne
  · cases hp : h.parent with
    | none => exact (hs.sound.orphan hp).resolve_left (by simp [hc])
    | some x =>
      have hpar := hs.sound.parent x hp
      have hmem : x ∈ h.roles := by simp [Handshake.roles, hp]
      obtain ⟨q, hq, -, hholds⟩ := hs.played.exists_process hmem
      obtain ⟨pid', ρ⟩ := x
      cases ρ with
      | setup go pidp => exact absurd rfl (hs.sound.not_setup (.inr (by simp [hc])) hp go pidp)
      | forked => exact absurd hholds.1 (hnone q hq)
      | learnt c moved wired =>
        obtain ⟨rfl, hnet⟩ := Or.resolve_right hholds (hnone q hq)
        exact ⟨c, hpar.2.2.1 rfl, fun hn => hpar.2.2.2 (hnet hn)⟩
      | _ => exact hpar.2.elim

/-- A process ends: the parent not before the container is settled or nobody else is left, and the
middle process not before it has told what it knows. -/
lemma Sound.without (hs : Sound net root h buf w) {pid : ℕ}
    (hpar : ∀ x ∈ h.parent, x.1 = pid → h.middle = none ∧ h.container = none ∨ Settled net w)
    (hmid : (h.without pid).parent ≠ none → ∀ x ∈ h.middle, x.1 = pid → h.born ≠ none →
      h.told = true) : Sound net root (h.without pid) buf w := by
  have hmem : ∀ {x : ℕ × Role} {y : Option (ℕ × Role)},
      x ∈ y.filter (fun x => x.1 ≠ pid) → x ∈ y := fun hx => (Option.mem_filter_iff.mp hx).1
  have hnone : ∀ {y : Option (ℕ × Role)}, y = none → y.filter (fun x => x.1 ≠ pid) = none :=
    fun h => by rw [h]; rfl
  have hgone : ∀ {y : Option (ℕ × Role)}, y.filter (fun x => x.1 ≠ pid) = none →
      y = none ∨ ∃ x ∈ y, x.1 = pid := by
    intro y hy
    cases y with
    | none => exact .inl rfl
    | some x => exact .inr ⟨x, rfl, by simpa using hy⟩
  exact { hs with
    parent := fun x hx => by
      obtain ⟨hroot, hsound⟩ := hs.parent x (hmem hx)
      refine ⟨hroot, ?_⟩
      obtain ⟨pid', ρ⟩ := x
      cases ρ with
      | setup go pidp => exact ⟨hnone hsound.1, hnone hsound.2.1, hsound.2.2⟩
      | _ => exact hsound
    middle := fun x hx => hs.middle x (hmem hx)
    container := fun x hx => hs.container x (hmem hx)
    silent := fun hp hm hborn => by
      rcases hgone hm with hm' | ⟨x, hx, hxp⟩
      · exact hs.silent (fun hn => hp (hnone hn)) hm' hborn
      · exact hmid hp x hx hxp hborn
    learnt := fun c hc => (hs.learnt c hc).imp id fun hn => ⟨hn.1, hnone hn.2⟩
    orphan := fun hp => by
      have hall := (hgone hp).elim hs.orphan fun ⟨x, hx, hxp⟩ => hpar x hx hxp
      exact hall.imp (fun hn => ⟨hnone hn.1, hnone hn.2⟩) id }

/-- A call of the parent. -/
lemma Shows.parent_call (hs : Shows net root s h) (hr : Enabled spawnMachine s q o r)
    (hp : h.parent = some (q.pid, ρ)) (ha : ρ.Allowed net o) (hh : ρ.Holds net q.fds) :
    ∃ h', h'.roles = bornRoles Role.move ρ o r ++
        (h.container.toList ++ h.middle.toList ++ [(q.pid, ρ.move o r)]) ∧
      Sound net root h' (bufAfter s.buf q.fds o r) (worldAfter spawnMachine s.world o r) := by
  have hsound := hs.sound
  have hpar := (hsound.parent _ hp).2
  have hquiet : ∀ ρ', ParentSound h s.buf s.world ρ' → ∃ h' : Handshake, h'.roles =
      h.container.toList ++ h.middle.toList ++ [(q.pid, ρ')] ∧ Sound net root h' s.buf s.world :=
    fun ρ' hρ => ⟨_, rfl, hsound.parent_quiet hp hρ⟩
  cases ρ with
  | setup go pidp =>
    cases o with
    | pipe p => cases p <;> exact hquiet _ hpar
    | fork =>
      cases (r : Forked) with
      | child => exact hr.elim
      | parent c =>
        refine ⟨_, ?_, hsound.fork_middle (c := c) hp⟩
        simp [Handshake.roles, bornRoles, Role.move, hpar.1, hpar.2.1]
      | failed => exact hquiet _ hpar
    | act a =>
      cases a with
      | cgroupCreate _ | cgroupApply _ => exact hquiet _ hpar
      | _ => exact ha.elim
    | wait _ => exact hquiet _ hpar
    | exit _ => cases (r : Empty)
    | close _ | write _ _ | read _ _ => exact ha.elim
  | forked =>
    cases o with
    | close fd => exact hquiet _ hpar
    | read fd n =>
      obtain ⟨rfl, rfl⟩ := ha
      refine ⟨_, rfl, hsound.learn hp ?_ (bufAfter_read_of_ne (by decide)) (bufAfter_read hh.2)⟩
      refine (read_inv hr hh.2).imp id fun ⟨hempty, hdata, hnone⟩ => ⟨hempty, hdata, fun x hx => ?_⟩
      have hmem : x ∈ h.roles := by simp [Handshake.roles, Option.mem_def.mp hx]
      obtain ⟨q', hq', -, hholds⟩ := hs.played.exists_process hmem
      have hmid := hsound.middle x hx
      obtain ⟨pid, ρ⟩ := x
      cases ρ with
      | middle => exact absurd hholds.1 (hnone q' hq')
      | telling c => exact absurd hholds (hnone q' hq')
      | told => rfl
      | _ => exact hmid.elim
    | _ => exact ha.elim
  | learnt c moved wired =>
    cases o with
    | close fd => exact hquiet _ hpar
    | wait _ => exact hquiet _ hpar
    | write fd data =>
      obtain ⟨rfl, rfl, hnet⟩ := ha
      refine ⟨h, ?_, hsound.write_go ⟨c, hpar.2.1 rfl, fun hn => hpar.2.2 (hnet hn)⟩
        (bufAfter_write_of_ne (by decide)) ?_⟩
      · rw [Handshake.roles, hp]
        rfl
      · intro x hx go pidp heq
        obtain rfl := Option.some.inj (hp.symm.trans hx)
        cases heq
    | act a =>
      cases a with
      | addProcess c' =>
        obtain rfl : c' = c := ha
        cases r with
        | error e =>
          refine hquiet _ ?_
          simpa [Role.move, Except.isOk, Except.toBool] using hpar
        | ok _ =>
          exact ⟨_, rfl, hsound.confine hp (fun x hx => List.mem_cons_of_mem _ hx)
            (fun x hx => hx) (fun x hx => List.mem_cons.mp hx) (fun x hx => .inr hx)
            (fun _ => List.mem_cons_self ..) hpar.2.2⟩
      | networkSetup _ c' _ =>
        obtain rfl : c' = c := ha
        cases r with
        | error e =>
          refine hquiet _ ?_
          simpa [Role.move, Except.isOk, Except.toBool] using hpar
        | ok _ =>
          exact ⟨_, rfl, hsound.confine hp (fun x hx => hx)
            (fun x hx => List.mem_cons_of_mem _ hx) (fun x hx => .inr hx)
            (fun x hx => List.mem_cons.mp hx) hpar.2.1 (fun _ => List.mem_cons_self ..)⟩
      | _ => exact ha.elim
    | exit _ => cases (r : Empty)
    | pipe _ | fork | read _ _ => exact ha.elim
  | _ => exact hpar.elim

/-- A call of the middle process. -/
lemma Shows.middle_call (hs : Shows net root s h) (hr : Enabled spawnMachine s q o r)
    (hm : h.middle = some (q.pid, ρ)) (ha : ρ.Allowed net o) (hh : ρ.Holds net q.fds) :
    ∃ h', h'.roles = bornRoles Role.move ρ o r ++
        (h.container.toList ++ (q.pid, ρ.move o r) :: h.parent.toList) ∧
      Sound net root h' (bufAfter s.buf q.fds o r) (worldAfter spawnMachine s.world o r) := by
  have hsound := hs.sound
  have hmid := hsound.middle _ hm
  have hquiet : ∀ ρ', MiddleSound h ρ' → ∃ h' : Handshake, h'.roles =
      h.container.toList ++ (q.pid, ρ') :: h.parent.toList ∧
      Sound net root h' s.buf s.world :=
    fun ρ' hρ => ⟨_, by simp [Handshake.roles], hsound.middle_quiet hm hρ⟩
  cases ρ with
  | middle =>
    cases o with
    | close fd => exact hquiet _ hmid
    | fork =>
      cases (r : Forked) with
      | child => exact hr.elim
      | parent c =>
        obtain ⟨hnone, hnext⟩ := hsound.fork_container hm hr.2.1
        exact ⟨_, by simp [Handshake.roles, bornRoles, Role.move, hnone], hnext⟩
      | failed => exact hquiet _ hmid
    | act a =>
      cases a with
      | unshare => exact hquiet _ hmid
      | _ => exact ha.elim
    | exit _ => cases (r : Empty)
    | _ => exact ha.elim
  | telling c =>
    obtain rfl : o = .write pidWrite (toLE 4 c) := ha
    refine ⟨_, ?_, hsound.tell hm (bufAfter_write_of_ne (by decide)) (bufAfter_write hh)⟩
    simp [Handshake.roles, bornRoles, Role.move]
  | told =>
    cases o with
    | wait _ => exact hquiet _ hmid
    | exit _ => cases (r : Empty)
    | _ => exact ha.elim
  | _ => exact hmid.elim

/-- A call of the container. -/
lemma Shows.container_call (hs : Shows net root s h) (hr : Enabled spawnMachine s q o r)
    (hc : h.container = some (q.pid, ρ)) (ha : ρ.Allowed net o) (hh : ρ.Holds net q.fds) :
    ∃ h', h'.roles = bornRoles Role.move ρ o r ++
        ((q.pid, ρ.move o r) :: (h.middle.toList ++ h.parent.toList)) ∧
      Sound net root h' (bufAfter s.buf q.fds o r) (worldAfter spawnMachine s.world o r) := by
  have hsound := hs.sound
  obtain ⟨-, hcon⟩ := hsound.container _ hc
  have hquiet : ∀ ρ', (ρ' = .waiting ∨ ρ' = .released ∧ Settled net s.world) →
      ∃ h' : Handshake, h'.roles = (q.pid, ρ') :: (h.middle.toList ++ h.parent.toList) ∧
      Sound net root h' s.buf s.world :=
    fun ρ' hρ => ⟨_, by simp [Handshake.roles], hsound.container_moves hc hρ hsound.goBuf rfl⟩
  cases ρ with
  | waiting =>
    cases o with
    | close fd => exact hquiet _ hcon
    | read fd n =>
      obtain ⟨rfl, rfl⟩ := ha
      have hsettled : Settled net s.world :=
        hs.settled_of_read hc ((read_inv hr hh).imp And.left fun hnone => hnone.2.2)
      refine ⟨_, ?_, hsound.container_moves hc (.inr ⟨rfl, hsettled⟩) (fun _ => hsettled)
        (bufAfter_read_of_ne (by decide))⟩
      simp [Handshake.roles, bornRoles, Role.move]
    | _ => exact ha.elim
  | released =>
    cases o with
    | close fd => exact hquiet _ hcon
    | act a =>
      cases a with
      | stage _ | execvpe _ _ _ => exact hquiet _ hcon
      | _ => exact ha.elim
    | exit _ => cases (r : Empty)
    | _ => exact ha.elim
  | _ => simp at hcon

/-- **A call keeps the handshake.** -/
lemma Shows.call (hs : Shows net root s h) {k : SpawnSig.Reply o → Program SpawnSig Unit}
    (hq : q ∈ s.procs) (hprog : q.prog = .call o k) (hr : Enabled spawnMachine s q o r) :
    ∃ h', Shows net root (next spawnMachine s q o k r) h' := by
  obtain ⟨l₁, ρ, l₂, hroles, ha, hh, hnext⟩ :=
    hs.played.call (M := spawnMachine) Role.holds_move hs.pids hq hprog
  have hpids := pids_next (k := k) hs.pids hr
  have hthere : ∃ h', h'.roles = bornRoles Role.move ρ o r ++ (l₁ ++ (q.pid, ρ.move o r) :: l₂) ∧
      Sound net root h' (bufAfter s.buf q.fds o r) (worldAfter spawnMachine s.world o r) := by
    obtain ⟨hc, rfl, rfl⟩ | ⟨hm, rfl, rfl⟩ | ⟨hp, rfl, rfl⟩ := Handshake.roles_split hroles
    · exact hs.container_call hr hc ha hh
    · exact hs.middle_call hr hm ha hh
    · exact hs.parent_call hr hp ha hh
  obtain ⟨h', hroles', hsound'⟩ := hthere
  exact ⟨h', hroles' ▸ hnext r, hpids, hsound'⟩

/-- Everybody but the parent is gone, or the container is settled. -/
def EndsWell (net : Bool) (root : ℕ) (s : System) : Prop :=
  (∀ q ∈ s.procs, q.pid = root) ∨ Settled net s.world

/-- The parent alone is killed, and it does not end, by itself or killed, before it has moved the
container and wired it, unless nobody else is left. -/
def Orderly (net : Bool) (root : ℕ) (s : System) : Label Pipe
    ⟨SpawnAct, fun _ => Except RuntimeError Unit⟩ → Prop
  | .call _ _ => True
  | .exit pid => pid = root → EndsWell net root s
  | .kill pid => pid = root ∧ EndsWell net root s

/-- A parent that ends well leaves nobody, or a settled container. -/
lemma Shows.endsWell (hs : Shows net root s h) (hw : EndsWell net root s) {x : ℕ × Role}
    (hx : x ∈ h.parent) : h.middle = none ∧ h.container = none ∨ Settled net s.world := by
  refine hw.imp_left fun hall => ?_
  have hpids : (h.roles.map Prod.fst).Nodup := hs.played.pids ▸ hs.pids
  have hroot : ∀ y ∈ h.roles, y.1 = root := fun y hy => by
    obtain ⟨q, hq, hpid, -⟩ := hs.played.exists_process hy
    exact hpid.symm.trans (hall q hq)
  obtain ⟨p, m, c, _, _, _⟩ := h
  obtain rfl : p = some x := hx
  cases m with
  | some y =>
    have hy := hroot y (by simp [Handshake.roles])
    have hx := hroot x (by simp [Handshake.roles])
    cases c <;> simp [Handshake.roles, hx, hy] at hpids
  | none =>
    cases c with
    | some y =>
      have hy := hroot y (by simp [Handshake.roles])
      have hx := hroot x (by simp [Handshake.roles])
      simp [Handshake.roles, hx, hy] at hpids
    | none => exact ⟨rfl, rfl⟩

/-- **The end of a process keeps the handshake**, when the parent ends well and the middle process
tells what it knows first. -/
lemma Shows.without (hs : Shows net root s h) {pid : ℕ} (hw : pid = root → EndsWell net root s)
    (hmid : (h.without pid).parent ≠ none → ∀ x ∈ h.middle, x.1 = pid → h.born ≠ none →
      h.told = true) : Shows net root (s.without pid) (h.without pid) where
  played := by
    rw [Handshake.roles_without]
    exact hs.played.without pid
  pids := pids_without pid hs.pids
  sound := hs.sound.without
    (fun x hx hpid => hs.endsWell (hw (hpid ▸ (hs.sound.parent x hx).1)) hx) hmid

/-- **A step keeps the handshake.** -/
lemma Shows.step (hs : Shows net root s h) {s' : System}
    {l : Label Pipe ⟨SpawnAct, fun _ => Except RuntimeError Unit⟩} (hstep : Step spawnMachine s l s')
    (hok : Orderly net root s l) : ∃ h', Shows net root s' h' := by
  cases hstep with
  | call hq hprog hr => exact hs.call hq hprog hr
  | @exit q code k hq hprog =>
    refine ⟨_, hs.without hok fun _ x hx hpid hborn => ?_⟩
    obtain ⟨ρ, hρ, ha⟩ := hs.played.exit hq hprog
    have hpids : (h.roles.map Prod.fst).Nodup := hs.played.pids ▸ hs.pids
    have hmem : x ∈ h.roles := by simp [Handshake.roles, Option.mem_def.mp hx]
    obtain rfl : x = (q.pid, ρ) := List.inj_on_of_nodup_map hpids hmem hρ hpid
    have hmid := hs.sound.middle _ hx
    cases ρ with
    | middle => exact absurd hmid.1 hborn
    | telling c => cases ha
    | told => exact hmid
    | _ => exact hmid.elim
  | kill pid =>
    refine ⟨_, hs.without (fun _ => hok.2) fun hne => ?_⟩
    cases hp : h.parent with
    | none => simp [Handshake.without, hp] at hne
    | some x =>
      have hroot : x.1 = pid := (hs.sound.parent x hp).1.trans hok.1.symm
      simp [Handshake.without, hp, hroot] at hne

/-- The parent alone is a handshake. -/
lemma shows_start (root : ℕ) (cfg : ContainerConfig) (caller : Caller) :
    Shows cfg.network root (start root cfg caller)
      ⟨some (root, .setup false false), none, none, none, none, false⟩ where
  played := .cons ⟨rfl, Role.plays_prog cfg caller, nofun, nofun⟩ .nil
  pids := List.nodup_singleton _
  sound :=
    { parent := by
        rintro _ ⟨⟩
        exact ⟨rfl, rfl, rfl, rfl, rfl, rfl, fun _ => rfl⟩
      middle := nofun
      container := nofun
      born := nofun
      goBuf := fun h => absurd rfl h
      untold := fun _ => rfl
      unread := nofun
      silent := fun _ _ h => absurd rfl h
      learnt := nofun
      moved := nofun
      wired := nofun
      orphan := nofun }

end Steps

/-- **The command is run confined**: in every run in which the parent does not end before it has
moved the container into its cgroup, and wired its network if there is to be one, a process that is
about to become the command has been moved and wired.

**Proof sketch.** The steps keep the handshake (`Shows.step`). Of its roles, only a released
container runs the command, and the container is released when the parent has settled the process
it has learnt of, which is the container (`Sound.container_settled`). -/
theorem confined_of_orderly {root : ℕ} {cfg : ContainerConfig} {caller : Caller} {s : System}
    (h : Reach spawnMachine (Orderly cfg.network root) (start root cfg caller) s)
    {q : Process Pipe ⟨SpawnAct, fun _ => Except RuntimeError Unit⟩} (hq : q ∈ s.procs)
    {prog : String} {argv env : List String}
    {k : Except RuntimeError Unit → Program SpawnSig Unit}
    (hprog : q.prog = .call (.act (.execvpe prog argv env)) k) :
    q.pid ∈ s.world.moved ∧ (cfg.network = true → q.pid ∈ s.world.wired) := by
  obtain ⟨hs, hshows⟩ : ∃ hs, Shows cfg.network root s hs := by
    refine h.invariant (I := fun s => ∃ hs, Shows cfg.network root s hs)
      ⟨_, shows_start root cfg caller⟩ ?_
    rintro s l s' ⟨hs, hshows⟩ hok hstep
    exact hshows.step hstep hok
  obtain ⟨ρ, hρ, ha⟩ := hshows.played.exit hq hprog
  obtain rfl : ρ = .released := by
    cases ρ <;> trivial
  obtain ⟨l₁, l₂, hsplit⟩ := List.append_of_mem hρ
  obtain ⟨hc, -⟩ | ⟨hm, -⟩ | ⟨hp, -⟩ := Handshake.roles_split hsplit
  · obtain ⟨-, hw | ⟨-, hw⟩⟩ := hshows.sound.container _ hc
    · cases hw
    · exact hshows.sound.container_settled hw hc
  · exact (hshows.sound.middle _ hm).elim
  · exact (hshows.sound.parent _ hp).2.elim

/-! ### Runs -/

namespace Demo

/-- A container with a network, which runs a shell. -/
def cfg : ContainerConfig :=
  ⟨"c0ffee", "box", "/srv/rootfs", ["/bin/sh"], [], [], ⟨268435456, 100000, 100000, 64⟩, true,
    false, false⟩

/-- The replies in a run with the parent 1, the middle process 2 and the container 3, in which
everything succeeds but, where `moves` says so, the move into the cgroup. -/
def replies (moves : Bool) : ℕ → (o : SpawnSig.Op) → Option (SpawnSig.Reply o)
  | _, .pipe _ => some true
  | pid, .fork => some (.parent (pid + 1))
  | _, .close _ => some ()
  | _, .write _ _ => some ()
  | _, .read _ n => some (if n = 4 then [3, 0, 0, 0] else if moves then [1] else [])
  | _, .wait _ => none
  | _, .exit _ => none
  | _, .act (.addProcess _) => some (if moves then .ok () else .error (.io "No such process"))
  | _, .act (.execvpe _ _ _) => none
  | _, .act _ => some (.ok ())

/-- A process is about to become the command. -/
def atCommand (q : Process Pipe ⟨SpawnAct, fun _ => Except RuntimeError Unit⟩) : Bool :=
  match q.prog with
  | .call (.act (.execvpe _ _ _)) _ => true
  | _ => false

lemma atCommand_iff {q : Process Pipe ⟨SpawnAct, fun _ => Except RuntimeError Unit⟩} :
    atCommand q = true ↔ ∃ prog argv env k, q.prog = .call (.act (.execvpe prog argv env)) k := by
  unfold atCommand
  split
  · exact ⟨fun _ => ⟨_, _, _, _, ‹_›⟩, fun _ => rfl⟩
  · rename_i hne
    exact ⟨nofun, fun ⟨prog, argv, env, k, hq⟩ => absurd hq (hne prog argv env k)⟩

/-- The parent forks, the middle process forks and tells the pid, and the parent reads it. -/
def forks : List Turn := List.replicate 7 (.call 1) ++ List.replicate 5 (.call 2) ++ [.call 1]

/-- The container goes on to its command. -/
def toCommand : List Turn := List.replicate 9 (.call 3)

/-- The parent in front of a container with a network. -/
def begin : System := start 1 cfg (.detached "/io")

end Demo

/-- A failure of the move into the cgroup ends the parent; the container reads the end of the file
and goes on to its command. -/
theorem runs_unconfined :
    ∃ s, Reach spawnMachine (fun _ l => ∀ pid, l ≠ .kill pid) Demo.begin s ∧
      ∃ q ∈ s.procs, (∃ prog argv env k, q.prog = .call (.act (.execvpe prog argv env)) k) ∧
        q.pid ∉ s.world.moved := by
  have hrun : ((schedule spawnMachine (Demo.replies false)
      (Demo.forks ++ [.call 1, .call 1, .exit 1] ++ Demo.toCommand) Demo.begin).any fun s =>
      s.procs.any fun q => Demo.atCommand q && decide (q.pid ∉ s.world.moved)) = true := by
    decide +kernel
  obtain ⟨s, hs, hany⟩ := (Option.any_eq_true _ _).mp hrun
  obtain ⟨q, hq, hbad⟩ := List.any_eq_true.mp hany
  rw [Bool.and_eq_true, decide_eq_true_iff] at hbad
  exact ⟨s, schedule_reach (fun _ _ _ => by simp) (fun _ _ _ => by simp) hs .refl, q, hq,
    Demo.atCommand_iff.mp hbad.1, hbad.2⟩

theorem confined_demo :
    ∃ s, Reach spawnMachine (Orderly true 1) Demo.begin s ∧
      ∃ q ∈ s.procs, (∃ prog argv env k, q.prog = .call (.act (.execvpe prog argv env)) k) ∧
        q.pid ∈ s.world.moved ∧ (Demo.cfg.network = true → q.pid ∈ s.world.wired) := by
  have hrun : ((schedule spawnMachine (Demo.replies true)
      (Demo.forks ++ List.replicate 5 (.call 1) ++ Demo.toCommand) Demo.begin).any fun s =>
      s.procs.any Demo.atCommand) = true := by
    decide +kernel
  obtain ⟨s, hs, hany⟩ := (Option.any_eq_true _ _).mp hrun
  obtain ⟨q, hq, hcmd⟩ := List.any_eq_true.mp hany
  obtain ⟨prog, argv, env, k, hprog⟩ := Demo.atCommand_iff.mp hcmd
  have hreach : Reach spawnMachine (Orderly true 1) Demo.begin s :=
    schedule_reach (fun _ _ _ => trivial)
      (fun _ _ h => absurd h (by simp [Demo.forks, Demo.toCommand])) hs .refl
  exact ⟨s, hreach, q, hq, ⟨prog, argv, env, k, hprog⟩,
    @confined_of_orderly 1 Demo.cfg (.detached "/io") s hreach q hq prog argv env k hprog⟩

end Spawn

end Mincontainer
