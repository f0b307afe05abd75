import Mincontainer.Effects.Monitor
import Mathlib.Algebra.Group.Nat.Defs
import Mathlib.Data.List.Forall2

set_option relaxedAutoImplicit false
set_option autoImplicit false

/-!
# Processes and pipes

Processes that run programs side by side, fork, and talk over pipes. A fork is a call that is
answered twice: the child goes on with one reply and its parent with the other, and the child holds
the descriptors its parent held. Reading a pipe takes what is there; when nothing is there, it waits
until nobody holds the end for writing, and then reports the end of the file.

Descriptors are named by what they refer to, a pipe and one of its ends.

## Main definitions

* `Effects.ProcSig` — the calls of a process, over pipes `P` and further calls `A`.
* `Effects.Processes` — the processes that run, what is in the pipes, and the world of the further
  calls.
* `Effects.Processes.Step`, `Effects.Processes.Reach` — one step, and the states that are reached by
  steps of a given kind.
* `Effects.Processes.Run` — the states that are reached, with the calls that were made.
* `Effects.Processes.Played` — the processes play roles: each is under a monitor, and holds what its
  role relies on.

## Main results

* `Effects.Processes.Reach.invariant` — what each step preserves holds in every reached state.
* `Effects.Processes.Played.call` — a call is one that the role of its process allows.
* `Effects.Processes.Run.invariant` — the same with the calls that were made.
* `Effects.Processes.advance_step`, `Effects.Processes.play_run` — an executable step is a step, and an
  executable run is a run.
-/

namespace Effects

/-! ### Descriptors and calls -/

/-- The two ends of a pipe. -/
inductive PipeEnd where
  | read
  | write
deriving DecidableEq, Repr

/-- A descriptor: one end of a pipe. -/
structure Fd (P : Type) where
  pipe : P
  dir : PipeEnd
deriving DecidableEq, Repr

/-- What a fork answers: in the child, in its parent, or that it failed. -/
inductive Forked where
  | child
  | parent (pid : ℕ)
  | failed
deriving DecidableEq, Repr

/-- The calls of a process. -/
inductive ProcOp (P : Type) (A : Signature) where
  /-- Create a pipe and hold both its ends. -/
  | pipe (p : P)
  | fork
  | close (fd : Fd P)
  | write (fd : Fd P) (data : List UInt8)
  /-- Read at most `n` bytes. -/
  | read (fd : Fd P) (n : ℕ)
  /-- Wait until a process has ended. -/
  | wait (pid : ℕ)
  | exit (code : ℤ)
  /-- A further call. -/
  | act (a : A.Op)

/-- The replies. -/
@[reducible] def ProcOp.Reply {P : Type} {A : Signature} : ProcOp P A → Type
  | .pipe _ => Bool
  | .fork => Forked
  | .close _ => Unit
  | .write _ _ => Unit
  | .read _ _ => List UInt8
  | .wait _ => ℤ
  | .exit _ => Empty
  | .act a => A.Reply a

/-- The signature of a process. -/
abbrev ProcSig (P : Type) (A : Signature) : Signature := ⟨ProcOp P A, ProcOp.Reply⟩

/-- A process: its pid, what it still has to do, and the descriptors it holds. -/
structure Process (P : Type) (A : Signature) where
  pid : ℕ
  prog : Program (ProcSig P A) Unit
  fds : List (Fd P)

/-- The processes that run, what is in the pipes, and the world of the further calls. -/
structure Processes (P : Type) (A : Signature) (W : Type) where
  procs : List (Process P A)
  buf : P → List UInt8
  world : W

namespace Processes

variable {P : Type} [DecidableEq P] {A : Signature} {W : Type}

/-- The reply a call of `q` can get. -/
def Enabled (M : Machine A W) (s : Processes P A W) (q : Process P A) :
    (o : ProcOp P A) → o.Reply → Prop
  | .fork, (r : Forked) =>
    match r with
    | .child => False
    | .parent c => c ≠ 0 ∧ c < 2 ^ 31 ∧ ∀ q ∈ s.procs, q.pid ≠ c
    | .failed => True
  | .read fd n, (data : List UInt8) =>
    if fd ∉ q.fds then data = []
    else if s.buf fd.pipe ≠ [] then data = (s.buf fd.pipe).take n
    else data = [] ∧ ∀ q ∈ s.procs, ⟨fd.pipe, .write⟩ ∉ q.fds
  | .wait c, _ => ∀ q ∈ s.procs, q.pid ≠ c
  | .act a, r => M.Enabled s.world a r
  | _, _ => True

/-- The descriptors that are held after a call. -/
def fdsAfter (fds : List (Fd P)) : (o : ProcOp P A) → o.Reply → List (Fd P)
  | .pipe p, (r : Bool) => if r then ⟨p, .read⟩ :: ⟨p, .write⟩ :: fds else fds
  | .close fd, _ => fds.filter fun f => f ≠ fd
  | _, _ => fds

/-- What is in the pipes after a call. -/
def bufAfter (buf : P → List UInt8) (fds : List (Fd P)) :
    (o : ProcOp P A) → o.Reply → P → List UInt8
  | .write fd data, _, p => if p = fd.pipe ∧ fd ∈ fds then buf p ++ data else buf p
  | .read fd n, _, p => if p = fd.pipe ∧ fd ∈ fds then (buf p).drop n else buf p
  | _, _, p => buf p

/-- The world after a call. -/
def worldAfter (M : Machine A W) (w : W) : (o : ProcOp P A) → o.Reply → W
  | .act a, r => M.next w a r
  | _, _ => w

/-- The processes a call has started. -/
def born (fds : List (Fd P)) : (o : ProcOp P A) → (o.Reply → Program (ProcSig P A) Unit) → o.Reply →
    List (Process P A)
  | .fork, k, (r : Forked) =>
    match r with
    | .parent c => [⟨c, k .child, fds⟩]
    | _ => []
  | _, _, _ => []

/-- The state after a call of `q`. -/
def next (M : Machine A W) (s : Processes P A W) (q : Process P A) (o : ProcOp P A)
    (k : o.Reply → Program (ProcSig P A) Unit) (r : o.Reply) : Processes P A W where
  procs := born q.fds o k r ++
    s.procs.map fun q' => if q'.pid = q.pid then ⟨q.pid, k r, fdsAfter q.fds o r⟩ else q'
  buf := bufAfter s.buf q.fds o r
  world := worldAfter M s.world o r

/-- The state after a process has ended: its descriptors are closed. -/
def without (s : Processes P A W) (pid : ℕ) : Processes P A W :=
  { s with procs := s.procs.filter fun q => q.pid ≠ pid }

section

variable {M : Machine A W} {s : Processes P A W} {q : Process P A} {buf : P → List UInt8}
  {fds : List (Fd P)} {fd : Fd P} {n : ℕ} {data : List UInt8} {p : P}

/-- A read of an end that is held takes what is there, or finds that nobody can write. -/
lemma read_inv (h : Enabled M s q (.read fd n) data) (hfd : fd ∈ q.fds) :
    (s.buf fd.pipe ≠ [] ∧ data = (s.buf fd.pipe).take n) ∨
      (s.buf fd.pipe = [] ∧ data = [] ∧ ∀ q ∈ s.procs, ⟨fd.pipe, .write⟩ ∉ q.fds) := by
  rw [Enabled, if_neg (not_not.mpr hfd)] at h
  by_cases hne : s.buf fd.pipe ≠ []
  · rw [if_pos hne] at h
    exact .inl ⟨hne, h⟩
  · rw [if_neg hne] at h
    exact .inr ⟨not_not.mp hne, h⟩

lemma bufAfter_write_of_ne {r : Unit} (h : p ≠ fd.pipe) :
    bufAfter (A := A) buf fds (.write fd data) r p = buf p :=
  if_neg fun hp => h hp.1

lemma bufAfter_write {r : Unit} (h : fd ∈ fds) :
    bufAfter (A := A) buf fds (.write fd data) r fd.pipe = buf fd.pipe ++ data :=
  if_pos ⟨rfl, h⟩

lemma bufAfter_read_of_ne (h : p ≠ fd.pipe) :
    bufAfter (A := A) buf fds (.read fd n) data p = buf p :=
  if_neg fun hp => h hp.1

lemma bufAfter_read (h : fd ∈ fds) :
    bufAfter (A := A) buf fds (.read fd n) data fd.pipe = (buf fd.pipe).drop n :=
  if_pos ⟨rfl, h⟩

end

/-- What a step is. -/
inductive Label (P : Type) (A : Signature) where
  | call (pid : ℕ) (o : ProcOp P A)
  /-- The process exits. -/
  | exit (pid : ℕ)
  /-- The process is killed. -/
  | kill (pid : ℕ)

/-- One step: a process makes its next call, exits, or is killed. -/
inductive Step (M : Machine A W) : Processes P A W → Label P A → Processes P A W → Prop
  | call {s : Processes P A W} {q : Process P A} {o : ProcOp P A}
      {k : o.Reply → Program (ProcSig P A) Unit} {r : o.Reply} (hq : q ∈ s.procs)
      (hprog : q.prog = .call o k) (hr : Enabled M s q o r) :
      Step M s (.call q.pid o) (next M s q o k r)
  | exit {s : Processes P A W} {q : Process P A} {code : ℤ}
      {k : Empty → Program (ProcSig P A) Unit} (hq : q ∈ s.procs)
      (hprog : q.prog = .call (.exit code) k) : Step M s (.exit q.pid) (s.without q.pid)
  | kill (s : Processes P A W) (pid : ℕ) : Step M s (.kill pid) (s.without pid)

/-- The states reached from `s₀` by steps that satisfy `Ok`. -/
inductive Reach (M : Machine A W) (Ok : Processes P A W → Label P A → Prop) (s₀ : Processes P A W) :
    Processes P A W → Prop
  | refl : Reach M Ok s₀ s₀
  | step {s s' : Processes P A W} {l : Label P A} (h : Reach M Ok s₀ s) (hstep : Step M s l s')
      (hok : Ok s l) : Reach M Ok s₀ s'

/-- **Invariant rule.** -/
lemma Reach.invariant {M : Machine A W} {Ok : Processes P A W → Label P A → Prop}
    {s₀ s : Processes P A W} {I : Processes P A W → Prop} (h : Reach M Ok s₀ s) (h₀ : I s₀)
    (hstep : ∀ s l s', I s → Ok s l → Step M s l s' → I s') : I s := by
  induction h with
  | refl => exact h₀
  | step _ hs hok ih => exact hstep _ _ _ ih hok hs

/-- The states reached from `s₀` in any way, with the calls on the way there: who made it, and what it
was answered. A process can be gone at any time, be it that it exits or that it is killed. -/
inductive Run (M : Machine A W) (s₀ : Processes P A W) :
    List (ℕ × (ProcSig P A).Event) → Processes P A W → Prop
  | start : Run M s₀ [] s₀
  | call {tr : List (ℕ × (ProcSig P A).Event)} {s : Processes P A W} {q : Process P A}
      {o : ProcOp P A} {k : o.Reply → Program (ProcSig P A) Unit} {r : o.Reply} (h : Run M s₀ tr s)
      (hq : q ∈ s.procs) (hprog : q.prog = .call o k) (hr : Enabled M s q o r) :
      Run M s₀ (tr ++ [(q.pid, ⟨o, r⟩)]) (next M s q o k r)
  | gone {tr : List (ℕ × (ProcSig P A).Event)} {s : Processes P A W} (h : Run M s₀ tr s) (pid : ℕ) :
      Run M s₀ tr (s.without pid)

/-- **Invariant rule**, for what is said about the calls as well. -/
lemma Run.invariant {M : Machine A W} {s₀ s : Processes P A W}
    {tr : List (ℕ × (ProcSig P A).Event)} {I : List (ℕ × (ProcSig P A).Event) → Processes P A W → Prop}
    (h : Run M s₀ tr s) (h₀ : I [] s₀)
    (hcall : ∀ (tr : List (ℕ × (ProcSig P A).Event)) (s : Processes P A W) (q : Process P A)
      (o : ProcOp P A) (k : o.Reply → Program (ProcSig P A) Unit) (r : o.Reply), I tr s →
      q ∈ s.procs → q.prog = .call o k → Enabled M s q o r →
        I (tr ++ [(q.pid, ⟨o, r⟩)]) (next M s q o k r))
    (hgone : ∀ (tr : List (ℕ × (ProcSig P A).Event)) (s : Processes P A W) (pid : ℕ), I tr s →
      I tr (s.without pid)) : I tr s := by
  induction h with
  | start => exact h₀
  | call _ hq hprog hr ih => exact hcall _ _ _ _ _ _ ih hq hprog hr
  | gone _ pid ih => exact hgone _ _ pid ih

/-- Where pids are distinct, a call changes the process that makes it and starts what it forks. -/
lemma next_procs {M : Machine A W} {s : Processes P A W} {q : Process P A} {o : ProcOp P A}
    {k : o.Reply → Program (ProcSig P A) Unit} {r : o.Reply} {l₁ l₂ : List (Process P A)}
    (hs : s.procs = l₁ ++ q :: l₂) (hn : (s.procs.map Process.pid).Nodup) :
    (next M s q o k r).procs =
      born q.fds o k r ++ (l₁ ++ ⟨q.pid, k r, fdsAfter q.fds o r⟩ :: l₂) := by
  rw [hs, List.map_append, List.map_cons, List.nodup_append] at hn
  obtain ⟨-, h₂, h₁⟩ := hn
  have hl : ∀ q' ∈ l₁, q'.pid ≠ q.pid := fun q' hq' =>
    h₁ _ (List.mem_map_of_mem hq') _ (List.mem_cons_self ..)
  have hr : ∀ q' ∈ l₂, q'.pid ≠ q.pid := fun q' hq' heq =>
    (List.nodup_cons.mp h₂).1 (heq ▸ List.mem_map_of_mem hq')
  have hsame : ∀ l : List (Process P A), (∀ q' ∈ l, q'.pid ≠ q.pid) →
      (l.map fun q' => if q'.pid = q.pid then ⟨q.pid, k r, fdsAfter q.fds o r⟩ else q') = l := by
    intro l hl
    exact (List.map_congr_left fun q' hq' => if_neg (hl q' hq')).trans (List.map_id' l)
  rw [next, hs, List.map_append, List.map_cons, hsame l₁ hl, hsame l₂ hr, if_pos rfl]

omit [DecidableEq P] in
omit [DecidableEq P] in
omit [DecidableEq P] in
lemma pids_without {s : Processes P A W} (pid : ℕ) (hn : (s.procs.map Process.pid).Nodup) :
    ((s.without pid).procs.map Process.pid).Nodup :=
  hn.sublist (List.filter_sublist.map _)

/-- A process gets a pid that no other has. -/
lemma pids_next {M : Machine A W} {s : Processes P A W} {q : Process P A} {o : ProcOp P A}
    {k : o.Reply → Program (ProcSig P A) Unit} {r : o.Reply}
    (hn : (s.procs.map Process.pid).Nodup) (hr : Enabled M s q o r) :
    ((next M s q o k r).procs.map Process.pid).Nodup := by
  have hsame : (s.procs.map fun q' =>
      if q'.pid = q.pid then (⟨q.pid, k r, fdsAfter q.fds o r⟩ : Process P A) else q').map
        Process.pid = s.procs.map Process.pid := by
    rw [List.map_map]
    refine List.map_congr_left fun q' _ => ?_
    by_cases h : q'.pid = q.pid
    · simp [h]
    · simp [h]
  rw [next, List.map_append, hsame]
  cases o with
  | fork =>
    cases (r : Forked) with
    | parent c => exact List.nodup_cons.mpr ⟨by simpa using hr.2.2, hn⟩
    | child => exact hr.elim
    | failed => exact hn
  | _ => exact hn

/-! ### Roles -/

section Roles

variable {G : Type} {allowed : G → ProcOp P A → Prop} {move : G → (o : ProcOp P A) → o.Reply → G}
  {holds : G → List (Fd P) → Prop}

/-- Each process plays the role that stands with its pid, and holds what the role relies on. -/
def Played (allowed : G → ProcOp P A → Prop) (move : G → (o : ProcOp P A) → o.Reply → G)
    (holds : G → List (Fd P) → Prop) : List (Process P A) → List (ℕ × G) → Prop :=
  List.Forall₂ fun q x => q.pid = x.1 ∧
    Program.Conforms (S := ProcSig P A) allowed move (fun _ _ => True) q.prog x.2 ∧ holds x.2 q.fds

/-- The roles of the processes a call has started. -/
def bornRoles (move : G → (o : ProcOp P A) → o.Reply → G) (ρ : G) :
    (o : ProcOp P A) → o.Reply → List (ℕ × G)
  | .fork, (r : Forked) =>
    match r with
    | .parent c => [(c, move ρ .fork .child)]
    | _ => []
  | _, _ => []

omit [DecidableEq P] in
lemma Played.pids {procs : List (Process P A)} {roles : List (ℕ × G)}
    (h : Played allowed move holds procs roles) :
    procs.map Process.pid = roles.map Prod.fst := by
  induction h with
  | nil => rfl
  | cons hx _ ih => simp [hx.1, ih]

omit [DecidableEq P] in
/-- Behind each role there is a process. -/
lemma Played.exists_process {procs : List (Process P A)} {roles : List (ℕ × G)}
    (h : Played allowed move holds procs roles) {x : ℕ × G} (hx : x ∈ roles) :
    ∃ q ∈ procs, q.pid = x.1 ∧ holds x.2 q.fds := by
  induction h with
  | nil => cases hx
  | cons hy _ ih =>
    rcases List.mem_cons.mp hx with rfl | hx
    · exact ⟨_, List.mem_cons_self .., hy.1, hy.2.2⟩
    · obtain ⟨q, hq, h⟩ := ih hx
      exact ⟨q, List.mem_cons_of_mem _ hq, h⟩

omit [DecidableEq P] in
/-- Behind each role there is a process that goes on in it. -/
lemma Played.exists_player {procs : List (Process P A)} {roles : List (ℕ × G)}
    (h : Played allowed move holds procs roles) {x : ℕ × G} (hx : x ∈ roles) :
    ∃ q ∈ procs, q.pid = x.1 ∧
      Program.Conforms (S := ProcSig P A) allowed move (fun _ _ => True) q.prog x.2 ∧
      holds x.2 q.fds := by
  induction h with
  | nil => cases hx
  | cons hy _ ih =>
    rcases List.mem_cons.mp hx with rfl | hx
    · exact ⟨_, List.mem_cons_self .., hy⟩
    · obtain ⟨q, hq, h⟩ := ih hx
      exact ⟨q, List.mem_cons_of_mem _ hq, h⟩

omit [DecidableEq P] in
/-- Each process has a role. -/
lemma Played.exists_role {procs : List (Process P A)} {roles : List (ℕ × G)}
    (h : Played allowed move holds procs roles) {q : Process P A} (hq : q ∈ procs) :
    ∃ ρ, (q.pid, ρ) ∈ roles ∧ holds ρ q.fds := by
  induction h with
  | nil => cases hq
  | @cons q₁ x procs roles hy _ ih =>
    rcases List.mem_cons.mp hq with rfl | hq
    · exact ⟨x.2, by rw [hy.1]; exact List.mem_cons_self .., hy.2.2⟩
    · obtain ⟨ρ, hρ, hh⟩ := ih hq
      exact ⟨ρ, List.mem_cons_of_mem _ hρ, hh⟩

omit [DecidableEq P] in
/-- The role of one process, and the roles of those around it. -/
lemma Played.split {p₁ p₂ : List (Process P A)} {q : Process P A} {roles : List (ℕ × G)}
    (h : Played allowed move holds (p₁ ++ q :: p₂) roles) :
    ∃ l₁ ρ l₂, roles = l₁ ++ (q.pid, ρ) :: l₂ ∧ Played allowed move holds p₁ l₁ ∧
      Played allowed move holds p₂ l₂ ∧
      Program.Conforms (S := ProcSig P A) allowed move (fun _ _ => True) q.prog ρ ∧
      holds ρ q.fds := by
  induction p₁ generalizing roles with
  | nil =>
    obtain _ | ⟨⟨hpid, hconf, hh⟩, hrest⟩ := h
    rename_i x l₂
    obtain ⟨pid, ρ⟩ := x
    obtain rfl : q.pid = pid := hpid
    exact ⟨[], ρ, l₂, rfl, .nil, hrest, hconf, hh⟩
  | cons q₁ p₁ ih =>
    obtain _ | ⟨hq₁, hrest⟩ := h
    obtain ⟨l₁, ρ, l₂, rfl, h₁, h₂, hconf, hh⟩ := ih hrest
    exact ⟨_ :: l₁, ρ, l₂, rfl, .cons hq₁ h₁, h₂, hconf, hh⟩

omit [DecidableEq P] in
lemma Played.append {p₁ p₂ : List (Process P A)} {l₁ l₂ : List (ℕ × G)}
    (h₁ : Played allowed move holds p₁ l₁) (h₂ : Played allowed move holds p₂ l₂) :
    Played allowed move holds (p₁ ++ p₂) (l₁ ++ l₂) :=
  List.rel_append h₁ h₂

/-- **A call in a role.** The role allows it, and moves on with the reply. -/
lemma Played.call {M : Machine A W} {s : Processes P A W} {roles : List (ℕ × G)}
    {q : Process P A} {o : ProcOp P A} {k : o.Reply → Program (ProcSig P A) Unit}
    (hholds : ∀ ρ o r fds, allowed ρ o → holds ρ fds → holds (move ρ o r) (fdsAfter fds o r))
    (h : Played allowed move holds s.procs roles) (hn : (s.procs.map Process.pid).Nodup)
    (hq : q ∈ s.procs) (hprog : q.prog = .call o k) :
    ∃ l₁ ρ l₂, roles = l₁ ++ (q.pid, ρ) :: l₂ ∧ allowed ρ o ∧ holds ρ q.fds ∧
      ∀ r, Played allowed move holds (next M s q o k r).procs
        (bornRoles move ρ o r ++ (l₁ ++ (q.pid, move ρ o r) :: l₂)) := by
  obtain ⟨p₁, p₂, hsplit⟩ := List.append_of_mem hq
  rw [hsplit] at h
  obtain ⟨l₁, ρ, l₂, rfl, h₁, h₂, hconf, hh⟩ := h.split
  rw [hprog] at hconf
  refine ⟨l₁, ρ, l₂, rfl, hconf.1, hh, fun r => ?_⟩
  rw [next_procs hsplit hn]
  have hborn : Played allowed move holds (born q.fds o k r) (bornRoles move ρ o r) := by
    cases o with
    | fork =>
      cases (r : Forked) with
      | parent c =>
        exact .cons ⟨rfl, hconf.2 .child, hholds ρ .fork .child q.fds hconf.1 hh⟩ .nil
      | child => exact .nil
      | failed => exact .nil
    | _ => exact .nil
  exact hborn.append (h₁.append
    (.cons ⟨rfl, hconf.2 r, hholds ρ o r q.fds hconf.1 hh⟩ h₂))

omit [DecidableEq P] in
/-- The exit of a process in a role. -/
lemma Played.exit {procs : List (Process P A)} {roles : List (ℕ × G)} {q : Process P A}
    {o : ProcOp P A} {k : o.Reply → Program (ProcSig P A) Unit}
    (h : Played allowed move holds procs roles) (hq : q ∈ procs) (hprog : q.prog = .call o k) :
    ∃ ρ, (q.pid, ρ) ∈ roles ∧ allowed ρ o := by
  obtain ⟨p₁, p₂, rfl⟩ := List.append_of_mem hq
  obtain ⟨l₁, ρ, l₂, rfl, -, -, hconf, -⟩ := h.split
  rw [hprog] at hconf
  exact ⟨ρ, by simp, hconf.1⟩

omit [DecidableEq P] in
/-- The end of a process is the end of its role. -/
lemma Played.without {s : Processes P A W} {roles : List (ℕ × G)}
    (h : Played allowed move holds s.procs roles) (pid : ℕ) :
    Played allowed move holds (s.without pid).procs (roles.filter fun x => x.1 ≠ pid) := by
  change Played allowed move holds (s.procs.filter fun q => q.pid ≠ pid) _
  generalize s.procs = procs at h
  induction h with
  | nil => exact .nil
  | @cons q x procs roles hx _ ih =>
    by_cases heq : q.pid = pid
    · rw [List.filter_cons_of_neg (by simpa using heq),
        List.filter_cons_of_neg (by simpa [← hx.1] using heq)]
      exact ih
    · rw [List.filter_cons_of_pos (by simpa using heq),
        List.filter_cons_of_pos (by simpa [← hx.1] using heq)]
      exact .cons hx ih

end Roles

/-! ### Executable steps -/

instance (M : Machine A W) [∀ w o r, Decidable (M.Enabled w o r)] (s : Processes P A W)
    (q : Process P A) : (o : ProcOp P A) → (r : o.Reply) → Decidable (Enabled M s q o r)
  | .pipe _, _ => .isTrue trivial
  | .fork, .child => .isFalse id
  | .fork, .parent c => inferInstanceAs (Decidable (c ≠ 0 ∧ c < 2 ^ 31 ∧ ∀ q ∈ s.procs, q.pid ≠ c))
  | .fork, .failed => .isTrue trivial
  | .close _, _ => .isTrue trivial
  | .write _ _, _ => .isTrue trivial
  | .read fd n, data => inferInstanceAs (Decidable (if fd ∉ q.fds then data = []
      else if s.buf fd.pipe ≠ [] then data = (s.buf fd.pipe).take n
      else data = [] ∧ ∀ q ∈ s.procs, ⟨fd.pipe, .write⟩ ∉ q.fds))
  | .wait c, _ => inferInstanceAs (Decidable (∀ q ∈ s.procs, q.pid ≠ c))
  | .exit _, _ => .isTrue trivial
  | .act a, r => inferInstanceAs (Decidable (M.Enabled s.world a r))

/-- Whose turn it is, and what for. -/
inductive Turn where
  | call (pid : ℕ)
  | exit (pid : ℕ)
deriving DecidableEq, Repr

/-- Let a process make its next call and get the reply that is chosen for it, or exit. -/
def advance (M : Machine A W) [∀ w o r, Decidable (M.Enabled w o r)]
    (choose : ℕ → (o : ProcOp P A) → Option o.Reply) (s : Processes P A W) :
    Turn → Option (Processes P A W)
  | .call pid =>
    match s.procs.find? fun q => q.pid = pid with
    | none => none
    | some q =>
      match q.prog with
      | .ret _ => none
      | .call o k =>
        match choose pid o with
        | none => none
        | some r => if Enabled M s q o r then some (next M s q o k r) else none
  | .exit pid =>
    match s.procs.find? fun q => q.pid = pid with
    | none => none
    | some q =>
      match q.prog with
      | .call (.exit _) _ => some (s.without q.pid)
      | _ => none

/-- Let processes take their turns, one after the other. -/
def schedule (M : Machine A W) [∀ w o r, Decidable (M.Enabled w o r)]
    (choose : ℕ → (o : ProcOp P A) → Option o.Reply) :
    List Turn → Processes P A W → Option (Processes P A W)
  | [], s => some s
  | t :: ts, s => (advance M choose s t).bind (schedule M choose ts)

section

variable {M : Machine A W} [∀ w o r, Decidable (M.Enabled w o r)]
  {choose : ℕ → (o : ProcOp P A) → Option o.Reply} {s s' : Processes P A W}

/-- A turn is a step: a call, or the exit it says. -/
lemma advance_step {t : Turn} (h : advance M choose s t = some s') :
    ∃ l, Step M s l s' ∧ ((∃ pid o, l = .call pid o) ∨ ∃ pid, t = .exit pid ∧ l = .exit pid) := by
  cases t with
  | call pid =>
    simp only [advance] at h
    split at h
    · cases h
    · rename_i q hq
      split at h
      · cases h
      · rename_i o k hprog
        split at h
        · cases h
        · split at h
          · obtain rfl := Option.some.inj h
            exact ⟨_, .call (List.mem_of_find?_eq_some hq) hprog ‹_›, .inl ⟨_, _, rfl⟩⟩
          · cases h
  | exit pid =>
    simp only [advance] at h
    split at h
    · cases h
    · rename_i q hq
      have hpid : q.pid = pid := by simpa using List.find?_some hq
      split at h
      · obtain rfl := Option.some.inj h
        exact ⟨_, .exit (List.mem_of_find?_eq_some hq) ‹_›, .inr ⟨pid, rfl, by rw [hpid]⟩⟩
      · cases h

/-- What a schedule reaches is reached. -/
lemma schedule_reach {Ok : Processes P A W → Label P A → Prop} {ts : List Turn}
    {s₀ : Processes P A W} (hcall : ∀ s pid o, Ok s (.call pid o))
    (hexit : ∀ s, ∀ pid, .exit pid ∈ ts → Ok s (.exit pid))
    (h : schedule M choose ts s = some s') (hs : Reach M Ok s₀ s) : Reach M Ok s₀ s' := by
  induction ts generalizing s with
  | nil =>
    obtain rfl := Option.some.inj h
    exact hs
  | cons t ts ih =>
    obtain ⟨s₁, hadv, hrest⟩ := Option.bind_eq_some_iff.mp h
    have hrest' := fun hs => ih (fun s pid hpid => hexit s pid (List.mem_cons_of_mem _ hpid)) hrest hs
    obtain ⟨l, hstep, ⟨pid, o, rfl⟩ | ⟨pid, rfl, rfl⟩⟩ := advance_step hadv
    · exact hrest' (.step hs hstep (hcall _ pid o))
    · exact hrest' (.step hs hstep (hexit _ pid (List.mem_cons_self ..)))

/-- Let processes take their turns, and note their calls. -/
def play (M : Machine A W) [∀ w o r, Decidable (M.Enabled w o r)]
    (choose : ℕ → (o : ProcOp P A) → Option o.Reply) :
    List Turn → Processes P A W → Option (List (ℕ × (ProcSig P A).Event) × Processes P A W)
  | [], s => some ([], s)
  | .exit pid :: ts, s => play M choose ts (s.without pid)
  | .call pid :: ts, s =>
    match s.procs.find? fun q => q.pid = pid with
    | none => none
    | some q =>
      match q.prog with
      | .ret _ => none
      | .call o k =>
        match choose pid o with
        | none => none
        | some r =>
          if Enabled M s q o r then
            (play M choose ts (next M s q o k r)).map fun x => ((q.pid, ⟨o, r⟩) :: x.1, x.2)
          else none

/-- What is played is a run. -/
lemma play_run {ts : List Turn} {s₀ : Processes P A W} {tr : List (ℕ × (ProcSig P A).Event)}
    {x : List (ℕ × (ProcSig P A).Event) × Processes P A W} (hs : Run M s₀ tr s)
    (h : play M choose ts s = some x) : Run M s₀ (tr ++ x.1) x.2 := by
  induction ts generalizing s tr x with
  | nil =>
    obtain rfl := Option.some.inj h
    rw [List.append_nil]
    exact hs
  | cons t ts ih =>
    cases t with
    | exit pid => exact ih (.gone hs pid) h
    | call pid =>
      rw [play] at h
      split at h
      · cases h
      · rename_i q hq
        split at h
        · cases h
        · rename_i o k hprog
          split at h
          · cases h
          · split at h
            · obtain ⟨y, hy, rfl⟩ := Option.map_eq_some_iff.mp h
              have hrest := ih (.call hs (List.mem_of_find?_eq_some hq) hprog ‹_›) hy
              rwa [List.append_assoc] at hrest
            · cases h

end

end Processes

end Effects
