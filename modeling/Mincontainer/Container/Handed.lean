import Mincontainer.Container.Confinement

set_option relaxedAutoImplicit false
set_option autoImplicit false

/-!
# The pid that a started container is handed out under

The pid of the container comes to the parent as four bytes of a pipe. The middle process writes them
once it has forked the container; when it is gone before, the parent reads the end of the file, and the
four bytes it does not get are zero. What it does next, it does to the process zero.

## Main definitions

* `Mincontainer.Spawn.Returned` — `spawn` has returned a handle to the parent.
* `Mincontainer.Spawn.Learnt` — the parent has read this pid.
* `Mincontainer.Spawn.Real` — the pid is that of the container that the middle process has forked.
* `Mincontainer.Spawn.Told` — the middle process has written the pid to the pipe.
* `Mincontainer.Spawn.Relay` — how the roles, the pipe and the calls so far fit together.

## Main results

* `Mincontainer.Spawn.spawn_reads` — the handle has the pid that the parent has read.
* `Mincontainer.Spawn.Relayed.call` — a call keeps the relay.
* `Mincontainer.Spawn.learnt_real_iff`, `Mincontainer.Spawn.added_real_iff` — the pid that the parent
  has read, and that it moves into the cgroup, is real when the middle process has told it.
-/

namespace Mincontainer

open Effects Bytes Processes

namespace Spawn

/-- The calls on the way, by whom, and what they were answered. -/
abbrev Calls := List (ℕ × SpawnSig.Event)

/-! ### What is handed out -/

/-- The calls of one process. -/
def callsOf (pid : ℕ) (tr : Calls) : List SpawnSig.Event :=
  (tr.filter fun x => x.1 = pid).map Prod.snd

/-- Any reply may come. -/
def anyReply (S : Signature) : Machine S Unit where
  Enabled _ _ _ := True
  next _ _ _ := ()

/-- The replies that the parent got lead `spawn` to this handle. -/
def Returned (root : ℕ) (cfg : ContainerConfig) (tr : Calls) (handle : Handle) : Prop :=
  ∃ index io es, es <+: callsOf root tr ∧
    Exec (anyReply SpawnSig) quiet (spawn cfg index io).run () es (some (.ok handle)) ()

/-- The parent has read this pid. -/
def Learnt (root : ℕ) (tr : Calls) (pid : ℕ) : Prop :=
  ∃ b, (root, ⟨.read pidRead 4, b⟩) ∈ tr ∧ pid = ofLE b

/-- The pid is that of a process which another process than the parent has forked: of the container,
which the middle process forks. -/
def Real (root : ℕ) (tr : Calls) (pid : ℕ) : Prop :=
  0 < pid ∧ pid < 2 ^ 31 ∧ ∃ m, m ≠ root ∧ (m, ⟨.fork, .parent pid⟩) ∈ tr

/-- The middle process has written the pid of the container to the pipe. -/
def Told (tr : Calls) : Prop := ∃ m data, (m, ⟨.write pidWrite data, ()⟩) ∈ tr

/-! ### The parent -/

lemma mem_of_callsOf {pid : ℕ} {tr : Calls} {e : SpawnSig.Event} (h : e ∈ callsOf pid tr) :
    (pid, e) ∈ tr := by
  obtain ⟨x, hx, rfl⟩ := List.mem_map.mp h
  obtain ⟨hmem, hpid⟩ := List.mem_filter.mp hx
  rwa [← of_decide_eq_true hpid]

/-- A program that comes to its end after a call has made the call. -/
lemma call_leads {S : Signature} {α ε : Type} {o : S.Op} {f : S.Reply o → Fallible S ε α}
    {es : List S.Event} {a : Except ε α}
    (h : Exec (anyReply S) quiet (Fallible.sys o >>= f).run () es (some a) ()) :
    ∃ r es', es = ⟨o, r⟩ :: es' ∧ Exec (anyReply S) quiet (f r).run () es' (some a) () := by
  obtain ⟨w, r, es', -, -, rfl, hrest⟩ := Exec.call_some_inv h
  exact ⟨r, es', rfl, hrest⟩

/-- The middle process never returns. -/
lemma middle_never {α : Type} (cfg : ContainerConfig) (io : Option String) :
    (Spawn.middle cfg io goRead pidWrite : SpawnM α).run.Obeys (fun _ => True) fun _ => False := by
  have hplays : Role.middle.Plays false (fun _ _ => False)
      (Spawn.middle cfg io goRead pidWrite : SpawnM α).run := Role.plays_middle cfg io
  exact hplays.obeys

/-- **The pid of the handle** is made of the bytes that the parent has read.

**Proof sketch.** `spawn` comes to its end as the parent only: the process that is forked never
returns from it. -/
lemma spawn_reads {cfg : ContainerConfig} {index : UInt8} {io : Option String}
    {es : List SpawnSig.Event} {handle : Handle}
    (h : Exec (anyReply SpawnSig) quiet (spawn cfg index io).run () es (some (.ok handle)) ()) :
    ∃ b : List UInt8, (⟨.read pidRead 4, b⟩ : SpawnSig.Event) ∈ es ∧ handle.containerPid = ofLE b := by
  unfold spawn at h
  obtain ⟨u₁, es₁, es₂, w₁, rfl, -, h₁⟩ := Exec.fallible_bind_ok h
  obtain ⟨u₂, es₃, es₄, w₂, rfl, -, h₂⟩ := Exec.fallible_bind_ok h₁
  obtain ⟨u₃, es₅, es₆, w₃, rfl, -, h₃⟩ := Exec.fallible_bind_ok h₂
  obtain ⟨u₄, es₇, es₈, w₄, rfl, -, h₄⟩ := Exec.fallible_bind_ok h₃
  obtain ⟨r, es₉, rfl, h₅⟩ := call_leads h₄
  cases (r : Forked) with
  | failed =>
    obtain ⟨-, -, hout⟩ := Exec.ret_inv h₅
    simp at hout
  | child =>
    obtain ⟨r₁, es, rfl, h₆⟩ := call_leads h₅
    obtain ⟨r₂, es', rfl, h₇⟩ := call_leads h₆
    exact (Exec.out_obeys (middle_never cfg io) h₇ _ rfl).elim
  | parent m =>
    obtain ⟨r₁, es, rfl, h₆⟩ := call_leads h₅
    obtain ⟨r₂, es', rfl, h₇⟩ := call_leads h₆
    obtain ⟨b, es'', rfl, h₈⟩ := call_leads h₇
    refine ⟨b, by simp, ?_⟩
    have hend : Fallible.Obeys (fun _ => True) (fun a : Handle => a.containerPid = ofLE b)
        (do notify goWrite; close goWrite; pure ⟨ofLE b, m⟩ : SpawnM Handle) :=
      Fallible.Obeys.bind (.of_within (Program.within_true _)) fun _ _ =>
        Fallible.Obeys.bind (.of_within (Program.within_true _)) fun _ _ => .pure rfl
    have hrest : Fallible.Obeys (fun _ => True) (fun a : Handle => a.containerPid = ofLE b) (do
        close pidRead
        act (.addProcess (ofLE b))
        if cfg.network then act (.networkSetup cfg.shortId (ofLE b) index) else pure ()
        notify goWrite
        close goWrite
        pure ⟨ofLE b, m⟩ : SpawnM Handle) := by
      refine Fallible.Obeys.bind (.of_within (Program.within_true _)) fun _ _ => ?_
      refine Fallible.Obeys.bind (.of_within (Program.within_true _)) fun _ _ => ?_
      dsimp only
      split
      · exact Fallible.Obeys.bind (.of_within (Program.within_true _)) fun _ _ => hend
      · exact hend
    exact Exec.out_obeys hrest h₈ _ rfl _ rfl

/-! ### The relay -/

/-- What the role of the parent says about the others, and about what it knows. -/
def ParentKnows (h : Handshake) : Role → Prop
  | .setup _ _ => h.middle = none ∧ h.container = none ∧ h.born = none ∧ h.told = false ∧
      h.learnt = none
  | .forked => h.learnt = none
  | .learnt pid _ _ => h.learnt = some pid
  | _ => False

/-- How the roles, the pipe and the calls so far fit together, whoever is gone. -/
structure Relay (root : ℕ) (tr : Calls) (h : Handshake) (buf : Pipe → List UInt8) : Prop where
  parent : ∀ x ∈ h.parent, x.1 = root ∧ ParentKnows h x.2
  middle : ∀ x ∈ h.middle, x.1 ≠ root ∧ MiddleSound h x.2
  container : ∀ x ∈ h.container, h.born = some x.1 ∧ (x.2 = .waiting ∨ x.2 = .released)
  born : ∀ c ∈ h.born, Real root tr c
  untold : h.told = false → buf .pidp = []
  unread : h.told = true → h.learnt = none → ∃ c, h.born = some c ∧ buf .pidp = toLE 4 c
  /-- What the parent has learnt is what it has been told, or nothing when nobody is left to tell it. -/
  learnt : ∀ c ∈ h.learnt, (h.told = true ∧ h.born = some c) ∨
    h.told = false ∧ c = 0 ∧ h.middle = none
  reads : ∀ m n b, (m, ⟨.read pidRead n, b⟩) ∈ tr → h.learnt = some (ofLE b)
  adds : ∀ m c r, (m, ⟨.act (.addProcess c), r⟩) ∈ tr → h.learnt = some c
  told : h.told = true ↔ Told tr

/-- The calls that the relay does not speak of. -/
def Quiet : SpawnSig.Op → Prop
  | .write fd _ => fd ≠ pidWrite
  | .read fd _ => fd ≠ pidRead
  | .act (.addProcess _) => False
  | _ => True

section Relay

variable {net : Bool} {root : ℕ} {tr : Calls} {h : Handshake} {buf buf' : Pipe → List UInt8}
  {s : System} {q : Process Pipe ⟨SpawnAct, fun _ => Except RuntimeError Unit⟩}
  {o : SpawnSig.Op} {r : SpawnSig.Reply o} {ρ : Role} {pid : ℕ}

lemma Real.append {c : ℕ} (hc : Real root tr c) (tr' : Calls) : Real root (tr ++ tr') c := by
  obtain ⟨hpos, hlt, m, hm, hfork⟩ := hc
  exact ⟨hpos, hlt, m, hm, List.mem_append_left _ hfork⟩

/-- A call of another kind than the last one was made before. -/
lemma mem_of_append {x : ℕ × SpawnSig.Event} (hx : x ∈ tr ++ [(pid, ⟨o, r⟩)]) (hne : x.2.1 ≠ o) :
    x ∈ tr := by
  rcases List.mem_append.mp hx with hx | hx
  · exact hx
  · exact absurd (congrArg (fun y : ℕ × SpawnSig.Event => y.2.1) (List.mem_singleton.mp hx)) hne

lemma Told.append (hd : Told tr) (tr' : Calls) : Told (tr ++ tr') := by
  obtain ⟨m, data, hm⟩ := hd
  exact ⟨m, data, List.mem_append_left _ hm⟩

/-- A call that the relay does not speak of. -/
lemma Relay.quiet (hs : Relay root tr h buf) (ho : Quiet o) :
    Relay root (tr ++ [(pid, ⟨o, r⟩)]) h buf := by
  have hne : ∀ {o' : SpawnSig.Op}, ¬ Quiet o' → o' ≠ o := fun ho' heq => ho' (heq ▸ ho)
  refine { hs with
    born := fun c hc => (hs.born c hc).append _
    reads := fun m n b hb => hs.reads m n b (mem_of_append hb (hne fun hq => hq rfl))
    adds := fun m c r' hc => hs.adds m c r' (mem_of_append hc (hne fun hq => hq))
    told := hs.told.trans ⟨fun hd => hd.append _, ?_⟩ }
  rintro ⟨m, data, hm⟩
  exact ⟨m, data, mem_of_append hm (hne fun hq => hq rfl)⟩

/-- The pipe to the container does not matter. -/
lemma Relay.congr_buf (hs : Relay root tr h buf) (hbuf : buf' .pidp = buf .pidp) :
    Relay root tr h buf' :=
  { hs with
    untold := fun h => hbuf.trans (hs.untold h)
    unread := fun htold hl => by
      obtain ⟨c, hc, hp⟩ := hs.unread htold hl
      exact ⟨c, hc, hbuf.trans hp⟩ }

/-- The parent goes on. -/
lemma Relay.parent_quiet (hs : Relay root tr h buf) (hp : h.parent = some (pid, ρ)) {ρ' : Role}
    (hρ : ParentKnows h ρ') : Relay root tr { h with parent := some (pid, ρ') } buf :=
  { hs with
    parent := by
      rintro _ ⟨⟩
      exact ⟨(hs.parent _ hp).1, hρ⟩ }

/-- After the fork, the parent knows what it has learnt. -/
lemma ParentKnows.congr (hρ : ParentKnows h ρ) (hne : ∀ go pidp, ρ ≠ .setup go pidp)
    {h' : Handshake} (hl : h'.learnt = h.learnt) : ParentKnows h' ρ := by
  cases ρ with
  | setup go pidp => exact absurd rfl (hne go pidp)
  | forked => exact hl.trans hρ
  | learnt pid moved wired => exact hl.trans hρ
  | _ => exact hρ

/-- Where there is a middle process or a container, the parent has forked. -/
lemma Relay.not_setup (hs : Relay root tr h buf) (hne : h.middle ≠ none ∨ h.container ≠ none)
    {x : ℕ × Role} (hx : x ∈ h.parent) (go pidp : Bool) : x.2 ≠ .setup go pidp := by
  intro heq
  have hpar := (hs.parent x hx).2
  rw [heq] at hpar
  exact hne.elim (fun hm => hm hpar.1) fun hc => hc hpar.2.1

/-- The middle process goes on. -/
lemma Relay.middle_quiet (hs : Relay root tr h buf) (hm : h.middle = some (pid, ρ)) {ρ' : Role}
    (hρ : MiddleSound h ρ') : Relay root tr { h with middle := some (pid, ρ') } buf :=
  { hs with
    parent := fun x hx => ⟨(hs.parent x hx).1,
      (hs.parent x hx).2.congr (hs.not_setup (.inl (by simp [hm])) hx) rfl⟩
    middle := by
      rintro _ ⟨⟩
      exact ⟨(hs.middle _ hm).1, hρ⟩
    learnt := fun c hc => .inl ((hs.learnt c hc).resolve_right (by simp [hm])) }

/-- The container goes on. -/
lemma Relay.container_quiet (hs : Relay root tr h buf) (hc : h.container = some (pid, ρ)) {ρ' : Role}
    (hρ : ρ' = .waiting ∨ ρ' = .released) :
    Relay root tr { h with container := some (pid, ρ') } buf :=
  { hs with
    parent := fun x hx => ⟨(hs.parent x hx).1,
      (hs.parent x hx).2.congr (hs.not_setup (.inr (by simp [hc])) hx) rfl⟩
    container := by
      rintro _ ⟨⟩
      exact ⟨(hs.container _ hc).1, hρ⟩ }

/-- The parent forks the middle process. -/
lemma Relay.fork_middle (hs : Relay root tr h buf) {c : ℕ} {go pidp : Bool}
    (hp : h.parent = some (pid, .setup go pidp)) (hc : c ≠ root) :
    Relay root tr { h with parent := some (pid, .forked), middle := some (c, .middle) } buf := by
  obtain ⟨hpid, -, -, hborn, htold, hlearnt⟩ := hs.parent _ hp
  exact { hs with
    parent := by
      rintro _ ⟨⟩
      exact ⟨hpid, hlearnt⟩
    middle := by
      rintro _ ⟨⟩
      exact ⟨hc, hborn, htold⟩
    learnt := fun x hx => by
      rw [show h.learnt = some x from hx] at hlearnt
      cases hlearnt }

/-- The middle process forks the container. -/
lemma Relay.fork_container (hs : Relay root tr h buf) {c : ℕ} (hm : h.middle = some (pid, .middle))
    (hpos : 0 < c) (hlt : c < 2 ^ 31) (hfork : (pid, ⟨.fork, .parent c⟩) ∈ tr) :
    h.container = none ∧ Relay root tr { h with
      middle := some (pid, .telling c)
      container := some (c, .waiting)
      born := some c } buf := by
  obtain ⟨hpid, hborn, htold⟩ := hs.middle _ hm
  refine ⟨?_, { hs with
    parent := fun x hx => ⟨(hs.parent x hx).1,
      (hs.parent x hx).2.congr (hs.not_setup (.inl (by simp [hm])) hx) rfl⟩
    middle := by
      rintro _ ⟨⟩
      exact ⟨hpid, rfl, htold⟩
    container := by
      rintro _ ⟨⟩
      exact ⟨rfl, .inl rfl⟩
    born := by
      rintro _ ⟨⟩
      exact ⟨hpos, hlt, pid, hpid, hfork⟩
    unread := fun h => absurd h (by simp [htold])
    learnt := fun x hx => absurd (hs.learnt x hx) (by simp [hborn, hm]) }⟩
  cases hcon : h.container with
  | none => rfl
  | some x =>
    have hx := (hs.container x hcon).1
    rw [hborn] at hx
    cases hx

/-- The middle process tells the pid of the container. -/
lemma Relay.tell (hs : Relay root tr h buf) {c : ℕ} (hm : h.middle = some (pid, .telling c))
    (hbuf : buf' .pidp = buf .pidp ++ toLE 4 c) :
    Relay root (tr ++ [(pid, ⟨.write pidWrite (toLE 4 c), ()⟩)])
      { h with middle := some (pid, .told), told := true } buf' := by
  obtain ⟨hpid, hborn, htold⟩ := hs.middle _ hm
  exact { hs with
    parent := fun x hx => ⟨(hs.parent x hx).1,
      (hs.parent x hx).2.congr (hs.not_setup (.inl (by simp [hm])) hx) rfl⟩
    middle := by
      rintro _ ⟨⟩
      exact ⟨hpid, rfl⟩
    born := fun x hx => (hs.born x hx).append _
    untold := fun h => absurd h (by simp)
    unread := fun _ _ => ⟨c, hborn, by rw [hbuf, hs.untold htold, List.nil_append]⟩
    learnt := fun x hx => by
      rcases hs.learnt x hx with ⟨ht, -⟩ | ⟨-, -, hnone⟩
      · rw [htold] at ht
        cases ht
      · rw [hm] at hnone
        cases hnone
    reads := fun m n b hb => hs.reads m n b (mem_of_append hb (by simp))
    adds := fun m x r' hx => hs.adds m x r' (mem_of_append hx (by simp))
    told := ⟨fun _ => ⟨pid, toLE 4 c, by simp⟩, fun _ => rfl⟩ }

/-- **The parent reads a pid.** It is the container's if the middle process has told it, and zero if
there is nobody left who could.

**Proof sketch.** The read waits until there is something in the pipe or nobody can write to it; a
middle process that has not told yet holds the end for writing. -/
lemma Relay.learn (hs : Relay root tr h buf) (hp : h.parent = some (pid, .forked))
    {data : List UInt8} (hdata : (buf .pidp ≠ [] ∧ data = (buf .pidp).take 4) ∨
      (buf .pidp = [] ∧ data = [] ∧ ∀ x ∈ h.middle, x.2 = .told))
    (hbuf : buf' .pidp = (buf .pidp).drop 4) :
    Relay root (tr ++ [(pid, ⟨.read pidRead 4, data⟩)]) { h with
      parent := some (pid, .learnt (ofLE data) false false)
      learnt := some (ofLE data) } buf' := by
  obtain ⟨hroot, hlearnt⟩ := hs.parent _ hp
  have hnone : ∀ {P : Prop} {c : ℕ}, h.learnt = some c → P := fun hc => by
    rw [show h.learnt = none from hlearnt] at hc
    cases hc
  have hknown : (h.told = true ∧ h.born = some (ofLE data)) ∨
      h.told = false ∧ ofLE data = 0 ∧ h.middle = none := by
    cases htold : h.told with
    | true =>
      obtain ⟨c, hc, hpipe⟩ := hs.unread htold hlearnt
      rcases hdata with ⟨-, rfl⟩ | ⟨hempty, -⟩
      · have hlt : c < 256 ^ 4 := lt_trans (hs.born c hc).2.1 (by decide)
        rw [hpipe, List.take_of_length_le (by simp), ofLE_toLE_of_lt hlt]
        exact .inl ⟨rfl, hc⟩
      · rw [hpipe] at hempty
        simp [toLE] at hempty
    | false =>
      rcases hdata with ⟨hne, -⟩ | ⟨-, rfl, hmid⟩
      · exact absurd (hs.untold htold) hne
      · refine .inr ⟨rfl, rfl, ?_⟩
        cases hm : h.middle with
        | none => rfl
        | some x =>
          have hx := (hs.middle x hm).2
          rw [hmid x hm, MiddleSound, htold] at hx
          cases hx
  refine { hs with
    parent := by
      rintro _ ⟨⟩
      exact ⟨hroot, rfl⟩
    born := fun x hx => (hs.born x hx).append _
    untold := fun htold => by rw [hbuf, hs.untold htold]; rfl
    unread := fun _ hl => absurd hl (by simp)
    learnt := by
      rintro _ ⟨⟩
      exact hknown
    reads := fun m n b hb => ?_
    adds := fun m c r' hc => hnone (hs.adds m c r' (mem_of_append hc (by simp)))
    told := hs.told.trans ⟨fun hd => hd.append _, ?_⟩ }
  · rcases List.mem_append.mp hb with hb | hb
    · exact hnone (hs.reads m n b hb)
    · obtain ⟨-, hevent⟩ := Prod.mk.inj (List.mem_singleton.mp hb)
      obtain ⟨hn, hb⟩ := Sigma.mk.inj hevent
      obtain rfl : n = 4 := by simpa using hn
      rw [eq_of_heq hb]
  · rintro ⟨m, d, hm⟩
    exact ⟨m, d, mem_of_append hm (by simp)⟩

/-- The parent moves the process it has learnt of into the cgroup. -/
lemma Relay.add (hs : Relay root tr h buf) {c : ℕ} (hl : h.learnt = some c)
    {r : Except RuntimeError Unit} :
    Relay root (tr ++ [(pid, ⟨.act (.addProcess c), r⟩)]) h buf := by
  refine { hs with
    born := fun x hx => (hs.born x hx).append _
    reads := fun m n b hb => hs.reads m n b (mem_of_append hb (by simp))
    adds := fun m x r' hx => ?_
    told := hs.told.trans ⟨fun hd => hd.append _, ?_⟩ }
  · rcases List.mem_append.mp hx with hx | hx
    · exact hs.adds m x r' hx
    · have hop := congrArg (fun y : ℕ × SpawnSig.Event => y.2.1) (List.mem_singleton.mp hx)
      obtain rfl : x = c := by simpa using hop
      exact hl
  · rintro ⟨m, d, hm⟩
    exact ⟨m, d, mem_of_append hm (by simp)⟩

/-! ### The steps -/

/-- The processes of the system, as a relay. -/
structure Relayed (net : Bool) (root : ℕ) (tr : Calls) (s : System) (h : Handshake) : Prop where
  played : Played (Role.Allowed net) Role.move (Role.Holds net) s.procs h.roles
  pids : (s.procs.map Process.pid).Nodup
  relay : Relay root tr h s.buf

/-- A call of the parent. -/
lemma Relayed.parent_call (hs : Relayed net root tr s h) (hq : q ∈ s.procs)
    (hr : Enabled spawnMachine s q o r) (hp : h.parent = some (q.pid, ρ)) (ha : ρ.Allowed net o)
    (hh : ρ.Holds net q.fds) :
    ∃ h', h'.roles = bornRoles Role.move ρ o r ++
        (h.container.toList ++ h.middle.toList ++ [(q.pid, ρ.move o r)]) ∧
      Relay root (tr ++ [(q.pid, ⟨o, r⟩)]) h' (bufAfter s.buf q.fds o r) := by
  have hrelay := hs.relay
  obtain ⟨hroot, hpar⟩ := hrelay.parent _ hp
  have hquiet : ∀ {ρ' : Role} {buf' : Pipe → List UInt8}, ParentKnows h ρ' → Quiet o →
      buf' .pidp = s.buf .pidp → ∃ h' : Handshake, h'.roles =
        h.container.toList ++ h.middle.toList ++ [(q.pid, ρ')] ∧
        Relay root (tr ++ [(q.pid, ⟨o, r⟩)]) h' buf' :=
    fun hρ ho hbuf => ⟨_, rfl, ((hrelay.parent_quiet hp hρ).quiet ho).congr_buf hbuf⟩
  cases ρ with
  | setup go pidp =>
    cases o with
    | pipe p => cases p <;> exact hquiet hpar trivial rfl
    | fork =>
      cases (r : Forked) with
      | child => exact hr.elim
      | parent c =>
        have hc : c ≠ root := fun heq => hr.2.2 q hq (hroot.trans heq.symm)
        refine ⟨_, ?_, (hrelay.fork_middle hp hc).quiet trivial⟩
        simp [Handshake.roles, bornRoles, Role.move, hpar.1, hpar.2.1]
      | failed => exact hquiet hpar trivial rfl
    | act a =>
      cases a with
      | cgroupCreate _ | cgroupApply _ => exact hquiet hpar trivial rfl
      | _ => exact ha.elim
    | wait _ => exact hquiet hpar trivial rfl
    | exit _ => cases (r : Empty)
    | close _ | write _ _ | read _ _ => exact ha.elim
  | forked =>
    cases o with
    | close fd => exact hquiet hpar trivial rfl
    | read fd n =>
      obtain ⟨rfl, rfl⟩ := ha
      refine ⟨_, rfl, hrelay.learn hp ?_ (bufAfter_read hh.2)⟩
      refine (read_inv hr hh.2).imp id fun hend => ⟨hend.1, hend.2.1, fun x hx => ?_⟩
      have hmem : x ∈ h.roles := by simp [Handshake.roles, Option.mem_def.mp hx]
      obtain ⟨q', hq', -, hholds⟩ := hs.played.exists_process hmem
      have hmid := (hrelay.middle x hx).2
      obtain ⟨pid, ρ⟩ := x
      cases ρ with
      | middle => exact absurd hholds.1 (hend.2.2 q' hq')
      | telling c => exact absurd hholds (hend.2.2 q' hq')
      | told => rfl
      | _ => exact hmid.elim
    | _ => exact ha.elim
  | learnt c moved wired =>
    cases o with
    | close fd => exact hquiet hpar trivial rfl
    | wait _ => exact hquiet hpar trivial rfl
    | write fd data =>
      obtain ⟨rfl, -, -⟩ := ha
      exact hquiet hpar (show goWrite ≠ pidWrite by decide) (bufAfter_write_of_ne (by decide))
    | act a =>
      cases a with
      | addProcess c' =>
        obtain rfl : c' = c := ha
        have hknows : ParentKnows h (.learnt c' (moved || Except.isOk r) wired) := hpar
        exact ⟨_, rfl, (hrelay.parent_quiet hp hknows).add hpar⟩
      | networkSetup _ c' _ => exact hquiet hpar trivial rfl
      | _ => exact ha.elim
    | exit _ => cases (r : Empty)
    | pipe _ | fork | read _ _ => exact ha.elim
  | _ => exact hpar.elim

/-- A call of the middle process. -/
lemma Relayed.middle_call (hs : Relayed net root tr s h) (hr : Enabled spawnMachine s q o r)
    (hm : h.middle = some (q.pid, ρ)) (ha : ρ.Allowed net o) (hh : ρ.Holds net q.fds) :
    ∃ h', h'.roles = bornRoles Role.move ρ o r ++
        (h.container.toList ++ (q.pid, ρ.move o r) :: h.parent.toList) ∧
      Relay root (tr ++ [(q.pid, ⟨o, r⟩)]) h' (bufAfter s.buf q.fds o r) := by
  have hrelay := hs.relay
  obtain ⟨-, hmid⟩ := hrelay.middle _ hm
  have hquiet : ∀ {ρ' : Role}, MiddleSound h ρ' → Quiet o →
      ∃ h' : Handshake, h'.roles = h.container.toList ++ (q.pid, ρ') :: h.parent.toList ∧
        Relay root (tr ++ [(q.pid, ⟨o, r⟩)]) h' s.buf :=
    fun hρ ho => ⟨_, by simp [Handshake.roles], (hrelay.middle_quiet hm hρ).quiet ho⟩
  cases ρ with
  | middle =>
    cases o with
    | close fd => exact hquiet hmid trivial
    | fork =>
      cases (r : Forked) with
      | child => exact hr.elim
      | parent c =>
        have hforked : Relay root (tr ++ [(q.pid, ⟨.fork, .parent c⟩)]) h s.buf :=
          hrelay.quiet trivial
        obtain ⟨hnone, hnext⟩ :=
          hforked.fork_container hm (Nat.pos_of_ne_zero hr.1) hr.2.1 (by simp)
        exact ⟨_, by simp [Handshake.roles, bornRoles, Role.move, hnone], hnext⟩
      | failed => exact hquiet hmid trivial
    | act a =>
      cases a with
      | unshare => exact hquiet hmid trivial
      | _ => exact ha.elim
    | exit _ => cases (r : Empty)
    | _ => exact ha.elim
  | telling c =>
    obtain rfl : o = .write pidWrite (toLE 4 c) := ha
    refine ⟨_, ?_, hrelay.tell hm (bufAfter_write hh)⟩
    simp [Handshake.roles, bornRoles, Role.move]
  | told =>
    cases o with
    | wait _ => exact hquiet hmid trivial
    | exit _ => cases (r : Empty)
    | _ => exact ha.elim
  | _ => exact hmid.elim

/-- A call of the container. -/
lemma Relayed.container_call (hs : Relayed net root tr s h)
    (hc : h.container = some (q.pid, ρ)) (ha : ρ.Allowed net o) :
    ∃ h', h'.roles = bornRoles Role.move ρ o r ++
        ((q.pid, ρ.move o r) :: (h.middle.toList ++ h.parent.toList)) ∧
      Relay root (tr ++ [(q.pid, ⟨o, r⟩)]) h' (bufAfter s.buf q.fds o r) := by
  have hrelay := hs.relay
  obtain ⟨-, hcon⟩ := hrelay.container _ hc
  have hquiet : ∀ {ρ' : Role} {buf' : Pipe → List UInt8}, (ρ' = .waiting ∨ ρ' = .released) →
      Quiet o → buf' .pidp = s.buf .pidp →
      ∃ h' : Handshake, h'.roles = (q.pid, ρ') :: (h.middle.toList ++ h.parent.toList) ∧
        Relay root (tr ++ [(q.pid, ⟨o, r⟩)]) h' buf' :=
    fun hρ ho hbuf => ⟨_, by simp [Handshake.roles],
      ((hrelay.container_quiet hc hρ).quiet ho).congr_buf hbuf⟩
  cases ρ with
  | waiting =>
    cases o with
    | close fd => exact hquiet hcon trivial rfl
    | read fd n =>
      obtain ⟨rfl, rfl⟩ := ha
      exact hquiet (.inr rfl) (show goRead ≠ pidRead by decide) (bufAfter_read_of_ne (by decide))
    | _ => exact ha.elim
  | released =>
    cases o with
    | close fd => exact hquiet hcon trivial rfl
    | act a =>
      cases a with
      | stage _ | execvpe _ _ _ => exact hquiet hcon trivial rfl
      | _ => exact ha.elim
    | exit _ => cases (r : Empty)
    | _ => exact ha.elim
  | _ => simp at hcon

/-- **A call keeps the relay.** -/
lemma Relayed.call (hs : Relayed net root tr s h) {k : SpawnSig.Reply o → Program SpawnSig Unit}
    (hq : q ∈ s.procs) (hprog : q.prog = .call o k) (hr : Enabled spawnMachine s q o r) :
    ∃ h', Relayed net root (tr ++ [(q.pid, ⟨o, r⟩)]) (next spawnMachine s q o k r) h' := by
  obtain ⟨l₁, ρ, l₂, hroles, ha, hh, hnext⟩ :=
    hs.played.call (M := spawnMachine) Role.holds_move hs.pids hq hprog
  have hpids := pids_next (k := k) hs.pids hr
  have hthere : ∃ h', h'.roles = bornRoles Role.move ρ o r ++ (l₁ ++ (q.pid, ρ.move o r) :: l₂) ∧
      Relay root (tr ++ [(q.pid, ⟨o, r⟩)]) h' (bufAfter s.buf q.fds o r) := by
    obtain ⟨hc, rfl, rfl⟩ | ⟨hm, rfl, rfl⟩ | ⟨hp, rfl, rfl⟩ := Handshake.roles_split hroles
    · exact hs.container_call hc ha
    · exact hs.middle_call hr hm ha hh
    · exact hs.parent_call hq hr hp ha hh
  obtain ⟨h', hroles', hrelay'⟩ := hthere
  exact ⟨h', hroles' ▸ hnext r, hpids, hrelay'⟩

/-- Whoever is gone, the relay is kept. -/
lemma Relayed.gone (hs : Relayed net root tr s h) (pid : ℕ) :
    Relayed net root tr (s.without pid) (h.without pid) := by
  have hmem : ∀ {x : ℕ × Role} {y : Option (ℕ × Role)},
      x ∈ y.filter (fun x => x.1 ≠ pid) → x ∈ y := fun hx => (Option.mem_filter_iff.mp hx).1
  have hnone : ∀ {y : Option (ℕ × Role)}, y = none → y.filter (fun x => x.1 ≠ pid) = none :=
    fun h => by rw [h]; rfl
  refine ⟨?_, pids_without pid hs.pids, { hs.relay with
    parent := fun x hx => ?_
    middle := fun x hx => hs.relay.middle x (hmem hx)
    container := fun x hx => hs.relay.container x (hmem hx)
    learnt := fun c hc => (hs.relay.learnt c hc).imp id fun hn => ⟨hn.1, hn.2.1, hnone hn.2.2⟩ }⟩
  · rw [Handshake.roles_without]
    exact hs.played.without pid
  · obtain ⟨hroot, hpar⟩ := hs.relay.parent x (hmem hx)
    refine ⟨hroot, ?_⟩
    obtain ⟨pid', ρ⟩ := x
    cases ρ with
    | setup go pidp => exact ⟨hnone hpar.1, hnone hpar.2.1, hpar.2.2⟩
    | _ => exact hpar

/-- The parent alone is a relay. -/
lemma relayed_start (root : ℕ) (cfg : ContainerConfig) (caller : Caller) :
    Relayed cfg.network root [] (start root cfg caller)
      ⟨some (root, .setup false false), none, none, none, none, false⟩ where
  played := (shows_start root cfg caller).played
  pids := List.nodup_singleton _
  relay :=
    { parent := by
        rintro _ ⟨⟩
        exact ⟨rfl, rfl, rfl, rfl, rfl, rfl⟩
      middle := by rintro _ ⟨⟩
      container := by rintro _ ⟨⟩
      born := by rintro _ ⟨⟩
      untold := fun _ => rfl
      unread := by rintro ⟨⟩
      learnt := by rintro _ ⟨⟩
      reads := fun _ _ _ h => absurd h List.not_mem_nil
      adds := fun _ _ _ h => absurd h List.not_mem_nil
      told := by
        refine ⟨by rintro ⟨⟩, ?_⟩
        rintro ⟨m, data, hm⟩
        exact absurd hm List.not_mem_nil }

/-- **Every run is a relay.** -/
lemma relayed_of_run {cfg : ContainerConfig} {caller : Caller}
    (hrun : Run spawnMachine (start root cfg caller) tr s) :
    ∃ h, Relayed cfg.network root tr s h := by
  refine hrun.invariant (I := fun tr s => ∃ h, Relayed cfg.network root tr s h)
    ⟨_, relayed_start root cfg caller⟩ ?_ ?_
  · rintro tr s q o k r ⟨h, hs⟩ hq hprog hr
    exact hs.call hq hprog hr
  · rintro tr s pid ⟨h, hs⟩
    exact ⟨_, hs.gone pid⟩

/-- **What the parent has learnt** is the pid of the container exactly when the middle process has told
it. -/
lemma Relay.learnt_iff (hs : Relay root tr h buf) {c : ℕ} (hc : h.learnt = some c) :
    Real root tr c ↔ Told tr := by
  rw [← hs.told]
  rcases hs.learnt c hc with ⟨htold, hborn⟩ | ⟨htold, rfl, -⟩
  · exact ⟨fun _ => htold, fun _ => hs.born c hborn⟩
  · rw [htold]
    exact ⟨fun hreal => absurd hreal.1 (lt_irrefl 0), by rintro ⟨⟩⟩

/-- A handle has the pid that the parent has read. -/
lemma Returned.learnt {cfg : ContainerConfig} {handle : Handle}
    (hret : Returned root cfg tr handle) : Learnt root tr handle.containerPid := by
  obtain ⟨index, io, es, hpre, hspawn⟩ := hret
  obtain ⟨b, hb, hpid⟩ := spawn_reads hspawn
  exact ⟨b, mem_of_callsOf (hpre.subset hb), hpid⟩

/-- **The pid that is read** is that of the container exactly when the middle process has told it. -/
lemma learnt_real_iff {cfg : ContainerConfig} {caller : Caller}
    (hrun : Run spawnMachine (start root cfg caller) tr s) {pid : ℕ} (hl : Learnt root tr pid) :
    Real root tr pid ↔ Told tr := by
  obtain ⟨h, hs⟩ := relayed_of_run hrun
  obtain ⟨b, hread, rfl⟩ := hl
  exact hs.relay.learnt_iff (hs.relay.reads _ _ _ hread)

/-- **The cgroup** gets the container exactly when the middle process has told its pid. -/
lemma added_real_iff {cfg : ContainerConfig} {caller : Caller}
    (hrun : Run spawnMachine (start root cfg caller) tr s) {m c : ℕ} {r : Except RuntimeError Unit}
    (hadd : (m, ⟨.act (.addProcess c), r⟩) ∈ tr) : Real root tr c ↔ Told tr := by
  obtain ⟨h, hs⟩ := relayed_of_run hrun
  exact hs.relay.learnt_iff (hs.relay.adds _ _ _ hadd)

end Relay

/-! ### Two starts -/

namespace Demo

/-- The calls of a parent that reads these bytes. -/
def parentCalls (b : List UInt8) : List SpawnSig.Event :=
  [⟨.act (.cgroupCreate "c0ffee"), .ok ()⟩, ⟨.act (.cgroupApply cfg.resources), .ok ()⟩,
    ⟨.pipe .go, true⟩, ⟨.pipe .pidp, true⟩, ⟨.fork, .parent 2⟩, ⟨.close goRead, ()⟩,
    ⟨.close pidWrite, ()⟩, ⟨.read pidRead 4, b⟩, ⟨.close pidRead, ()⟩,
    ⟨.act (.addProcess (ofLE b)), .ok ()⟩, ⟨.act (.networkSetup cfg.shortId (ofLE b) 0), .ok ()⟩,
    ⟨.write goWrite [1], ()⟩, ⟨.close goWrite, ()⟩]

/-- They lead `spawn` to a handle with the pid that the bytes are. -/
lemma parentCalls_leads (b : List UInt8) :
    Exec (anyReply SpawnSig) quiet (spawn cfg 0 (some "/io")).run () (parentCalls b)
      (some (.ok ⟨ofLE b, 2⟩)) () := by
  have hcall : ∀ {α : Type} {o : SpawnSig.Op} {k : SpawnSig.Reply o → Program SpawnSig α}
      {r : SpawnSig.Reply o} {es : List SpawnSig.Event} {a : α},
      Exec (anyReply SpawnSig) quiet (k r) () es (some a) () →
      Exec (anyReply SpawnSig) quiet (.call o k) () (⟨o, r⟩ :: es) (some a) () := fun h =>
    .call trivial h
  iterate 13 refine hcall ?_
  exact .ret _ _

/-- The replies in a run in which the namespaces cannot be unshared. -/
def refusals (pid : ℕ) (o : SpawnSig.Op) : Option (SpawnSig.Reply o) :=
  match o with
  | .act .unshare => some (.error (.io "Operation not permitted (os error 1)"))
  | .read _ _ => some []
  | o => replies true pid o

/-- The middle process exits when it cannot unshare the namespaces; the parent goes on. -/
def toZero : List Turn :=
  List.replicate 7 (.call 1) ++ List.replicate 3 (.call 2) ++ [.exit 2] ++ List.replicate 6 (.call 1)

/-- The middle process forks the container and tells its pid; the parent goes on. -/
def toThree : List Turn := forks ++ List.replicate 5 (.call 1)

/-- **A handle on the process zero.** -/
lemma returned_zero : ∃ tr s, Run spawnMachine begin tr s ∧ Returned 1 cfg tr ⟨0, 2⟩ ∧
    (1, ⟨.act (.addProcess 0), .ok ()⟩) ∈ tr := by
  have hplay : (play spawnMachine refusals toZero begin).map (fun x => callsOf 1 x.1) =
      some (parentCalls []) := rfl
  obtain ⟨x, hx, hcalls⟩ := Option.map_eq_some_iff.mp hplay
  refine ⟨x.1, x.2, play_run .start hx,
    ⟨0, some "/io", parentCalls [], hcalls ▸ List.prefix_rfl, parentCalls_leads []⟩, ?_⟩
  refine mem_of_callsOf ?_
  rw [hcalls]
  simp [parentCalls, ofLE]

/-- A handle on the container. -/
lemma returned_three : ∃ tr s, Run spawnMachine begin tr s ∧ Returned 1 cfg tr ⟨3, 2⟩ ∧
    Told tr := by
  have hplay : (play spawnMachine (replies true) toThree begin).map (fun x => callsOf 1 x.1) =
      some (parentCalls [3, 0, 0, 0]) := rfl
  obtain ⟨x, hx, hcalls⟩ := Option.map_eq_some_iff.mp hplay
  have htold : (play spawnMachine (replies true) toThree begin).map (fun x => callsOf 2 x.1) =
      some [⟨.close goWrite, ()⟩, ⟨.close pidRead, ()⟩, ⟨.act .unshare, .ok ()⟩, ⟨.fork, .parent 3⟩,
        ⟨.write pidWrite (toLE 4 3), ()⟩] := rfl
  rw [hx, Option.map_some] at htold
  refine ⟨x.1, x.2, play_run .start hx,
    ⟨0, some "/io", parentCalls [3, 0, 0, 0], hcalls ▸ List.prefix_rfl, parentCalls_leads _⟩,
    2, toLE 4 3, mem_of_callsOf ?_⟩
  rw [Option.some.inj htold]
  simp

end Demo

end Spawn

end Mincontainer
