import Mincontainer.Effects.Processes
import Mathlib.Tactic.Push

set_option relaxedAutoImplicit false
set_option autoImplicit false

/-!
# How processes end

A process exits, is killed by a signal, or ends as another program that it has become. Who waits for it is
told how it ended. An account is a run in which the endings are kept, and in which a wait is answered
accordingly.

## Main definitions

* `Effects.Ending` — how a process ended.
* `Effects.Processes.Account` — the states that are reached, with the calls that were made and the
  endings, the last one first.
* `Effects.Processes.Blocked` — a process waits: its next call is answered nothing yet.
* `Effects.Processes.reckon` — an executable account.

## Main results

* `Effects.Processes.Account.invariant` — what each step preserves holds in every account.
* `Effects.Processes.Account.run` — an account is a run.
* `Effects.Processes.reckon_account` — what is reckoned is an account.
-/

namespace Effects

/-- How a process ended. -/
inductive Ending where
  /-- It exited; the kernel keeps one byte of its code. -/
  | exited (code : UInt8)
  /-- It was killed by one of the standard signals. -/
  | signaled (sig : Fin 32)
deriving DecidableEq, Repr

namespace Processes

variable {P : Type} [DecidableEq P] {A : Signature} {W : Type}

/-- What a wait is answered: the status of the process, once it has ended. -/
def Answers (status : Ending → ℤ) (ends : List (ℕ × Ending)) : (o : ProcOp P A) → o.Reply → Prop
  | .wait pid, (code : ℤ) => ∀ e, ends.lookup pid = some e → code = status e
  | _, _ => True

/-- The states reached from `s₀`, with the calls on the way there and how processes ended, the last ending
first. A process that makes a call of `becomes` can end with any code, as the program that it has become. -/
inductive Account (M : Machine A W) (status : Ending → ℤ) (becomes : A.Op → Prop) (s₀ : Processes P A W) :
    List (ℕ × (ProcSig P A).Event) → List (ℕ × Ending) → Processes P A W → Prop
  | start : Account M status becomes s₀ [] [] s₀
  | call {tr : List (ℕ × (ProcSig P A).Event)} {ends : List (ℕ × Ending)} {s : Processes P A W}
      {q : Process P A} {o : ProcOp P A} {k : o.Reply → Program (ProcSig P A) Unit} {r : o.Reply}
      (h : Account M status becomes s₀ tr ends s) (hq : q ∈ s.procs) (hprog : q.prog = .call o k)
      (hr : Enabled M s q o r) (hanswer : Answers status ends o r) :
      Account M status becomes s₀ (tr ++ [(q.pid, ⟨o, r⟩)]) ends (next M s q o k r)
  | exit {tr : List (ℕ × (ProcSig P A).Event)} {ends : List (ℕ × Ending)} {s : Processes P A W}
      {q : Process P A} {code : ℤ} {k : Empty → Program (ProcSig P A) Unit}
      (h : Account M status becomes s₀ tr ends s) (hq : q ∈ s.procs)
      (hprog : q.prog = .call (.exit code) k) :
      Account M status becomes s₀ tr ((q.pid, .exited (UInt8.ofInt code)) :: ends) (s.without q.pid)
  | kill {tr : List (ℕ × (ProcSig P A).Event)} {ends : List (ℕ × Ending)} {s : Processes P A W}
      {q : Process P A} (h : Account M status becomes s₀ tr ends s) (hq : q ∈ s.procs) (sig : Fin 32) :
      Account M status becomes s₀ tr ((q.pid, .signaled sig) :: ends) (s.without q.pid)
  | became {tr : List (ℕ × (ProcSig P A).Event)} {ends : List (ℕ × Ending)} {s : Processes P A W}
      {q : Process P A} {a : A.Op} {k : A.Reply a → Program (ProcSig P A) Unit}
      (h : Account M status becomes s₀ tr ends s) (hq : q ∈ s.procs)
      (hprog : q.prog = .call (.act a) k) (ha : becomes a) (code : UInt8) :
      Account M status becomes s₀ tr ((q.pid, .exited code) :: ends) (s.without q.pid)

/-- How a process can end by itself: with the code it exits with, or with that of the program it has
become. -/
def EndsItself (becomes : A.Op → Prop) (prog : Program (ProcSig P A) Unit) (code : UInt8) : Prop :=
  (∃ (c : ℤ) (k : Empty → Program (ProcSig P A) Unit), prog = .call (.exit c) k ∧ code = UInt8.ofInt c) ∨
    ∃ (a : A.Op) (k : A.Reply a → Program (ProcSig P A) Unit), prog = .call (.act a) k ∧ becomes a

section

variable {M : Machine A W} {status : Ending → ℤ} {becomes : A.Op → Prop} {s₀ s : Processes P A W}
  {tr : List (ℕ × (ProcSig P A).Event)} {ends : List (ℕ × Ending)}

/-- **Invariant rule**, for calls and for endings. -/
lemma Account.invariant {I : List (ℕ × (ProcSig P A).Event) → List (ℕ × Ending) → Processes P A W → Prop}
    (h : Account M status becomes s₀ tr ends s) (h₀ : I [] [] s₀)
    (hcall : ∀ (tr : List (ℕ × (ProcSig P A).Event)) (ends : List (ℕ × Ending)) (s : Processes P A W)
      (q : Process P A) (o : ProcOp P A) (k : o.Reply → Program (ProcSig P A) Unit) (r : o.Reply),
      I tr ends s → q ∈ s.procs → q.prog = .call o k → Enabled M s q o r → Answers status ends o r →
        I (tr ++ [(q.pid, ⟨o, r⟩)]) ends (next M s q o k r))
    (hend : ∀ (tr : List (ℕ × (ProcSig P A).Event)) (ends : List (ℕ × Ending)) (s : Processes P A W)
      (q : Process P A) (e : Ending), I tr ends s → q ∈ s.procs →
        (∀ code, e = .exited code → EndsItself becomes q.prog code) →
        I tr ((q.pid, e) :: ends) (s.without q.pid)) : I tr ends s := by
  induction h with
  | start => exact h₀
  | call _ hq hprog hr hanswer ih => exact hcall _ _ _ _ _ _ _ ih hq hprog hr hanswer
  | exit _ hq hprog ih =>
    refine hend _ _ _ _ _ ih hq ?_
    rintro _ ⟨⟩
    exact .inl ⟨_, _, hprog, rfl⟩
  | kill _ hq sig ih => exact hend _ _ _ _ _ ih hq nofun
  | became _ hq hprog ha code ih => exact hend _ _ _ _ _ ih hq fun _ _ => .inr ⟨_, _, hprog, ha⟩

/-- An account is a run. -/
lemma Account.run (h : Account M status becomes s₀ tr ends s) : Run M s₀ tr s := by
  induction h with
  | start => exact .start
  | call _ hq hprog hr _ ih => exact .call ih hq hprog hr
  | exit _ _ _ ih => exact .gone ih _
  | kill _ _ _ ih => exact .gone ih _
  | became _ _ _ _ _ ih => exact .gone ih _

end

/-- The process waits: its next call is none that it leaves with, and no reply to it can come yet. -/
def Blocked (M : Machine A W) (status : Ending → ℤ) (ends : List (ℕ × Ending)) (s : Processes P A W)
    (q : Process P A) : Prop :=
  ∃ (o : ProcOp P A) (k : o.Reply → Program (ProcSig P A) Unit), q.prog = .call o k ∧
    (∀ code, o ≠ .exit code) ∧ ∀ r, Enabled M s q o r → ¬ Answers status ends o r

/-- A process whose next call can be answered does not wait. -/
lemma not_blocked {M : Machine A W} {status : Ending → ℤ} {ends : List (ℕ × Ending)}
    {s : Processes P A W} {q : Process P A} {o : ProcOp P A} {k : o.Reply → Program (ProcSig P A) Unit}
    (hprog : q.prog = .call o k) {r : o.Reply} (hr : Enabled M s q o r) (hanswer : Answers status ends o r) :
    ¬ Blocked M status ends s q := by
  rintro ⟨o', k', hprog', -, hnone⟩
  rw [hprog] at hprog'
  obtain ⟨rfl, -⟩ := Program.call.inj hprog'
  exact hnone r hr hanswer

/-- A wait for a process that is gone is answered. -/
lemma not_blocked_wait {M : Machine A W} {status : Ending → ℤ} {ends : List (ℕ × Ending)}
    {s : Processes P A W} {q : Process P A} {pid : ℕ} {k : ℤ → Program (ProcSig P A) Unit}
    (hprog : q.prog = .call (.wait pid) k) (hgone : ∀ q ∈ s.procs, q.pid ≠ pid) :
    ¬ Blocked M status ends s q := by
  cases hlast : ends.lookup pid with
  | none =>
    refine not_blocked (o := .wait pid) (r := (0 : ℤ)) hprog hgone fun e he => ?_
    cases hlast.symm.trans he
  | some e =>
    refine not_blocked (o := .wait pid) (r := status e) hprog hgone fun e' he' => ?_
    rw [Option.some.inj (hlast.symm.trans he')]

/-- A read of an end that is held waits only while nothing is there and somebody could write. -/
lemma blocked_read {M : Machine A W} {status : Ending → ℤ} {ends : List (ℕ × Ending)}
    {s : Processes P A W} {q : Process P A} {fd : Fd P} {n : ℕ}
    {k : List UInt8 → Program (ProcSig P A) Unit} (hprog : q.prog = .call (.read fd n) k)
    (hfd : fd ∈ q.fds) (hblocked : Blocked M status ends s q) :
    s.buf fd.pipe = [] ∧ ∃ q ∈ s.procs, ⟨fd.pipe, .write⟩ ∈ q.fds := by
  obtain ⟨o, k', hprog', -, hnone⟩ := hblocked
  rw [hprog] at hprog'
  obtain ⟨rfl, -⟩ := Program.call.inj hprog'
  have hread : ∀ data : List UInt8, Enabled M s q (.read fd n) data → False := fun data hdata =>
    hnone data hdata trivial
  simp only [Enabled, if_neg (not_not.mpr hfd)] at hread
  by_cases hbuf : s.buf fd.pipe = []
  · refine ⟨hbuf, ?_⟩
    by_contra hnobody
    push Not at hnobody
    refine hread [] ?_
    rw [if_neg (not_not.mpr hbuf)]
    exact ⟨rfl, hnobody⟩
  · exact (hread _ (by rw [if_pos hbuf])).elim

/-! ### Executable accounts -/

/-- Whose turn it is, and what for. -/
inductive Move where
  | call (pid : ℕ)
  | exit (pid : ℕ)
  | kill (pid : ℕ) (sig : Fin 32)
  | become (pid : ℕ) (code : UInt8)
deriving DecidableEq, Repr

instance (status : Ending → ℤ) (ends : List (ℕ × Ending)) : (o : ProcOp P A) → (r : o.Reply) →
    Decidable (Answers status ends o r)
  | .wait pid, (code : ℤ) =>
    match h : ends.lookup pid with
    | none => .isTrue fun e he => absurd (h.symm.trans he) nofun
    | some e => decidable_of_iff (code = status e)
        ⟨fun hc e' he => by rw [hc, Option.some.inj (h.symm.trans he)], fun hc => hc e h⟩
  | .pipe _, _ => .isTrue trivial
  | .fork, _ => .isTrue trivial
  | .close _, _ => .isTrue trivial
  | .write _ _, _ => .isTrue trivial
  | .read _ _, _ => .isTrue trivial
  | .exit _, _ => .isTrue trivial
  | .act _, _ => .isTrue trivial

/-- What has happened so far: calls, endings, and the state. -/
abbrev Tally (P : Type) (A : Signature) (W : Type) :=
  List (ℕ × (ProcSig P A).Event) × List (ℕ × Ending) × Processes P A W

/-- Let one process take its turn. -/
def reckonOne (M : Machine A W) [∀ w o r, Decidable (M.Enabled w o r)] (status : Ending → ℤ)
    (becomes : A.Op → Prop) [DecidablePred becomes] (choose : ℕ → (o : ProcOp P A) → Option o.Reply)
    (x : Tally P A W) : Move → Option (Tally P A W)
  | .call pid =>
    match x.2.2.procs.find? fun q => q.pid = pid with
    | none => none
    | some q =>
      match q.prog with
      | .ret _ => none
      | .call o k =>
        match choose pid o with
        | none => none
        | some r =>
          if Enabled M x.2.2 q o r ∧ Answers status x.2.1 o r then
            some (x.1 ++ [(q.pid, ⟨o, r⟩)], x.2.1, next M x.2.2 q o k r)
          else none
  | .exit pid =>
    match x.2.2.procs.find? fun q => q.pid = pid with
    | none => none
    | some q =>
      match q.prog with
      | .call (.exit code) _ =>
        some (x.1, (q.pid, .exited (UInt8.ofInt code)) :: x.2.1, x.2.2.without q.pid)
      | _ => none
  | .kill pid sig =>
    match x.2.2.procs.find? fun q => q.pid = pid with
    | none => none
    | some q => some (x.1, (q.pid, .signaled sig) :: x.2.1, x.2.2.without q.pid)
  | .become pid code =>
    match x.2.2.procs.find? fun q => q.pid = pid with
    | none => none
    | some q =>
      match q.prog with
      | .call (.act a) _ =>
        if becomes a then some (x.1, (q.pid, .exited code) :: x.2.1, x.2.2.without q.pid) else none
      | _ => none

/-- Let processes take their turns, one after the other. -/
def reckon (M : Machine A W) [∀ w o r, Decidable (M.Enabled w o r)] (status : Ending → ℤ)
    (becomes : A.Op → Prop) [DecidablePred becomes] (choose : ℕ → (o : ProcOp P A) → Option o.Reply) :
    List Move → Tally P A W → Option (Tally P A W)
  | [], x => some x
  | t :: ts, x => (reckonOne M status becomes choose x t).bind (reckon M status becomes choose ts)

section

variable {M : Machine A W} [∀ w o r, Decidable (M.Enabled w o r)] {status : Ending → ℤ}
  {becomes : A.Op → Prop} [DecidablePred becomes] {choose : ℕ → (o : ProcOp P A) → Option o.Reply}
  {s₀ : Processes P A W} {x y : Tally P A W}

lemma reckonOne_account {t : Move} (hx : Account M status becomes s₀ x.1 x.2.1 x.2.2)
    (h : reckonOne M status becomes choose x t = some y) : Account M status becomes s₀ y.1 y.2.1 y.2.2 := by
  cases t with
  | call pid =>
    simp only [reckonOne] at h
    split at h
    · cases h
    · split at h
      · cases h
      · split at h
        · cases h
        · split at h
          · rename_i hq _ _ _ hprog _ _ _ hok
            obtain rfl := Option.some.inj h
            exact .call hx (List.mem_of_find?_eq_some hq) hprog hok.1 hok.2
          · cases h
  | exit pid =>
    simp only [reckonOne] at h
    split at h
    · cases h
    · split at h
      · rename_i hq _ _ _ hprog
        obtain rfl := Option.some.inj h
        exact .exit hx (List.mem_of_find?_eq_some hq) hprog
      · cases h
  | kill pid sig =>
    simp only [reckonOne] at h
    split at h
    · cases h
    · rename_i hq
      obtain rfl := Option.some.inj h
      exact .kill hx (List.mem_of_find?_eq_some hq) sig
  | become pid code =>
    simp only [reckonOne] at h
    split at h
    · cases h
    · split at h
      · split at h
        · rename_i hq _ _ _ hprog ha
          obtain rfl := Option.some.inj h
          exact .became hx (List.mem_of_find?_eq_some hq) hprog ha code
        · cases h
      · cases h

/-- What is reckoned is an account. -/
lemma reckon_account {ts : List Move} (hx : Account M status becomes s₀ x.1 x.2.1 x.2.2)
    (h : reckon M status becomes choose ts x = some y) : Account M status becomes s₀ y.1 y.2.1 y.2.2 := by
  induction ts generalizing x with
  | nil =>
    obtain rfl := Option.some.inj h
    exact hx
  | cons t ts ih =>
    obtain ⟨z, hz, hrest⟩ := Option.bind_eq_some_iff.mp h
    exact ih (reckonOne_account hx hz) hrest

end

end Processes

end Effects
