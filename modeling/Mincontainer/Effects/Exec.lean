import Mathlib.Data.List.TakeWhile
import Mathlib.Data.Nat.Notation
import Mathlib.Logic.Relation
import Mathlib.Tactic.Cases
import Mincontainer.Effects.Program

set_option relaxedAutoImplicit false
set_option autoImplicit false

/-!
# Executions of programs, cut anywhere

A machine says which replies a call may give in a world and what the world is afterwards. An
execution of a program performs its calls one after the other; between any two of them the
environment may change the world by a relation `R`; and it may end anywhere, which is what a
`SIGKILL` does. The outcome is therefore optional: `none` for an execution that was cut,
`some a` for one that returned `a`.

## Main definitions

* `Effects.Machine` — the meaning of the calls of a signature on a world.
* `Effects.Exec` — `Exec M R p w tr out w'`: from `w` the program `p` performs the events `tr`
  and leaves the world `w'`.
* `Effects.since` — the part of a trace that starts with an event of some kind.
* `Effects.Machine.drive` — an executable execution, the replies chosen by a policy.

## Main results

* `Effects.Exec.fallible_bind_inv` — an execution of a sequence of fallible steps is cut in
  the first, ends with its error, or goes on with the second.
* `Effects.Exec.rel` — a relation kept by every call a program can make, and by the
  environment, relates the two ends of each of its executions.
* `Effects.Exec.invariant`, `Effects.Exec.establishes` — invariants, and what an event leaves
  behind for the rest of an execution.
* `Effects.Exec.simulate` — an execution is one of a second machine under a map of worlds.
* `Effects.Machine.drive_exec` — what `drive` computes is an execution.
-/

namespace Effects

variable {S : Signature} {W W' : Type} {α β ε : Type}

/-- The meaning of the calls of `S` on the worlds `W`. -/
structure Machine (S : Signature) (W : Type) where
  /-- The reply `r` is one that the operation may give in this world. -/
  Enabled : W → (o : S.Op) → S.Reply o → Prop
  /-- The world after the call has given this reply. -/
  next : W → (o : S.Op) → S.Reply o → W

/-- The environment that leaves the world alone. -/
def quiet : W → W → Prop := fun _ _ => False

/-- `Exec M R p w tr out w'`: run from `w`, the program `p` performs the calls `tr`, interleaved
with steps of the environment `R`, and stops in `w'`, having returned `out` or, for `none`,
having been cut. -/
inductive Exec (M : Machine S W) (R : W → W → Prop) :
    Program S α → W → List S.Event → Option α → W → Prop
  /-- The execution is cut here. -/
  | cut (p : Program S α) (w : W) : Exec M R p w [] none w
  /-- The program returns. -/
  | ret (a : α) (w : W) : Exec M R (.ret a) w [] (some a) w
  /-- The program performs its next call. -/
  | call {o : S.Op} {k : S.Reply o → Program S α} {w w' : W} {r : S.Reply o}
      {tr : List S.Event} {out : Option α} (hr : M.Enabled w o r)
      (h : Exec M R (k r) (M.next w o r) tr out w') : Exec M R (.call o k) w (⟨o, r⟩ :: tr) out w'
  /-- The environment moves. -/
  | env {p : Program S α} {w w₁ w' : W} {tr : List S.Event} {out : Option α} (hR : R w w₁)
      (h : Exec M R p w₁ tr out w') : Exec M R p w tr out w'

namespace Exec

variable {M : Machine S W} {R : W → W → Prop} {p : Program S α} {w w' w₁ : W}
  {tr : List S.Event} {out : Option α}

/-- The environment may move any number of times before the program goes on. -/
lemma env_star (hR : Relation.ReflTransGen R w w₁) (h : Exec M R p w₁ tr out w') :
    Exec M R p w tr out w' := by
  induction hR using Relation.ReflTransGen.head_induction_on with
  | refl => exact h
  | head hab _ ih => exact .env hab ih

/-- The environment may move after the execution has stopped. -/
lemma append_env (h : Exec M R p w tr out w₁) (hR : R w₁ w') : Exec M R p w tr out w' := by
  induction h with
  | cut p w => exact .env hR (.cut p _)
  | ret a w => exact .env hR (.ret a _)
  | call hr _ ih => exact .call hr (ih hR)
  | env h₁ _ ih => exact .env h₁ (ih hR)

/-- The environment may move any number of times after the execution has stopped. -/
lemma append_env_star (h : Exec M R p w tr out w₁) (hR : Relation.ReflTransGen R w₁ w') :
    Exec M R p w tr out w' := by
  induction hR with
  | refl => exact h
  | tail _ hstep ih => exact ih.append_env hstep

/-- An execution that returned is also one that was cut right before it returned. -/
lemma to_cut (h : Exec M R p w tr out w') : Exec M R p w tr none w' := by
  induction h with
  | cut p w => exact .cut p w
  | ret a w => exact .cut _ w
  | call hr _ ih => exact .call hr ih
  | env hR _ ih => exact .env hR ih

/-- Executing a program that only returns: no call is made. -/
lemma ret_inv {a : α} (h : Exec M R (.ret a) w tr out w') :
    tr = [] ∧ Relation.ReflTransGen R w w' ∧ (out = none ∨ out = some a) := by
  generalize hp : Program.ret a = p at h
  induction h with
  | cut p w => exact ⟨rfl, .refl, .inl rfl⟩
  | ret b w => cases hp; exact ⟨rfl, .refl, .inr rfl⟩
  | call hr _ _ => cases hp
  | env hR _ ih =>
    obtain ⟨h₁, h₂, h₃⟩ := ih hp
    exact ⟨h₁, .head hR h₂, h₃⟩

/-- Executing a call: the execution is cut before it, or the call gets a reply and the
continuation executes. -/
lemma call_inv {o : S.Op} {k : S.Reply o → Program S α}
    (h : Exec M R (.call o k) w tr out w') :
    ∃ w₁, Relation.ReflTransGen R w w₁ ∧
      ((tr = [] ∧ out = none ∧ w' = w₁) ∨
        ∃ r tr', M.Enabled w₁ o r ∧ tr = ⟨o, r⟩ :: tr' ∧
          Exec M R (k r) (M.next w₁ o r) tr' out w') := by
  generalize hp : Program.call o k = p at h
  induction h with
  | cut p w => exact ⟨w, .refl, .inl ⟨rfl, rfl, rfl⟩⟩
  | ret b w => cases hp
  | call hr h _ =>
    cases hp
    exact ⟨_, .refl, .inr ⟨_, _, hr, rfl, h⟩⟩
  | env hR _ ih =>
    obtain ⟨w₁, h₁, h₂⟩ := ih hp
    exact ⟨w₁, .head hR h₁, h₂⟩

/-- Executing a call to a returned value: the call got a reply and the continuation executed. -/
lemma call_some_inv {o : S.Op} {k : S.Reply o → Program S α} {a : α}
    (h : Exec M R (.call o k) w tr (some a) w') :
    ∃ w₁ r tr', Relation.ReflTransGen R w w₁ ∧ M.Enabled w₁ o r ∧ tr = ⟨o, r⟩ :: tr' ∧
      Exec M R (k r) (M.next w₁ o r) tr' (some a) w' := by
  obtain ⟨w₁, hR, ⟨-, hcut, -⟩ | ⟨r, tr', hr, rfl, hk⟩⟩ := call_inv h
  · cases hcut
  · exact ⟨w₁, r, tr', hR, hr, rfl, hk⟩

/-- Executing a program that only returns to a returned value. -/
lemma ret_some_inv {a b : α} (h : Exec M R (.ret a) w tr (some b) w') :
    tr = [] ∧ Relation.ReflTransGen R w w' ∧ b = a := by
  obtain ⟨rfl, hR, h | h⟩ := ret_inv h
  · cases h
  · exact ⟨rfl, hR, Option.some.inj h⟩

/-- Two executions in sequence. -/
lemma bind {f : α → Program S β} {a : α} {tr₂ : List S.Event} {out₂ : Option β}
    (h₁ : Exec M R p w tr (some a) w₁) (h₂ : Exec M R (f a) w₁ tr₂ out₂ w') :
    Exec M R (p >>= f) w (tr ++ tr₂) out₂ w' := by
  generalize hout : some a = out at h₁
  induction h₁ with
  | cut p w => cases hout
  | ret b w => cases hout; exact h₂
  | call hr _ ih => exact .call hr (ih h₂ hout)
  | env hR _ ih => exact .env hR (ih h₂ hout)

/-- An execution of a sequence is cut in the first program, or completes it and executes the
second. -/
lemma bind_inv {f : α → Program S β} {out : Option β}
    (h : Exec M R (p >>= f) w tr out w') :
    (out = none ∧ Exec M R p w tr none w') ∨
      ∃ a tr₁ tr₂ w₁, tr = tr₁ ++ tr₂ ∧ Exec M R p w tr₁ (some a) w₁ ∧
        Exec M R (f a) w₁ tr₂ out w' := by
  generalize hq : (p >>= f) = q at h
  induction h generalizing p with
  | cut q w => exact .inl ⟨rfl, .cut p w⟩
  | ret b w =>
    cases p with
    | ret a => exact .inr ⟨a, [], [], w, rfl, .ret a w, by rw [← Program.ret_bind a f, hq]; exact .ret b w⟩
    | call o k => cases hq
  | @call o k w w' r tr out hr h ih =>
    cases p with
    | ret a => exact .inr ⟨a, [], _, w, rfl, .ret a w, by rw [← Program.ret_bind a f, hq]; exact .call hr h⟩
    | call o' k' =>
      cases hq
      rcases ih rfl with ⟨ho, h'⟩ | ⟨a, tr₁, tr₂, w₁, rfl, h₁, h₂⟩
      · exact .inl ⟨ho, .call hr h'⟩
      · exact .inr ⟨a, _ :: tr₁, tr₂, w₁, rfl, .call hr h₁, h₂⟩
  | env hR _ ih =>
    rcases ih hq with ⟨ho, h'⟩ | ⟨a, tr₁, tr₂, w₁, rfl, h₁, h₂⟩
    · exact .inl ⟨ho, .env hR h'⟩
    · exact .inr ⟨a, tr₁, tr₂, w₁, rfl, .env hR h₁, h₂⟩

/-- Executions of two fallible steps in sequence. -/
lemma fallible_bind {x : Fallible S ε α} {f : α → Fallible S ε β} {a : α} {tr₂ : List S.Event}
    {out : Option (Except ε β)} (h₁ : Exec M R x.run w tr (some (.ok a)) w₁)
    (h₂ : Exec M R (f a).run w₁ tr₂ out w') : Exec M R (x >>= f).run w (tr ++ tr₂) out w' := by
  rw [Fallible.run_bind]
  exact bind h₁ h₂

/-- An execution of `x?; f` is cut in `x`, ends with the error of `x`, or completes `x` and goes
on with `f`. -/
lemma fallible_bind_inv {x : Fallible S ε α} {f : α → Fallible S ε β}
    {out : Option (Except ε β)} (h : Exec M R (x >>= f).run w tr out w') :
    (out = none ∧ Exec M R x.run w tr none w') ∨
    (∃ e, out = some (.error e) ∧ Exec M R x.run w tr (some (.error e)) w') ∨
      ∃ a tr₁ tr₂ w₁, tr = tr₁ ++ tr₂ ∧ Exec M R x.run w tr₁ (some (.ok a)) w₁ ∧
        Exec M R (f a).run w₁ tr₂ out w' := by
  rw [Fallible.run_bind] at h
  rcases bind_inv h with h | ⟨r, tr₁, tr₂, w₁, rfl, h₁, h₂⟩
  · exact .inl h
  cases r with
  | ok a => exact .inr (.inr ⟨a, tr₁, tr₂, w₁, rfl, h₁, h₂⟩)
  | error e =>
    obtain ⟨rfl, hR, hout⟩ := ret_inv h₂
    have h₃ : Exec M R x.run w (tr₁ ++ []) (some (.error e)) w' := by
      rw [List.append_nil]
      exact h₁.append_env_star hR
    rcases hout with rfl | rfl
    · exact .inl ⟨rfl, h₃.to_cut⟩
    · exact .inr (.inl ⟨e, rfl, h₃⟩)

/-- What cuts the first program cuts the sequence. -/
lemma bind_cut {f : α → Program S β} (h : Exec M R p w tr none w') :
    Exec M R (p >>= f) w tr none w' := by
  generalize hout : (none : Option α) = out at h
  induction h with
  | cut p w => exact .cut _ w
  | ret a w => cases hout
  | call hr _ ih => exact .call hr (ih hout)
  | env hR _ ih => exact .env hR (ih hout)

/-- An error of the first program is the error of the sequence. -/
lemma fallible_bind_error {x : Fallible S ε α} {f : α → Fallible S ε β} {e : ε}
    (h : Exec M R x.run w tr (some (.error e)) w') :
    Exec M R (x >>= f).run w tr (some (.error e)) w' := by
  rw [Fallible.run_bind, ← List.append_nil tr]
  exact bind h (.ret _ _)

/-- The second half of a sequence may be replaced by one that does the same after every value the
first half returned in this execution. -/
lemma fallible_bind_congr {x : Fallible S ε α} {f g : α → Fallible S ε β}
    {out : Option (Except ε β)} (h : Exec M R (x >>= f).run w tr out w')
    (hfg : ∀ a tr₁ tr₂ w₁, tr = tr₁ ++ tr₂ → Exec M R x.run w tr₁ (some (.ok a)) w₁ → f a = g a) :
    Exec M R (x >>= g).run w tr out w' := by
  rcases fallible_bind_inv h with ⟨rfl, h₁⟩ | ⟨e, rfl, h₁⟩ | ⟨a, tr₁, tr₂, w₁, rfl, h₁, h₂⟩
  · rw [Fallible.run_bind]
    exact bind_cut h₁
  · exact fallible_bind_error h₁
  · rw [hfg a tr₁ tr₂ w₁ rfl h₁] at h₂
    exact fallible_bind h₁ h₂

/-- An execution that returned from `x?; f` with a value went through both. -/
lemma fallible_bind_ok {x : Fallible S ε α} {f : α → Fallible S ε β} {b : β}
    (h : Exec M R (x >>= f).run w tr (some (.ok b)) w') :
    ∃ a tr₁ tr₂ w₁, tr = tr₁ ++ tr₂ ∧ Exec M R x.run w tr₁ (some (.ok a)) w₁ ∧
      Exec M R (f a).run w₁ tr₂ (some (.ok b)) w' := by
  rcases fallible_bind_inv h with ⟨h₁, -⟩ | ⟨e, h₁, -⟩ | h₁
  · cases h₁
  · cases h₁
  · exact h₁

/-- A program that throws does not return a value. -/
lemma throw_ok_false {e : ε} {a : α}
    (h : Exec M R (throw e : Fallible S ε α).run w tr (some (.ok a)) w') : False := by
  obtain ⟨-, -, h⟩ := ret_some_inv h
  cases h

/-- Executing one call of a fallible program. -/
lemma sys_inv {o : S.Op} {out : Option (Except ε (S.Reply o))}
    (h : Exec M R (Fallible.sys o : Fallible S ε _).run w tr out w') :
    (tr = [] ∧ out = none ∧ Relation.ReflTransGen R w w') ∨
      ∃ w₁ r, Relation.ReflTransGen R w w₁ ∧ M.Enabled w₁ o r ∧ tr = [⟨o, r⟩] ∧
        Relation.ReflTransGen R (M.next w₁ o r) w' ∧ (out = none ∨ out = some (.ok r)) := by
  rw [Fallible.run_sys] at h
  obtain ⟨w₁, hR, ⟨rfl, rfl, rfl⟩ | ⟨r, tr', hr, rfl, h'⟩⟩ := call_inv h
  · exact .inl ⟨rfl, rfl, hR⟩
  · obtain ⟨rfl, hR', hout⟩ := ret_inv h'
    exact .inr ⟨w₁, r, hR, hr, rfl, hR', hout⟩

/-- An attempt never fails: it is cut, or it returns the outcome of what was attempted. -/
lemma attempt_inv {ε' : Type} {x : Fallible S ε α} {out : Option (Except ε' (Except ε α))}
    (h : Exec M R (Fallible.attempt x : Fallible S ε' _).run w tr out w') :
    (out = none ∧ Exec M R x.run w tr none w') ∨
      ∃ r, out = some (.ok r) ∧ Exec M R x.run w tr (some r) w' := by
  rw [Fallible.run_attempt] at h
  rcases bind_inv h with h | ⟨r, tr₁, tr₂, w₁, rfl, h₁, h₂⟩
  · exact .inl h
  obtain ⟨rfl, hR, hout⟩ := ret_inv h₂
  have h₃ : Exec M R x.run w (tr₁ ++ []) (some r) w' := by
    rw [List.append_nil]
    exact h₁.append_env_star hR
  rcases hout with rfl | rfl
  · exact .inl ⟨rfl, h₃.to_cut⟩
  · exact .inr ⟨r, rfl, h₃⟩

/-- The calls of an execution are calls the program can make. -/
lemma mem_within {P : S.Op → Prop} (hp : p.Within P) (h : Exec M R p w tr out w') :
    ∀ e ∈ tr, P e.1 := by
  induction h with
  | cut p w => simp
  | ret a w => simp
  | call hr _ ih =>
    intro e he
    rcases List.mem_cons.mp he with rfl | he
    · exact hp.1
    · exact ih (hp.2 _) e he
  | env _ _ ih => exact ih hp

/-- The results of an execution are results the program can have. -/
lemma out_obeys {P : S.Op → Prop} {Q : α → Prop} (hp : p.Obeys P Q)
    (h : Exec M R p w tr out w') : ∀ a, out = some a → Q a := by
  induction h with
  | cut p w => exact nofun
  | ret a w =>
    rintro b hb
    obtain rfl := Option.some.inj hb
    exact hp
  | call hr _ ih => exact ih (hp.2 _)
  | env _ _ ih => exact ih hp

/-- A program whose calls always have a reply can return. -/
lemma exists_return {P : S.Op → Prop} (hlive : ∀ w o, P o → ∃ r, M.Enabled w o r) (hp : p.Within P)
    (w : W) : ∃ tr a w', Exec M R p w tr (some a) w' := by
  induction p generalizing w with
  | ret a => exact ⟨[], a, w, .ret a w⟩
  | call o k ih =>
    obtain ⟨r, hr⟩ := hlive w o hp.1
    obtain ⟨tr, a, w', h⟩ := ih r (hp.2 r) (M.next w o r)
    exact ⟨_, a, w', .call hr h⟩

/-- **Determinacy.** The replies of an execution that returned say what the program did: no
execution with these replies goes on.

**Proof sketch.** Induction on the program; the two executions make the same call and get the
same reply. -/
lemma returned_unique {w₂ w₂' : W} {tr₂ : List S.Event} {a : α}
    (h : Exec M R p w tr (some a) w') (h₂ : Exec M R p w₂ (tr ++ tr₂) out w₂') :
    tr₂ = [] ∧ (out = none ∨ out = some a) := by
  induction p generalizing w w₂ tr with
  | ret b =>
    obtain ⟨rfl, -, rfl⟩ := ret_some_inv h
    obtain ⟨htr, -, hout⟩ := ret_inv h₂
    exact ⟨htr, hout⟩
  | call o k ih =>
    obtain ⟨w₁, r, tr', -, -, rfl, hk⟩ := call_some_inv h
    obtain ⟨w₃, -, ⟨htr, -, -⟩ | ⟨r', tr'', -, htr, hk₂⟩⟩ := call_inv h₂
    · cases htr
    · cases htr
      exact ih r hk hk₂

/-- Two executions that returned and go by the same replies did the same. -/
lemma returned_eq {w₂ w₂' : W} {tr₂ rest rest₂ : List S.Event} {a b : α}
    (h : Exec M R p w tr (some a) w') (h₂ : Exec M R p w₂ tr₂ (some b) w₂') (heq : tr ++ rest = tr₂ ++ rest₂) :
    tr = tr₂ ∧ rest = rest₂ ∧ a = b := by
  rcases List.append_eq_append_iff.mp heq with ⟨more, rfl, rfl⟩ | ⟨more, rfl, rfl⟩
  · obtain ⟨rfl, hout | hout⟩ := returned_unique h h₂
    · cases hout
    · exact ⟨(List.append_nil _).symm, rfl, (Option.some.inj hout).symm⟩
  · obtain ⟨rfl, hout | hout⟩ := returned_unique h₂ h
    · cases hout
    · exact ⟨List.append_nil _, rfl, Option.some.inj hout⟩

/-- A program that never fails returns a value. -/
lemma total_ok {x : Fallible S ε α} {res : Except ε α} (hx : Fallible.Total x)
    (h : Exec M R x.run w tr (some res) w') : ∃ a, res = .ok a :=
  out_obeys hx h _ rfl

/-- **Footprint rule.** Let `K` be a preorder on worlds that every call the program can make
keeps, as long as its reply is `G`, and that the environment keeps. If all replies of an
execution are good, `K` relates its two ends.

**Proof sketch.** Induction on the execution: each call and each step of the environment
extends the relation by transitivity. -/
lemma rel_of_good {K : W → W → Prop} {P : S.Op → Prop} {G : S.Event → Prop}
    (hrefl : ∀ w, K w w) (htrans : ∀ {a b c}, K a b → K b c → K a c)
    (hstep : ∀ w o r, P o → G ⟨o, r⟩ → M.Enabled w o r → K w (M.next w o r))
    (henv : ∀ w w₁, R w w₁ → K w w₁) (hp : p.Within P) (h : Exec M R p w tr out w')
    (hgood : ∀ e ∈ tr, G e) : K w w' := by
  induction h with
  | cut p w => exact hrefl w
  | ret a w => exact hrefl w
  | call hr _ ih =>
    exact htrans (hstep _ _ _ hp.1 (hgood _ List.mem_cons_self) hr)
      (ih (hp.2 _) fun e he => hgood e (List.mem_cons_of_mem _ he))
  | env hR _ ih => exact htrans (henv _ _ hR) (ih hp hgood)

/-- The footprint rule without a condition on the replies. -/
lemma rel {K : W → W → Prop} {P : S.Op → Prop}
    (hrefl : ∀ w, K w w) (htrans : ∀ {a b c}, K a b → K b c → K a c)
    (hstep : ∀ w o r, P o → M.Enabled w o r → K w (M.next w o r))
    (henv : ∀ w w₁, R w w₁ → K w w₁) (hp : p.Within P) (h : Exec M R p w tr out w') :
    K w w' :=
  rel_of_good (G := fun _ => True) hrefl htrans (fun w o r hP _ hr => hstep w o r hP hr) henv
    hp h fun _ _ => trivial

/-- **Invariant rule.** What every call of the program with a good reply preserves, and the
environment preserves, holds at the end of an execution with good replies. -/
lemma invariant {I : W → Prop} {P : S.Op → Prop} {G : S.Event → Prop}
    (hstep : ∀ w o r, P o → G ⟨o, r⟩ → M.Enabled w o r → I w → I (M.next w o r))
    (henv : ∀ w w₁, R w w₁ → I w → I w₁) (hp : p.Within P) (h : Exec M R p w tr out w')
    (hgood : ∀ e ∈ tr, G e) (hw : I w) : I w' :=
  rel_of_good (K := fun a b => I a → I b) (fun _ => id) (fun h₁ h₂ ha => h₂ (h₁ ha))
    hstep henv hp h hgood hw

/-- **Establishing rule.** Let `I` be an invariant, and let the event `e` turn it into `J`, which
is an invariant too. Then `J` holds at the end of every execution in which `e` happened. -/
lemma establishes {I J : W → Prop} {P : S.Op → Prop} {e : S.Event}
    (hI : ∀ w o r, P o → M.Enabled w o r → I w → I (M.next w o r))
    (hJ : ∀ w o r, P o → M.Enabled w o r → J w → J (M.next w o r))
    (he : ∀ w, I w → M.Enabled w e.1 e.2 → J (M.next w e.1 e.2))
    (henvI : ∀ w w₁, R w w₁ → I w → I w₁) (henvJ : ∀ w w₁, R w w₁ → J w → J w₁)
    (hp : p.Within P) (h : Exec M R p w tr out w') (hw : I w) (hmem : e ∈ tr) : J w' := by
  induction h with
  | cut p w => cases hmem
  | ret a w => cases hmem
  | call hr h ih =>
    rcases List.mem_cons.mp hmem with rfl | hmem
    · refine invariant (G := fun _ => True) (fun w o r hP _ => hJ w o r hP) henvJ (hp.2 _) h
        (fun _ _ => trivial) (he _ hw hr)
    · exact ih (hp.2 _) (hI _ _ _ hp.1 hr hw) hmem
  | env hR _ ih => exact ih hp (henvI _ _ hR hw) hmem

/-- **Simulation.** If `f` maps every call of `M` to the same call of `M'` and every step of the
environment to one of `R'` or to none, then it maps executions to executions. -/
lemma simulate {M' : Machine S W'} {R' : W' → W' → Prop} (f : W → W')
    (hcall : ∀ w o r, M.Enabled w o r →
      M'.Enabled (f w) o r ∧ f (M.next w o r) = M'.next (f w) o r)
    (henv : ∀ w w₁, R w w₁ → f w₁ = f w ∨ R' (f w) (f w₁)) (h : Exec M R p w tr out w') :
    Exec M' R' p (f w) tr out (f w') := by
  induction h with
  | cut p w => exact .cut p _
  | ret a w => exact .ret a _
  | call hr _ ih =>
    obtain ⟨h₁, h₂⟩ := hcall _ _ _ hr
    exact .call h₁ (h₂ ▸ ih)
  | env hR _ ih =>
    rcases henv _ _ hR with h | h
    · exact h ▸ ih
    · exact .env h ih

end Exec

/-! ### Traces -/

/-- The events from the first one with a property on. -/
def since (P : S.Event → Bool) (tr : List S.Event) : List S.Event := tr.dropWhile fun e => !P e

lemma since_append {P : S.Event → Bool} {tr₁ tr₂ : List S.Event} (h : ∀ e ∈ tr₁, P e = false) :
    since P (tr₁ ++ tr₂) = since P tr₂ :=
  List.dropWhile_append_of_pos fun e he => by simp [h e he]

lemma since_eq_nil {P : S.Event → Bool} {tr : List S.Event} (h : ∀ e ∈ tr, P e = false) :
    since P tr = [] :=
  List.dropWhile_eq_nil_iff.mpr fun e he => by simp [h e he]

/-! ### Undisturbed executions -/

@[simp] lemma reflTransGen_quiet {w w' : W} : Relation.ReflTransGen quiet w w' ↔ w = w' := by
  constructor
  · intro h
    induction h with
    | refl => rfl
    | tail _ h _ => exact h.elim
  · rintro rfl; exact .refl

/-- Executing a call undisturbed. -/
lemma Exec.quiet_call_iff {M : Machine S W} {o : S.Op} {k : S.Reply o → Program S α} {w w' : W}
    {tr : List S.Event} {a : α} :
    Exec M quiet (.call o k) w tr (some a) w' ↔
      ∃ r tr', M.Enabled w o r ∧ tr = ⟨o, r⟩ :: tr' ∧
        Exec M quiet (k r) (M.next w o r) tr' (some a) w' := by
  constructor
  · intro h
    obtain ⟨w₁, r, tr', hR, hr, rfl, h⟩ := call_some_inv h
    obtain rfl := reflTransGen_quiet.mp hR
    exact ⟨r, tr', hr, rfl, h⟩
  · rintro ⟨r, tr', hr, rfl, h⟩
    exact .call hr h

/-- Returning undisturbed. -/
lemma Exec.quiet_ret_iff {M : Machine S W} {w w' : W} {tr : List S.Event} {a b : α} :
    Exec M quiet (.ret a) w tr (some b) w' ↔ tr = [] ∧ w' = w ∧ b = a := by
  constructor
  · intro h
    obtain ⟨rfl, hR, rfl⟩ := ret_some_inv h
    exact ⟨rfl, (reflTransGen_quiet.mp hR).symm, rfl⟩
  · rintro ⟨rfl, rfl, rfl⟩
    exact .ret _ _

/-- An undisturbed execution is one under any environment. -/
lemma Exec.of_quiet {M : Machine S W} {R : W → W → Prop} {p : Program S α} {w w' : W}
    {tr : List S.Event} {out : Option α} (h : Exec M quiet p w tr out w') :
    Exec M R p w tr out w' :=
  h.simulate id (fun _ _ _ hr => ⟨hr, rfl⟩) fun _ _ hR => hR.elim

namespace Machine

/-- Run `p` from `w` without interference for at most `n` calls, the reply to call number `i`
chosen by the policy; where the policy gives no reply, the execution is cut. The result is `none`
when the policy chooses a reply that the operation cannot give. -/
def drive (M : Machine S W) [∀ w o r, Decidable (M.Enabled w o r)]
    (policy : ℕ → W → (o : S.Op) → Option (S.Reply o)) :
    ℕ → ℕ → Program S α → W → Option (List S.Event × Option α × W)
  | _, _, .ret a, w => some ([], some a, w)
  | 0, _, .call _ _, w => some ([], none, w)
  | n + 1, i, .call o k, w =>
    match policy i w o with
    | none => some ([], none, w)
    | some r =>
      if M.Enabled w o r then
        (M.drive policy n (i + 1) (k r) (M.next w o r)).map fun x => (⟨o, r⟩ :: x.1, x.2)
      else none

/-- What `drive` computes is an execution. -/
lemma drive_exec {M : Machine S W} [∀ w o r, Decidable (M.Enabled w o r)]
    {policy : ℕ → W → (o : S.Op) → Option (S.Reply o)} {n i : ℕ} {p : Program S α} {w : W}
    {x : List S.Event × Option α × W} (h : M.drive policy n i p w = some x) :
    Exec M quiet p w x.1 x.2.1 x.2.2 := by
  induction n generalizing i p w x with
  | zero =>
    cases p with
    | ret a => cases h; exact .ret a w
    | call o k => cases h; exact .cut _ w
  | succ n ih =>
    cases p with
    | ret a => cases h; exact .ret a w
    | call o k =>
      simp only [drive] at h
      split at h
      · cases h; exact .cut _ w
      · split at h
        · rename_i hr
          obtain ⟨y, hy, rfl⟩ := Option.map_eq_some_iff.mp h
          exact .call hr (ih hy)
        · cases h

end Machine

end Effects
