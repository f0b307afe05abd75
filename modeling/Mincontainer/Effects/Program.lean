import Mathlib.Tactic.Lemma
import Mathlib.Tactic.TypeStar

set_option relaxedAutoImplicit false
set_option autoImplicit false

/-!
# Programs over a signature of host calls

A program that only touches the outside world through calls is a well-founded tree: at each
node it names an operation and continues with the reply. The tree says what is called and in
which order. What a call does, which replies it may give and who else touches the world is
left to a machine (`Mincontainer.Effects.Exec`).

## Main definitions

* `Effects.Signature` — operations, and the type of replies of each.
* `Effects.Program` — call trees, a lawful monad.
* `Effects.Fallible` — programs that may fail, with `?` as the monadic bind.
* `Effects.Program.Within` — every call of the tree satisfies a predicate.

## Main results

* `Effects.Program.within_bind`, `Effects.Fallible.within_bind` — a sequential composition
  stays within a set of calls when both halves do.
-/

namespace Effects

/-- A signature of calls: the operations, and for each the replies it can give. -/
structure Signature where
  /-- The operations. -/
  Op : Type
  /-- The replies of an operation. -/
  Reply : Op → Type

/-- One completed call: the operation and the reply it got. -/
abbrev Signature.Event (S : Signature) : Type := (o : S.Op) × S.Reply o

/-- A program over the signature `S` with results in `α`. -/
inductive Program (S : Signature) (α : Type) : Type where
  /-- Return without another call. -/
  | ret (a : α) : Program S α
  /-- Perform `o` and go on with its reply. -/
  | call (o : S.Op) (k : S.Reply o → Program S α) : Program S α

namespace Program

variable {S : Signature} {α β γ : Type}

/-- Sequential composition. -/
def bind : Program S α → (α → Program S β) → Program S β
  | ret a, f => f a
  | call o k, f => call o fun r => (k r).bind f

instance : Monad (Program S) where
  pure := ret
  bind := bind

@[simp] lemma pure_eq (a : α) : (pure a : Program S α) = ret a := rfl

@[simp] lemma ret_bind (a : α) (f : α → Program S β) : (ret a >>= f) = f a := rfl

@[simp] lemma call_bind (o : S.Op) (k : S.Reply o → Program S α) (f : α → Program S β) :
    (call o k >>= f) = call o fun r => k r >>= f := rfl

@[simp] lemma map_ret (f : α → β) (a : α) : (f <$> ret a : Program S β) = ret (f a) := rfl

@[simp] lemma map_call (f : α → β) (o : S.Op) (k : S.Reply o → Program S α) :
    (f <$> call o k) = call o fun r => f <$> k r := rfl

/-- Returning the result changes nothing. -/
lemma bind_ret (p : Program S α) : (p >>= ret) = p := by
  induction p with
  | ret a => rfl
  | call o k ih => simp only [call_bind]; congr 1; funext r; exact ih r

/-- Sequencing is associative. -/
lemma bind_assoc' (p : Program S α) (f : α → Program S β) (g : β → Program S γ) :
    (p >>= f >>= g) = (p >>= fun a => f a >>= g) := by
  induction p with
  | ret a => rfl
  | call o k ih => simp only [call_bind]; congr 1; funext r; exact ih r

instance : LawfulMonad (Program S) :=
  LawfulMonad.mk' (Program S) bind_ret (fun _ _ => rfl) bind_assoc'

/-- The program that performs one call and returns its reply. -/
def perform (o : S.Op) : Program S (S.Reply o) := call o ret

/-- Every call the program can make satisfies `P`, whatever the replies are. -/
def Within (P : S.Op → Prop) : Program S α → Prop
  | ret _ => True
  | call o k => P o ∧ ∀ r, Within P (k r)

@[simp] lemma within_ret (P : S.Op → Prop) (a : α) : (ret a : Program S α).Within P := trivial

lemma within_true (p : Program S α) : p.Within fun _ => True := by
  induction p with
  | ret a => trivial
  | call o k ih => exact ⟨trivial, ih⟩

@[simp] lemma within_call (P : S.Op → Prop) (o : S.Op) (k : S.Reply o → Program S α) :
    (call o k).Within P ↔ P o ∧ ∀ r, (k r).Within P := Iff.rfl

@[simp] lemma within_perform (P : S.Op → Prop) (o : S.Op) : (perform o).Within P ↔ P o := by
  simp [perform]

/-- A composition stays within `P` when both halves do. -/
lemma within_bind {P : S.Op → Prop} {p : Program S α} {f : α → Program S β}
    (hp : p.Within P) (hf : ∀ a, (f a).Within P) : (p >>= f).Within P := by
  induction p with
  | ret a => exact hf a
  | call o k ih => exact ⟨hp.1, fun r => ih r (hp.2 r)⟩

/-- Every call the program can make satisfies `P`, and every result satisfies `Q`. -/
def Obeys (P : S.Op → Prop) (Q : α → Prop) : Program S α → Prop
  | ret a => Q a
  | call o k => P o ∧ ∀ r, Obeys P Q (k r)

lemma Obeys.within {P : S.Op → Prop} {Q : α → Prop} {p : Program S α} (h : p.Obeys P Q) :
    p.Within P := by
  induction p with
  | ret a => trivial
  | call o k ih => exact ⟨h.1, fun r => ih r (h.2 r)⟩

lemma Within.obeys {P : S.Op → Prop} {p : Program S α} (h : p.Within P) :
    p.Obeys P fun _ => True := by
  induction p with
  | ret a => trivial
  | call o k ih => exact ⟨h.1, fun r => ih r (h.2 r)⟩

lemma Obeys.mono {P P' : S.Op → Prop} {Q Q' : α → Prop} (hP : ∀ o, P o → P' o)
    (hQ : ∀ a, Q a → Q' a) {p : Program S α} (h : p.Obeys P Q) : p.Obeys P' Q' := by
  induction p with
  | ret a => exact hQ a h
  | call o k ih => exact ⟨hP o h.1, fun r => ih r (h.2 r)⟩

/-- The second half of a composition may rely on what the first half ensures. -/
lemma Obeys.bind {P : S.Op → Prop} {Q : α → Prop} {Q' : β → Prop} {p : Program S α}
    {f : α → Program S β} (hp : p.Obeys P Q) (hf : ∀ a, Q a → (f a).Obeys P Q') :
    (p >>= f).Obeys P Q' := by
  induction p with
  | ret a => exact hf a hp
  | call o k ih => exact ⟨hp.1, fun r => ih r (hp.2 r)⟩

/-- A larger set of calls is respected by the same programs. -/
lemma Within.mono {P Q : S.Op → Prop} (h : ∀ o, P o → Q o) {p : Program S α}
    (hp : p.Within P) : p.Within Q := by
  induction p with
  | ret a => trivial
  | call o k ih => exact ⟨h o hp.1, fun r => ih r (hp.2 r)⟩

end Program

/-- Programs that may fail with an `ε`. The bind is the `?` of the code: the first error ends
the function. -/
abbrev Fallible (S : Signature) (ε : Type) := ExceptT ε (Program S)

namespace Fallible

variable {S : Signature} {ε α β : Type}

/-- Perform a call that is not a failure of the program by itself. -/
def sys (o : S.Op) : Fallible S ε (S.Reply o) := ExceptT.lift (Program.perform o)

/-- Run a part of the program and keep its outcome as a value, as `match` and `let _ =` on a
result do. -/
def attempt {ε' : Type} (x : Fallible S ε α) : Fallible S ε' (Except ε α) := ExceptT.lift x.run

@[simp] lemma run_pure (a : α) : (pure a : Fallible S ε α).run = .ret (.ok a) := rfl

@[simp] lemma run_throw (e : ε) : (throw e : Fallible S ε α).run = .ret (.error e) := rfl

@[simp] lemma run_sys (o : S.Op) :
    (sys o : Fallible S ε _).run = .call o fun r => .ret (.ok r) := rfl

lemma run_attempt {ε' : Type} (x : Fallible S ε α) :
    (attempt x : Fallible S ε' _).run = x.run >>= fun r => .ret (.ok r) := rfl

/-- The code's `?`: go on after a success, return the error otherwise. -/
lemma run_bind (x : Fallible S ε α) (f : α → Fallible S ε β) :
    (x >>= f).run = x.run >>= fun
      | .ok a => (f a).run
      | .error e => .ret (.error e) := rfl

/-- A call in front of a program. -/
lemma run_sys_bind (o : S.Op) (f : S.Reply o → Fallible S ε β) :
    (sys o >>= f).run = .call o fun r => (f r).run := rfl

lemma run_attempt_bind {ε' : Type} (x : Fallible S ε α) (f : Except ε α → Fallible S ε' β) :
    (attempt x >>= f).run = x.run >>= fun r => (f r).run := by
  rw [run_bind, run_attempt, Program.bind_assoc']
  rfl

section Within

variable (P : S.Op → Prop)

/-- A sequence of fallible steps stays within `P` when every step does. -/
lemma within_bind {P : S.Op → Prop} {x : Fallible S ε α} {f : α → Fallible S ε β}
    (hx : x.run.Within P) (hf : ∀ a, (f a).run.Within P) : (x >>= f).run.Within P := by
  rw [run_bind]
  refine Program.within_bind hx fun r => ?_
  cases r with
  | ok a => exact hf a
  | error e => exact trivial

@[simp] lemma within_sys (o : S.Op) : (sys o : Fallible S ε _).run.Within P ↔ P o := by
  simp

@[simp] lemma within_pure (a : α) : (pure a : Fallible S ε α).run.Within P := by simp

@[simp] lemma within_throw (e : ε) : (throw e : Fallible S ε α).run.Within P := by simp

/-- Every call satisfies `P`, and every value that is returned satisfies `Q`. -/
def Obeys (P : S.Op → Prop) (Q : α → Prop) (x : Fallible S ε α) : Prop :=
  Program.Obeys P (fun r => ∀ a, r = .ok a → Q a) x.run

lemma Obeys.within {P : S.Op → Prop} {Q : α → Prop} {x : Fallible S ε α} (h : Obeys P Q x) :
    x.run.Within P :=
  Program.Obeys.within h

/-- The code after a `?` may rely on what the step before it ensures. -/
lemma Obeys.bind {P : S.Op → Prop} {Q : α → Prop} {Q' : β → Prop} {x : Fallible S ε α}
    {f : α → Fallible S ε β} (hx : Obeys P Q x) (hf : ∀ a, Q a → Obeys P Q' (f a)) :
    Obeys P Q' (x >>= f) := by
  rw [Obeys, run_bind]
  refine Program.Obeys.bind hx fun r hr => ?_
  cases r with
  | ok a => exact hf a (hr a rfl)
  | error e => exact nofun

lemma Obeys.pure {P : S.Op → Prop} {Q : α → Prop} {a : α} (h : Q a) :
    Obeys P Q (pure a : Fallible S ε α) := fun b hb => by
  cases hb
  exact h

lemma Obeys.throw {P : S.Op → Prop} {Q : α → Prop} (e : ε) :
    Obeys P Q (throw e : Fallible S ε α) := nofun

lemma Obeys.of_within {P : S.Op → Prop} {x : Fallible S ε α} (h : x.run.Within P) :
    Obeys P (fun _ => True) x :=
  Program.Obeys.mono (fun _ => id) (fun _ _ _ _ => trivial) h.obeys

lemma Obeys.mono {P P' : S.Op → Prop} {Q Q' : α → Prop} {x : Fallible S ε α}
    (hP : ∀ o, P o → P' o) (hQ : ∀ a, Q a → Q' a) (h : Obeys P Q x) : Obeys P' Q' x :=
  Program.Obeys.mono hP (fun _ hr a ha => hQ a (hr a ha)) h

/-- The program never fails. -/
def Total (x : Fallible S ε α) : Prop :=
  Program.Obeys (fun _ => True) (fun r => ∃ a, r = .ok a) x.run

lemma Total.pure (a : α) : Total (pure a : Fallible S ε α) := ⟨a, rfl⟩

lemma Total.sys (o : S.Op) : Total (sys o : Fallible S ε _) := ⟨trivial, fun r => ⟨r, rfl⟩⟩

/-- A sequence never fails when its steps never do. -/
lemma Total.bind {x : Fallible S ε α} {f : α → Fallible S ε β} (hx : Total x)
    (hf : ∀ a, Total (f a)) : Total (x >>= f) := by
  rw [Total, run_bind]
  refine Program.Obeys.bind hx fun r hr => ?_
  obtain ⟨a, rfl⟩ := hr
  exact hf a

/-- An attempt never fails. -/
lemma Total.attempt {ε' : Type} (x : Fallible S ε α) : Total (attempt x : Fallible S ε' _) :=
  Program.Obeys.bind (Program.within_true x.run).obeys fun r _ => ⟨r, rfl⟩

/-- What is attempted may be relied on when it succeeded. -/
lemma Obeys.attempt {ε' : Type} {P : S.Op → Prop} {Q : α → Prop} {x : Fallible S ε α}
    (h : Obeys P Q x) :
    Obeys P (fun r => ∀ a, r = .ok a → Q a) (attempt x : Fallible S ε' (Except ε α)) :=
  Program.Obeys.bind h fun r hr b hb => by
    cases hb
    exact hr

lemma within_attempt {ε' : Type} {P : S.Op → Prop} {x : Fallible S ε α}
    (hx : x.run.Within P) : (attempt x : Fallible S ε' _).run.Within P :=
  Program.within_bind hx fun _ => trivial

end Within

end Fallible

end Effects
