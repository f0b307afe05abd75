import Mincontainer.Effects.Exec

set_option relaxedAutoImplicit false
set_option autoImplicit false

/-!
# What a program is sure to do

A program assures a postcondition from a world if all its executions from there have it, however the
calls are answered and the environment moves, and if each call it gets to is of an allowed kind. With
calls that never return left out of the allowed ones, an execution can stop before its end only by
being cut.

## Main definitions

* `Effects.Machine.Assures` — for programs.
* `Effects.Machine.Promises` — for fallible programs, with a postcondition for values and one for
  errors.

## Main results

* `Effects.Machine.Assures.bind`, `Effects.Machine.Promises.bind` — sequences.
* `Effects.Machine.Assures.exec`, `Effects.Machine.Promises.exec` — what is assured holds of every
  execution.
-/

namespace Effects

namespace Machine

variable {S : Signature} {W α β ε : Type} {M : Machine S W} {R : W → W → Prop} {P : S.Op → Prop}

/-- From `w`, every call of the program satisfies `P`, and `Q` holds of its result and the world in
which it returns. -/
def Assures (M : Machine S W) (R : W → W → Prop) (P : S.Op → Prop) (Q : α → W → Prop) :
    Program S α → W → Prop
  | .ret a, w => ∀ w₁, Relation.ReflTransGen R w w₁ → Q a w₁
  | .call o k, w => ∀ w₁, Relation.ReflTransGen R w w₁ →
      P o ∧ ∀ r, M.Enabled w₁ o r → M.Assures R P Q (k r) (M.next w₁ o r)

namespace Assures

variable {Q : α → W → Prop} {p : Program S α} {w w' w₁ : W}

/-- The environment may move first. -/
lemma env (h : M.Assures R P Q p w) (hR : Relation.ReflTransGen R w w₁) :
    M.Assures R P Q p w₁ := by
  cases p with
  | ret a => exact fun w₂ h₂ => h w₂ (hR.trans h₂)
  | call o k => exact fun w₂ h₂ => h w₂ (hR.trans h₂)

/-- The second program starts in a world that the first assures. -/
lemma bind {Q' : β → W → Prop} {f : α → Program S β} (hp : M.Assures R P Q p w)
    (hf : ∀ a w, Q a w → M.Assures R P Q' (f a) w) : M.Assures R P Q' (p >>= f) w := by
  induction p generalizing w with
  | ret a => exact hf a w (hp w .refl)
  | call o k ih =>
    intro w₁ hR
    obtain ⟨ho, hk⟩ := hp w₁ hR
    exact ⟨ho, fun r hr => ih r (hk r hr)⟩

lemma mono {Q' : α → W → Prop} (hQ : ∀ a w, Q a w → Q' a w) (hp : M.Assures R P Q p w) :
    M.Assures R P Q' p w := by
  induction p generalizing w with
  | ret a => exact fun w₁ hR => hQ a w₁ (hp w₁ hR)
  | call o k ih => exact fun w₁ hR => ⟨(hp w₁ hR).1, fun r hr => ih r ((hp w₁ hR).2 r hr)⟩

/-- What is assured holds of every execution.

**Proof sketch.** Induction on the execution: a call leaves what the rest of the program assures, and
so does the environment. -/
lemma exec {tr : List S.Event} {out : Option α} (hp : M.Assures R P Q p w)
    (h : Exec M R p w tr out w') : (∀ e ∈ tr, P e.1) ∧ ∀ a, out = some a → Q a w' := by
  induction h with
  | cut p w => exact ⟨nofun, nofun⟩
  | ret a w =>
    refine ⟨nofun, fun b hb => ?_⟩
    obtain rfl := Option.some.inj hb
    exact hp w .refl
  | call hr _ ih =>
    obtain ⟨ho, hk⟩ := hp _ .refl
    obtain ⟨hcalls, hres⟩ := ih (hk _ hr)
    exact ⟨List.forall_mem_cons.mpr ⟨ho, hcalls⟩, hres⟩
  | env hR _ ih => exact ih (hp.env (.single hR))

end Assures

/-! ### Fallible programs -/

/-- From `w`, every call of the program satisfies `P`; a value it returns satisfies `Q` in the world
in which it returns, and an error satisfies `E`. -/
def Promises (M : Machine S W) (R : W → W → Prop) (P : S.Op → Prop) (Q : α → W → Prop)
    (E : ε → Prop) (x : Fallible S ε α) (w : W) : Prop :=
  M.Assures R P (fun r w =>
    match r with
    | .ok a => Q a w
    | .error e => E e) x.run w

namespace Promises

variable {Q : α → W → Prop} {E : ε → Prop} {x : Fallible S ε α} {w w' : W}

/-- The code after a `?` starts in a world that the step before it promises; errors are passed on. -/
lemma bind {Q' : β → W → Prop} {f : α → Fallible S ε β} (hx : M.Promises R P Q E x w)
    (hf : ∀ a w, Q a w → M.Promises R P Q' E (f a) w) : M.Promises R P Q' E (x >>= f) w := by
  rw [Promises, Fallible.run_bind]
  refine Assures.bind hx fun r w hr => ?_
  cases r with
  | ok a => exact hf a w hr
  | error e => exact fun _ _ => hr

/-- A call in front of a program. -/
lemma call {o : S.Op} {Q : β → W → Prop} {f : S.Reply o → Fallible S ε β} (ho : P o)
    (hf : ∀ w₁ r, Relation.ReflTransGen R w w₁ → M.Enabled w₁ o r →
      M.Promises R P Q E (f r) (M.next w₁ o r)) :
    M.Promises R P Q E (Fallible.sys o >>= f) w := by
  rw [Promises, Fallible.run_sys_bind]
  exact fun w₁ hR => ⟨ho, fun r hr => hf w₁ r hR hr⟩

lemma pure {a : α} (h : ∀ w₁, Relation.ReflTransGen R w w₁ → Q a w₁) :
    M.Promises R P Q E (pure a : Fallible S ε α) w := h

lemma throw {e : ε} (h : E e) : M.Promises R P Q E (throw e : Fallible S ε α) w := fun _ _ => h

lemma mono {Q' : α → W → Prop} {E' : ε → Prop} (hQ : ∀ a w, Q a w → Q' a w)
    (hE : ∀ e, E e → E' e) (hx : M.Promises R P Q E x w) : M.Promises R P Q' E' x w := by
  refine Assures.mono (fun r w hr => ?_) hx
  cases r with
  | ok a => exact hQ a w hr
  | error e => exact hE e hr

/-- What is promised holds of every execution. -/
lemma exec {tr : List S.Event} {out : Option (Except ε α)} (hx : M.Promises R P Q E x w)
    (h : Exec M R x.run w tr out w') :
    (∀ e ∈ tr, P e.1) ∧ (∀ a, out = some (.ok a) → Q a w') ∧ ∀ e, out = some (.error e) → E e := by
  obtain ⟨hcalls, hres⟩ := Assures.exec hx h
  exact ⟨hcalls, fun a ha => hres _ ha, fun e he => hres _ he⟩

end Promises

end Machine

end Effects
