import Mincontainer.Effects.Exec

set_option relaxedAutoImplicit false
set_option autoImplicit false

/-!
# The world at a call

What holds of the world whenever a program makes a call, however the calls before it were answered and
the environment moved. A phase that makes no call of the kind in question needs no look inside; the
phases behind it start where it returned.

## Main definitions

* `Effects.Machine.AtCalls` — the assertion holds of the world and of the call, at every call.

## Main results

* `Effects.Machine.AtCalls.bind`, `Effects.Machine.AtCalls.fallible_bind` — sequences.
* `Effects.Machine.AtCalls.exec` — the assertion holds at every call of every execution.
-/

namespace Effects

namespace Machine

variable {S : Signature} {W α β ε : Type} {M : Machine S W} {R : W → W → Prop} {A : W → S.Op → Prop}

/-- From `w`, whenever the program makes a call, `A` holds of the world and of the call. -/
def AtCalls (M : Machine S W) (R : W → W → Prop) (A : W → S.Op → Prop) : Program S α → W → Prop
  | .ret _, _ => True
  | .call o k, w => ∀ w₁, Relation.ReflTransGen R w w₁ →
      A w₁ o ∧ ∀ r, M.Enabled w₁ o r → M.AtCalls R A (k r) (M.next w₁ o r)

namespace AtCalls

variable {p : Program S α} {w w' w₁ : W}

/-- The environment may move first. -/
lemma env (h : M.AtCalls R A p w) (hR : Relation.ReflTransGen R w w₁) : M.AtCalls R A p w₁ := by
  cases p with
  | ret a => exact trivial
  | call o k => exact fun w₂ h₂ => h w₂ (hR.trans h₂)

/-- The second program starts in a world in which the first returned. -/
lemma bind {f : α → Program S β} (hp : M.AtCalls R A p w)
    (hf : ∀ a tr w', Exec M R p w tr (some a) w' → M.AtCalls R A (f a) w') :
    M.AtCalls R A (p >>= f) w := by
  induction p generalizing w with
  | ret a => exact hf a [] w (.ret a w)
  | call o k ih =>
    intro w₁ hR
    obtain ⟨ho, hk⟩ := hp w₁ hR
    refine ⟨ho, fun r hr => ih r (hk r hr) fun a tr w' hrun => ?_⟩
    exact hf a (⟨o, r⟩ :: tr) w' ((Exec.call hr hrun).env_star hR)

/-- The code after a `?` starts in a world in which the step before it succeeded. -/
lemma fallible_bind {x : Fallible S ε α} {f : α → Fallible S ε β} (hx : M.AtCalls R A x.run w)
    (hf : ∀ a tr w', Exec M R x.run w tr (some (.ok a)) w' → M.AtCalls R A (f a).run w') :
    M.AtCalls R A (x >>= f).run w := by
  rw [Fallible.run_bind]
  refine bind hx fun r tr w' hrun => ?_
  cases r with
  | ok a => exact hf a tr w' hrun
  | error e => exact trivial

/-- A single call. -/
lemma sys {o : S.Op} (ho : ∀ w₁, Relation.ReflTransGen R w w₁ → A w₁ o) :
    M.AtCalls R A (Fallible.sys o : Fallible S ε _).run w :=
  fun w₁ hR => ⟨ho w₁ hR, fun _ _ => trivial⟩

/-- Programs that make no other calls need no look inside. -/
lemma of_within {P : S.Op → Prop} (hp : p.Within P) (hA : ∀ w o, P o → A w o) :
    M.AtCalls R A p w := by
  induction p generalizing w with
  | ret a => exact trivial
  | call o k ih => exact fun w₁ _ => ⟨hA w₁ o hp.1, fun r _ => ih r (hp.2 r)⟩

/-- What holds at the calls of a program holds at every call of an execution: the execution up to the
call leaves a world in which it can be answered so, and of which the assertion holds.

**Proof sketch.** Induction on the execution. -/
lemma exec {tr tr₁ tr₂ : List S.Event} {e : S.Event} {out : Option α} (hp : M.AtCalls R A p w)
    (h : Exec M R p w tr out w') (htr : tr = tr₁ ++ e :: tr₂) :
    ∃ g, Exec M R p w tr₁ none g ∧ M.Enabled g e.1 e.2 ∧ A g e.1 := by
  induction h generalizing tr₁ with
  | cut p w => exact absurd htr.symm (by simp)
  | ret a w => exact absurd htr.symm (by simp)
  | @call o k w w' r tr out hr _ ih =>
    obtain ⟨ho, hk⟩ := hp w .refl
    cases tr₁ with
    | nil =>
      obtain ⟨rfl, -⟩ := List.cons.inj htr
      exact ⟨w, .cut _ _, hr, ho⟩
    | cons e' tr₁ =>
      obtain ⟨rfl, hrest⟩ := List.cons.inj htr
      obtain ⟨g, hrun, hen, hA⟩ := ih (hk r hr) hrest
      exact ⟨g, .call hr hrun, hen, hA⟩
  | env hR _ ih =>
    obtain ⟨g, hrun, hen, hA⟩ := ih (hp.env (.single hR)) htr
    exact ⟨g, .env hR hrun, hen, hA⟩

end AtCalls

end Machine

end Effects
