import Mincontainer.Effects.Exec

set_option relaxedAutoImplicit false
set_option autoImplicit false

/-!
# Monitors and histories

A monitor follows a program from call to call: its state says which call may come next, and moves on
with each reply. An invariant may then speak of the world and of where the program is.

A history is a sequence of programs, each run to its end or cut, one after the other in one world.

## Main definitions

* `Effects.Program.Conforms` — a program under a monitor.
* `Effects.Program.Relies` — what a program calls as long as the replies are good.
* `Effects.History` — the worlds that are reached by running programs of a family one after the
  other.

## Main results

* `Effects.Program.Conforms.bind` — monitored programs in sequence.
* `Effects.Exec.of_relies` — what a program relies on, its executions call.
* `Effects.History.invariant` — what each program keeps, a history keeps.
* `Effects.Machine.replay_history` — what `replay` computes is a history.
-/

namespace Effects

/-! ### Monitored programs -/

namespace Program

variable {S : Signature} {α β G : Type}

/-- Each call the program makes is allowed in the monitor's state, which moves on with the reply;
`Q` holds of the state in which it returns. -/
def Conforms (allowed : G → S.Op → Prop) (move : G → (o : S.Op) → S.Reply o → G) (Q : G → α → Prop) :
    Program S α → G → Prop
  | ret a, g => Q g a
  | call o k, g => allowed g o ∧ ∀ r, Conforms allowed move Q (k r) (move g o r)

variable {allowed : G → S.Op → Prop} {move : G → (o : S.Op) → S.Reply o → G} {Q : G → α → Prop}
  {Q' : G → β → Prop} {g : G}

lemma conforms_ret {a : α} (h : Q g a) : (ret a : Program S α).Conforms allowed move Q g := h

/-- The second program starts in the state in which the first returns. -/
lemma Conforms.bind {p : Program S α} {f : α → Program S β} (hp : p.Conforms allowed move Q g)
    (hf : ∀ g a, Q g a → (f a).Conforms allowed move Q' g) :
    (p >>= f).Conforms allowed move Q' g := by
  induction p generalizing g with
  | ret a => exact hf g a hp
  | call o k ih => exact ⟨hp.1, fun r => ih r (hp.2 r)⟩

/-- What a monitored program returns, whatever the monitor says at its end. -/
lemma Conforms.obeys {P : α → Prop} {p : Program S α} (hp : p.Conforms allowed move (fun _ => P) g) :
    p.Obeys (fun _ => True) P := by
  induction p generalizing g with
  | ret a => exact hp
  | call o k ih => exact ⟨trivial, fun r => ih r (hp.2 r)⟩

end Program

/-- A fallible step in front: its error ends the function in a state of which `Q` holds. -/
lemma Fallible.conforms_bind {S : Signature} {ε α β G : Type} {allowed : G → S.Op → Prop}
    {move : G → (o : S.Op) → S.Reply o → G} {P : G → Except ε α → Prop} {Q : G → Except ε β → Prop}
    {g : G} {x : Fallible S ε α} {f : α → Fallible S ε β}
    (hx : Program.Conforms allowed move P x.run g)
    (hf : ∀ g a, P g (.ok a) → Program.Conforms allowed move Q (f a).run g)
    (herr : ∀ g e, P g (.error e) → Q g (.error e)) :
    Program.Conforms allowed move Q (x >>= f).run g := by
  rw [Fallible.run_bind]
  refine Program.Conforms.bind hx fun g r hr => ?_
  cases r with
  | ok a => exact hf g a hr
  | error e => exact herr g e hr

/-! ### Programs that rely on replies -/

namespace Program

variable {S : Signature} {α β : Type} {G : S.Event → Prop} {P : S.Op → Prop} {Q : α → Prop}

/-- As long as all replies are `G`, every call the program makes satisfies `P`, and a value it
returns satisfies `Q`. -/
def Relies (G : S.Event → Prop) (P : S.Op → Prop) (Q : α → Prop) : Program S α → Prop
  | ret a => Q a
  | call o k => P o ∧ ∀ r, G ⟨o, r⟩ → Relies G P Q (k r)

lemma Obeys.relies {p : Program S α} (h : p.Obeys P Q) : p.Relies G P Q := by
  induction p with
  | ret a => exact h
  | call o k ih => exact ⟨h.1, fun r _ => ih r (h.2 r)⟩

lemma Relies.bind {Q' : β → Prop} {p : Program S α} {f : α → Program S β} (hp : p.Relies G P Q)
    (hf : ∀ a, Q a → (f a).Relies G P Q') : (p >>= f).Relies G P Q' := by
  induction p with
  | ret a => exact hf a hp
  | call o k ih => exact ⟨hp.1, fun r hr => ih r (hp.2 r hr)⟩

lemma Relies.mono {P' : S.Op → Prop} {Q' : α → Prop} (hP : ∀ o, P o → P' o)
    (hQ : ∀ a, Q a → Q' a) {p : Program S α} (h : p.Relies G P Q) : p.Relies G P' Q' := by
  induction p with
  | ret a => exact hQ a h
  | call o k ih => exact ⟨hP o h.1, fun r hr => ih r (h.2 r hr)⟩

end Program

namespace Fallible

variable {S : Signature} {ε α β : Type} {G : S.Event → Prop} {P : S.Op → Prop} {Q : α → Prop}

/-- As long as all replies are `G`, every call satisfies `P`, and a value that is returned satisfies
`Q`. -/
def Relies (G : S.Event → Prop) (P : S.Op → Prop) (Q : α → Prop) (x : Fallible S ε α) : Prop :=
  Program.Relies G P (fun r => ∀ a, r = .ok a → Q a) x.run

/-- The code after a `?` may rely on what the step before it ensures. -/
lemma Relies.bind {Q' : β → Prop} {x : Fallible S ε α} {f : α → Fallible S ε β}
    (hx : Relies G P Q x) (hf : ∀ a, Q a → Relies G P Q' (f a)) : Relies G P Q' (x >>= f) := by
  rw [Relies, run_bind]
  refine Program.Relies.bind hx fun r hr => ?_
  cases r with
  | ok a => exact hf a (hr a rfl)
  | error e => exact nofun

lemma Relies.pure {a : α} (h : Q a) : Relies G P Q (pure a : Fallible S ε α) := fun b hb => by
  cases hb
  exact h

lemma Relies.throw (e : ε) : Relies G P Q (throw e : Fallible S ε α) := nofun

lemma Relies.sys {o : S.Op} {Q : S.Reply o → Prop} (ho : P o) (hQ : ∀ r, G ⟨o, r⟩ → Q r) :
    Relies G P Q (sys o : Fallible S ε _) :=
  ⟨ho, fun r hr a ha => by cases ha; exact hQ r hr⟩

lemma Obeys.relies {x : Fallible S ε α} (h : Obeys P Q x) : Relies G P Q x :=
  Program.Obeys.relies h

lemma Relies.of_within {x : Fallible S ε α} (h : x.run.Within P) :
    Relies G P (fun _ => True) x :=
  (Obeys.of_within h).relies

lemma Relies.mono {P' : S.Op → Prop} {Q' : α → Prop} {x : Fallible S ε α} (hP : ∀ o, P o → P' o)
    (hQ : ∀ a, Q a → Q' a) (h : Relies G P Q x) : Relies G P' Q' x :=
  Program.Relies.mono hP (fun _ hr a ha => hQ a (hr a ha)) h

/-- An attempt relies on what it attempts. -/
lemma Relies.attempt {ε' : Type} {x : Fallible S ε α} (h : Relies G P Q x) :
    Relies G P (fun r => ∀ a, r = .ok a → Q a) (attempt x : Fallible S ε' _) :=
  Program.Relies.bind h fun r hr b hb => by
    cases hb
    exact hr

end Fallible

/-- The calls of an execution in which all replies are `G` satisfy `P`, and so does its result. -/
lemma Exec.of_relies {S : Signature} {W α : Type} {M : Machine S W} {R : W → W → Prop}
    {G : S.Event → Prop} {P : S.Op → Prop} {Q : α → Prop} {p : Program S α} {w w' : W}
    {tr : List S.Event} {out : Option α} (hp : p.Relies G P Q) (h : Exec M R p w tr out w')
    (hG : ∀ e ∈ tr, G e) : (∀ e ∈ tr, P e.1) ∧ ∀ a, out = some a → Q a := by
  induction h with
  | cut p w => exact ⟨List.forall_mem_nil _, nofun⟩
  | ret a w =>
    refine ⟨List.forall_mem_nil _, fun b hb => ?_⟩
    obtain rfl := Option.some.inj hb
    exact hp
  | call _ _ ih =>
    obtain ⟨hcalls, hout⟩ := ih (hp.2 _ (hG _ List.mem_cons_self))
      fun e he => hG e (List.mem_cons_of_mem _ he)
    exact ⟨List.forall_mem_cons.mpr ⟨hp.1, hcalls⟩, hout⟩
  | env _ _ ih => exact ih hp hG

/-- **Invariants that are relied on.** Where the replies are those that the program relies on as long as
the invariant holds, and its calls and the environment preserve it, the invariant holds when the
execution stops. -/
lemma Exec.relying {S : Signature} {W α : Type} {M : Machine S W} {R : W → W → Prop}
    {G : S.Event → Prop} {P : S.Op → Prop} {Q : α → Prop} {I : W → Prop} {p : Program S α} {w w' : W}
    {tr : List S.Event} {out : Option α} (hG : ∀ w o r, I w → M.Enabled w o r → G ⟨o, r⟩)
    (hcall : ∀ w o r, P o → M.Enabled w o r → I w → I (M.next w o r))
    (henv : ∀ w w₁, R w w₁ → I w → I w₁) (hp : p.Relies G P Q) (h : Exec M R p w tr out w')
    (hw : I w) : I w' ∧ ∀ a, out = some a → Q a := by
  induction h with
  | cut p w => exact ⟨hw, nofun⟩
  | ret a w =>
    refine ⟨hw, fun b hb => ?_⟩
    obtain rfl := Option.some.inj hb
    exact hp
  | call hr _ ih => exact ih (hp.2 _ (hG _ _ _ hw hr)) (hcall _ _ _ hp.1 hr hw)
  | env hR _ ih => exact ih hp (henv _ _ hR hw)

/-! ### Executions under a monitor -/

/-! ### Histories -/

/-- The worlds that are reached from `w₀` by running programs of the family `prog` one after the
other, each to its end or cut, where each run satisfies `Ok` in the world it starts in. -/
inductive History {S : Signature} {W C α : Type} (M : Machine S W) (R : W → W → Prop)
    (prog : C → Program S α) (Ok : W → C → List S.Event → Prop) (w₀ : W) : W → Prop
  | start : History M R prog Ok w₀ w₀
  | run {w w' : W} {c : C} {tr : List S.Event} {out : Option α} (h : History M R prog Ok w₀ w)
      (hrun : Exec M R (prog c) w tr out w') (hok : Ok w c tr) : History M R prog Ok w₀ w'

/-- **Invariant rule for histories.** -/
lemma History.invariant {S : Signature} {W C α : Type} {M : Machine S W} {R : W → W → Prop}
    {prog : C → Program S α} {Ok : W → C → List S.Event → Prop} {w₀ w : W} {I : W → Prop}
    (h : History M R prog Ok w₀ w) (h₀ : I w₀)
    (hrun : ∀ w c tr out w', I w → Ok w c tr → Exec M R (prog c) w tr out w' → I w') : I w := by
  induction h with
  | start => exact h₀
  | run _ hr hok ih => exact hrun _ _ _ _ _ ih hok hr

namespace Machine

variable {S : Signature} {W C α : Type}

/-- Run programs of a family one after the other, each for at most `n` calls, with replies chosen by
the policy, as long as the runs pass a check. -/
def replay (M : Machine S W) [∀ w o r, Decidable (M.Enabled w o r)]
    (policy : ℕ → W → (o : S.Op) → Option (S.Reply o)) (n : ℕ) (prog : C → Program S α)
    (check : W → C → List S.Event → Bool) : List C → W → Option W
  | [], w => some w
  | c :: cs, w =>
    match M.drive policy n 0 (prog c) w with
    | none => none
    | some x => if check w c x.1 then M.replay policy n prog check cs x.2.2 else none

/-- What is replayed is a history. -/
lemma replay_history {M : Machine S W} [∀ w o r, Decidable (M.Enabled w o r)]
    {policy : ℕ → W → (o : S.Op) → Option (S.Reply o)} {n : ℕ} {prog : C → Program S α}
    {check : W → C → List S.Event → Bool} {R : W → W → Prop} {Ok : W → C → List S.Event → Prop}
    {w₀ w w' : W} {cs : List C} (hok : ∀ w c tr, check w c tr = true → Ok w c tr)
    (hw : History M R prog Ok w₀ w) (h : M.replay policy n prog check cs w = some w') :
    History M R prog Ok w₀ w' := by
  induction cs generalizing w with
  | nil =>
    obtain rfl := Option.some.inj h
    exact hw
  | cons c cs ih =>
    simp only [replay] at h
    split at h
    · cases h
    · rename_i x hx
      split at h
      · exact ih (hw.run (drive_exec hx).of_quiet (hok _ _ _ ‹_›)) h
      · cases h

end Machine

end Effects
