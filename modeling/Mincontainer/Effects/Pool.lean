import Mincontainer.Effects.Monitor

set_option relaxedAutoImplicit false
set_option autoImplicit false

/-!
# Programs side by side

A pool of programs that run in one world, each for somebody: its label. One step lets one of them
perform its next call; between two steps a program may join or leave, which is what starting, ending
and being killed look like, and the environment may change the world. What a call does may depend on
the label, so that the world can keep account of who did what.

## Main definitions

* `Effects.Machine.noting`, `Effects.Machine.guarded` — a machine that keeps account of its calls, and
  one that is watched while its calls are of some kind.
* `Effects.Pool` — a world with labelled programs in it.
* `Effects.Pool.Step`, `Effects.Pool.Reach` — one step, and the pools that are reached.
* `Effects.Pool.Fits` — each program relies on what its label promises.

## Main results

* `Effects.Pool.Reach.fits` — the programs of a pool that is reached fit.
* `Effects.Pool.Reach.invariant` — what each call of a fitting program preserves holds in every pool
  that is reached; `Effects.Pool.Reach.relying` — also where the programs rely on it.
* `Effects.Pool.reach_of_exec`, `Effects.Pool.reach_call` — an undisturbed execution of one member.
-/

namespace Effects

variable {S : Signature} {Λ W G : Type}

/-! ### Accounts and guards -/

/-- The machine that keeps account of its calls. -/
def Machine.noting (M : Machine S W) (note : S.Event → G → G) : Machine S (W × G) where
  Enabled w o r := M.Enabled w.1 o r
  next w o r := (M.next w.1 o r, note ⟨o, r⟩ w.2)

/-- The machine while each call and its reply are as `A` allows in the world before it. -/
def Machine.guarded (M : Machine S W) (A : W → S.Event → Prop) : Machine S W where
  Enabled w o r := M.Enabled w o r ∧ A w ⟨o, r⟩
  next := M.next

instance {M : Machine S W} {A : W → S.Event → Prop} [∀ w o r, Decidable (M.Enabled w o r)]
    [∀ w e, Decidable (A w e)] : ∀ w o r, Decidable ((M.guarded A).Enabled w o r) := fun w o r =>
  inferInstanceAs (Decidable (M.Enabled w o r ∧ A w ⟨o, r⟩))

/-- Keeping account does not get in the way of an execution. -/
lemma Exec.noting {α : Type} {M : Machine S W} {note : S.Event → G → G} {x : Program S α} {w w' : W}
    {tr : List S.Event} {out : Option α} (h : Exec M quiet x w tr out w') (g : G) :
    Exec (M.noting note) quiet x (w, g) tr out (w', tr.foldl (fun g e => note e g) g) := by
  induction h generalizing g with
  | cut x w => exact .cut x _
  | ret a w => exact .ret a _
  | call hr _ ih => exact .call (M := M.noting note) hr (ih _)
  | env hR _ _ => exact hR.elim

/-- An execution in which each call is as `A` allows is not in the way of the guard. -/
lemma Exec.guarded {α : Type} {M : Machine S W} {R : W → W → Prop} {A : W → S.Event → Prop}
    {x : Program S α} {w w' : W} {tr : List S.Event} {out : Option α} (h : Exec M R x w tr out w')
    (hA : ∀ w, ∀ e ∈ tr, A w e) : Exec (M.guarded A) R x w tr out w' := by
  induction h with
  | cut x w => exact .cut x w
  | ret a w => exact .ret a w
  | call hr _ ih =>
    exact .call ⟨hr, hA _ _ List.mem_cons_self⟩ (ih fun w e he => hA w e (List.mem_cons_of_mem _ he))
  | env hR _ ih => exact .env hR (ih hA)

/-- An execution under guard is one without it. -/
lemma Exec.unguarded {α : Type} {M : Machine S W} {R : W → W → Prop} {A : W → S.Event → Prop}
    {x : Program S α} {w w' : W} {tr : List S.Event} {out : Option α}
    (h : Exec (M.guarded A) R x w tr out w') : Exec M R x w tr out w' :=
  Exec.simulate (M := M.guarded A) id (fun _ _ _ hr => ⟨hr.1, rfl⟩) (fun _ _ hR => .inr hR) h

/-! ### Pools -/

/-- A world with labelled programs running in it. -/
structure Pool (S : Signature) (Λ W : Type) where
  world : W
  members : List (Λ × Program S Unit)

namespace Pool

/-- One step of a pool. It is told which call of whom it was, unless it was no call. -/
inductive Step (M : Λ → Machine S W) (F : Λ → Program S Unit → Prop) (R : W → W → Prop) :
    Pool S Λ W → Option (Λ × S.Event) → Pool S Λ W → Prop
  /-- A program joins. -/
  | join {w : W} {ms : List (Λ × Program S Unit)} {l : Λ} {p : Program S Unit} (hp : F l p) :
      Step M F R ⟨w, ms⟩ none ⟨w, (l, p) :: ms⟩
  /-- A member performs its next call. -/
  | call {w : W} {ms ms' : List (Λ × Program S Unit)} {l : Λ} {o : S.Op}
      {k : S.Reply o → Program S Unit} {r : S.Reply o} (hr : (M l).Enabled w o r) :
      Step M F R ⟨w, ms ++ (l, .call o k) :: ms'⟩ (some (l, ⟨o, r⟩))
        ⟨(M l).next w o r, ms ++ (l, k r) :: ms'⟩
  /-- A member is gone. -/
  | leave {w : W} {ms ms' : List (Λ × Program S Unit)} {m : Λ × Program S Unit} :
      Step M F R ⟨w, ms ++ m :: ms'⟩ none ⟨w, ms ++ ms'⟩
  /-- The environment moves. -/
  | env {w w' : W} {ms : List (Λ × Program S Unit)} (hR : R w w') :
      Step M F R ⟨w, ms⟩ none ⟨w', ms⟩

/-- The pools that are reached by steps. -/
abbrev Reach (M : Λ → Machine S W) (F : Λ → Program S Unit → Prop) (R : W → W → Prop) :
    Pool S Λ W → Pool S Λ W → Prop :=
  Relation.ReflTransGen fun p q => ∃ a, Step M F R p a q

/-- Each member makes the calls `P` of its label as long as the replies are those `G` of its label. -/
def Fits (G : Λ → S.Event → Prop) (P : Λ → S.Op → Prop) (p : Pool S Λ W) : Prop :=
  ∀ m ∈ p.members, m.2.Relies (G m.1) (P m.1) fun _ => True

variable {M : Λ → Machine S W} {F : Λ → Program S Unit → Prop} {R : W → W → Prop}
  {G : Λ → S.Event → Prop} {P : Λ → S.Op → Prop} {I : W → Prop} {p q : Pool S Λ W}

/-- Nobody has to fit in a pool without members. -/
lemma Fits.nil (w : W) : Fits G P (⟨w, []⟩ : Pool S Λ W) := fun _ hm => absurd hm List.not_mem_nil

/-- A call of a fitting member is one that its label allows, and the members still fit. -/
lemma Step.call_inv {l : Λ} {e : S.Event} (hfit : Fits G P p) (h : Step M F R p (some (l, e)) q) :
    P l e.1 ∧ (M l).Enabled p.world e.1 e.2 ∧ q.world = (M l).next p.world e.1 e.2 := by
  cases h with
  | call hr => exact ⟨(hfit _ (List.mem_append_right _ List.mem_cons_self)).1, hr, rfl⟩

/-- Fitting is kept. -/
lemma Step.fits {a : Option (Λ × S.Event)}
    (hF : ∀ l p, F l p → p.Relies (G l) (P l) fun _ => True)
    (hG : ∀ l w o r, (M l).Enabled w o r → G l ⟨o, r⟩) (hfit : Fits G P p)
    (h : Step M F R p a q) : Fits G P q := by
  cases h with
  | join hp => exact List.forall_mem_cons.mpr ⟨hF _ _ hp, hfit⟩
  | @call w ms ms' l o k r hr =>
    obtain ⟨hms, hms'⟩ := List.forall_mem_append.mp hfit
    obtain ⟨hcall, hms'⟩ := List.forall_mem_cons.mp hms'
    exact List.forall_mem_append.mpr
      ⟨hms, List.forall_mem_cons.mpr ⟨hcall.2 r (hG l w o r hr), hms'⟩⟩
  | leave =>
    obtain ⟨hms, hms'⟩ := List.forall_mem_append.mp hfit
    exact List.forall_mem_append.mpr ⟨hms, (List.forall_mem_cons.mp hms').2⟩
  | env hR => exact hfit

lemma Reach.fits (hF : ∀ l p, F l p → p.Relies (G l) (P l) fun _ => True)
    (hG : ∀ l w o r, (M l).Enabled w o r → G l ⟨o, r⟩) (hfit : Fits G P p) (h : Reach M F R p q) :
    Fits G P q := by
  induction h with
  | refl => exact hfit
  | tail _ hstep ih =>
    obtain ⟨a, hstep⟩ := hstep
    exact hstep.fits hF hG ih

/-- **Invariants of a pool.** What the allowed calls of each label preserve, and the environment
preserves, holds in every pool that is reached.

**Proof sketch.** Induction on the steps. A call is one that its label allows because the members of
every pool that is reached fit; joining and leaving do not touch the world. -/
lemma Reach.invariant (hF : ∀ l p, F l p → p.Relies (G l) (P l) fun _ => True)
    (hG : ∀ l w o r, (M l).Enabled w o r → G l ⟨o, r⟩)
    (hcall : ∀ l w o r, P l o → (M l).Enabled w o r → I w → I ((M l).next w o r))
    (henv : ∀ w w', R w w' → I w → I w') (hfit : Fits G P p) (hI : I p.world)
    (h : Reach M F R p q) : I q.world := by
  induction h with
  | refl => exact hI
  | @tail q q' hpq hstep ih =>
    obtain ⟨a, hstep⟩ := hstep
    have hq := Reach.fits hF hG hfit hpq
    cases hstep with
    | join hp => exact ih
    | @call w ms ms' l o k r hr =>
      exact hcall l w o r (hq _ (List.mem_append_right _ List.mem_cons_self)).1 hr ih
    | leave => exact ih
    | env hR => exact henv _ _ hR ih

/-- **Invariants that are relied on.** Where the replies are those that the members rely on as long as
the invariant holds, the members of every pool that is reached fit, and the invariant holds. -/
lemma Reach.relying (hF : ∀ l p, F l p → p.Relies (G l) (P l) fun _ => True)
    (hG : ∀ l w o r, I w → (M l).Enabled w o r → G l ⟨o, r⟩)
    (hcall : ∀ l w o r, P l o → (M l).Enabled w o r → I w → I ((M l).next w o r))
    (henv : ∀ w w', R w w' → I w → I w') (hfit : Fits G P p) (hI : I p.world)
    (h : Reach M F R p q) : Fits G P q ∧ I q.world := by
  induction h with
  | refl => exact ⟨hfit, hI⟩
  | @tail q q' _ hstep ih =>
    obtain ⟨hq, hw⟩ := ih
    obtain ⟨a, hstep⟩ := hstep
    cases hstep with
    | join hp => exact ⟨List.forall_mem_cons.mpr ⟨hF _ _ hp, hq⟩, hw⟩
    | @call w ms ms' l o k r hr =>
      obtain ⟨hms, hms'⟩ := List.forall_mem_append.mp hq
      obtain ⟨hmember, hms'⟩ := List.forall_mem_cons.mp hms'
      exact ⟨List.forall_mem_append.mpr
        ⟨hms, List.forall_mem_cons.mpr ⟨hmember.2 r (hG l w o r hw hr), hms'⟩⟩,
        hcall l w o r hmember.1 hr hw⟩
    | leave =>
      obtain ⟨hms, hms'⟩ := List.forall_mem_append.mp hq
      exact ⟨List.forall_mem_append.mpr ⟨hms, (List.forall_mem_cons.mp hms').2⟩, hw⟩
    | env hR => exact ⟨hq, henv _ _ hR hw⟩

/-- The member in front performs its next call. -/
lemma Step.call_head {w : W} {ms : List (Λ × Program S Unit)} {l : Λ} {o : S.Op}
    {k : S.Reply o → Program S Unit} {r : S.Reply o} (hr : (M l).Enabled w o r) :
    Step M F R ⟨w, (l, .call o k) :: ms⟩ (some (l, ⟨o, r⟩)) ⟨(M l).next w o r, (l, k r) :: ms⟩ :=
  show Step M F R ⟨w, [] ++ (l, .call o k) :: ms⟩ (some (l, ⟨o, r⟩))
    ⟨(M l).next w o r, [] ++ (l, k r) :: ms⟩ from .call hr

/-- An undisturbed execution of a member that has just joined. -/
lemma reach_of_exec {l : Λ} {x : Program S Unit} {w w' : W} {tr : List S.Event} {out : Option Unit}
    (ms : List (Λ × Program S Unit)) (h : Exec (M l) quiet x w tr out w') :
    ∃ y, Reach M F R ⟨w, (l, x) :: ms⟩ ⟨w', (l, y) :: ms⟩ := by
  induction h with
  | cut x w => exact ⟨x, .refl⟩
  | ret a w => exact ⟨_, .refl⟩
  | call hr _ ih =>
    obtain ⟨y, hy⟩ := ih
    exact ⟨y, .head ⟨_, Step.call_head hr⟩ hy⟩
  | env hR _ _ => exact hR.elim

/-- Someone joins, and is executed undisturbed. -/
lemma Reach.join_exec {l : Λ} {x : Program S Unit} {w w' : W} {ms : List (Λ × Program S Unit)}
    {tr : List S.Event} {out : Option Unit} (h : Reach M F R p ⟨w, ms⟩) (hx : F l x)
    (hrun : Exec (M l) quiet x w tr out w') : ∃ y, Reach M F R p ⟨w', (l, y) :: ms⟩ := by
  obtain ⟨y, hy⟩ := reach_of_exec (F := F) (R := R) ms hrun
  exact ⟨y, (h.tail ⟨none, .join hx⟩).trans hy⟩

/-- An undisturbed execution of a member up to one of its calls. -/
lemma reach_call {l : Λ} {x : Program S Unit} {w w' : W} {tr : List S.Event} {out : Option Unit}
    {e : S.Event} (ms : List (Λ × Program S Unit)) (h : Exec (M l) quiet x w tr out w')
    (he : e ∈ tr) : ∃ w₁ k, Reach M F R ⟨w, (l, x) :: ms⟩ ⟨w₁, (l, .call e.1 k) :: ms⟩ ∧
      (M l).Enabled w₁ e.1 e.2 := by
  induction h with
  | cut x w => cases he
  | ret a w => cases he
  | @call o k w w' r tr out hr _ ih =>
    rcases List.mem_cons.mp he with rfl | he
    · exact ⟨w, k, .refl, hr⟩
    · obtain ⟨w₁, k', hy, hr'⟩ := ih he
      exact ⟨w₁, k', .head ⟨_, Step.call_head hr⟩ hy, hr'⟩
  | env hR _ _ => exact hR.elim

end Pool

end Effects
