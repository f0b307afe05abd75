import Mincontainer.Effects.Monitor

set_option relaxedAutoImplicit false
set_option autoImplicit false

/-!
# Programs in the background

A world in which, next to the program that is executed, other programs run: each performs its calls in
its own order, and between any two calls of one the others may perform any number of theirs. A call
may start another one.

## Main definitions

* `Effects.Crowd` — a world with programs running in it.
* `Effects.Machine.crowd` — a machine in such a world.
* `Effects.Crowd.Moves` — the environment that consists of the other programs, and of the environment
  of the world.
* `Effects.Beside` — the environment in which calls of one kind are made besides.

## Main results

* `Effects.Exec.crowd_project` — an execution in a crowd is one in its world, where the calls of the
  others are steps of the environment.
-/

namespace Effects

variable {S : Signature} {W α β : Type}

/-- A world with programs running in it. -/
structure Crowd (S : Signature) (W α : Type) where
  world : W
  others : List (Program S α)

/-- The machine `M` in a crowd; an event may start another program. -/
def Machine.crowd (M : Machine S W) (spawn : S.Event → Option (Program S α)) :
    Machine S (Crowd S W α) where
  Enabled w o r := M.Enabled w.world o r
  next w o r := ⟨M.next w.world o r, (spawn ⟨o, r⟩).toList ++ w.others⟩

instance {M : Machine S W} [h : ∀ w o r, Decidable (M.Enabled w o r)]
    {spawn : S.Event → Option (Program S α)} : ∀ w o r, Decidable ((M.crowd spawn).Enabled w o r) :=
  fun w o r => h w.world o r

namespace Crowd

/-- What may happen between two calls of the program that is executed: a step of the environment `R`
of the world, or one call of another program. -/
inductive Moves (M : Machine S W) (spawn : S.Event → Option (Program S α)) (R : W → W → Prop) :
    Crowd S W α → Crowd S W α → Prop
  | env {w : W} {ps : List (Program S α)} {w' : W} (h : R w w') : Moves M spawn R ⟨w, ps⟩ ⟨w', ps⟩
  | call {w : W} {ps qs : List (Program S α)} {o : S.Op} {k : S.Reply o → Program S α}
      {r : S.Reply o} (h : M.Enabled w o r) :
      Moves M spawn R ⟨w, ps ++ .call o k :: qs⟩
        ⟨M.next w o r, (spawn ⟨o, r⟩).toList ++ (ps ++ k r :: qs)⟩

end Crowd

variable {M : Machine S W} {spawn : S.Event → Option (Program S α)} {R : W → W → Prop}

/-- A step of the environment, or a call of the kind `C`. -/
def Beside (M : Machine S W) (R : W → W → Prop) (C : S.Op → Prop) (a b : W) : Prop :=
  R a b ∨ ∃ o r, C o ∧ M.Enabled a o r ∧ b = M.next a o r

/-- **Projection.** Where the others make calls of one kind, and whoever is started does so too, an
execution is one in the world itself, and what the others do are steps of its environment.

**Proof sketch.** Induction on the execution: the others, with whoever was started meanwhile, only have
such calls before them. -/
lemma Exec.crowd_project {C : S.Op → Prop} {p : Program S β} {w w' : Crowd S W α} {tr : List S.Event}
    {out : Option β} (hspawn : ∀ o r q, C o → spawn ⟨o, r⟩ = some q → q.Within C)
    (hw : ∀ q ∈ w.others, q.Within C) (htr : ∀ e ∈ tr, ∀ q, spawn e = some q → q.Within C)
    (h : Exec (M.crowd spawn) (Crowd.Moves M spawn R) p w tr out w') :
    Exec M (Beside M R C) p w.world tr out w'.world ∧ ∀ q ∈ w'.others, q.Within C := by
  induction h with
  | cut p w => exact ⟨.cut p _, hw⟩
  | ret a w => exact ⟨.ret a _, hw⟩
  | @call o k w w' r tr out hr _ ih =>
    have hnext : ∀ q ∈ ((M.crowd spawn).next w o r).others, q.Within C := fun q hq => by
      rcases List.mem_append.mp hq with hnew | hold
      · exact htr _ List.mem_cons_self q (Option.mem_toList.mp hnew)
      · exact hw q hold
    obtain ⟨h₁, h₂⟩ := ih hnext fun e he => htr e (List.mem_cons_of_mem _ he)
    exact ⟨.call hr h₁, h₂⟩
  | env hm _ ih =>
    cases hm with
    | env hR =>
      obtain ⟨h₁, h₂⟩ := ih hw htr
      exact ⟨.env (.inl hR) h₁, h₂⟩
    | @call w ps qs o k r hr =>
      have hcaller := hw (.call o k) (List.mem_append_right _ List.mem_cons_self)
      have hnext : ∀ q ∈ (spawn ⟨o, r⟩).toList ++ (ps ++ k r :: qs), q.Within C := fun q hq => by
        simp only [List.mem_append, List.mem_cons] at hq
        rcases hq with hnew | hleft | rfl | hright
        · exact hspawn o r q hcaller.1 (Option.mem_toList.mp hnew)
        · exact hw q (List.mem_append_left _ hleft)
        · exact hcaller.2 r
        · exact hw q (List.mem_append_right _ (List.mem_cons_of_mem _ hright))
      obtain ⟨h₁, h₂⟩ := ih hnext htr
      exact ⟨.env (.inr ⟨o, r, hcaller.1, hr, rfl⟩) h₁, h₂⟩

end Effects
