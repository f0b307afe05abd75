import Mincontainer.Container.Parts

set_option relaxedAutoImplicit false
set_option autoImplicit false

/-!
# The exit code of a container

The parent does not wait for the container but for the middle process, which waits for the container and
exits with its code. In between each of the three can fail or be killed at any time.

That a wait is answered with the status of the process holds where the signal of ended children is not
ignored, which is how a process starts.

## Main definitions

* `Mincontainer.Spawn.Kin` — who is there, and in which part.
* `Mincontainer.Spawn.Fits` — how the parts, the calls and the endings so far fit together.

## Main results

* `Mincontainer.Spawn.shown_of_account` — they fit together in every account.
* `Mincontainer.Spawn.wait_answered` — the code that the parent is answered is that of the container.
* `Mincontainer.Spawn.never_stuck` — the processes do not all wait.
-/

namespace Mincontainer

open Effects Bytes Processes

namespace Spawn

/-! ### The processes, and how they ended -/

/-- Who is there, under which pid and in which part. -/
structure Kin where
  parent : Option (ℕ × Part)
  middle : Option (ℕ × Part)
  container : Option (ℕ × Part)

namespace Kin

/-- The parts, in the order of the processes: a child stands before its parent. -/
def parts (f : Kin) : List (ℕ × Part) := f.container.toList ++ f.middle.toList ++ f.parent.toList

/-- One part is the container's, the middle process's or the parent's. -/
lemma parts_split {f : Kin} {l₁ l₂ : List (ℕ × Part)} {x : ℕ × Part} (hs : f.parts = l₁ ++ x :: l₂) :
    (f.container = some x ∧ l₁ = [] ∧ l₂ = f.middle.toList ++ f.parent.toList) ∨
    (f.middle = some x ∧ l₁ = f.container.toList ∧ l₂ = f.parent.toList) ∨
    (f.parent = some x ∧ l₁ = f.container.toList ++ f.middle.toList ∧ l₂ = []) := by
  obtain ⟨p, m, c⟩ := f
  rcases p with _ | p <;> rcases m with _ | m <;> rcases c with _ | c <;>
    rcases l₁ with _ | ⟨a, _ | ⟨b, _ | ⟨d, l₁⟩⟩⟩ <;> simp_all [parts]

lemma mem_parts {f : Kin} {x : ℕ × Part} :
    x ∈ f.parts ↔ f.container = some x ∨ f.middle = some x ∨ f.parent = some x := by
  simp [parts]

/-- Who is left when the process `pid` is gone. -/
def without (f : Kin) (pid : ℕ) : Kin where
  parent := f.parent.filter fun x => x.1 ≠ pid
  middle := f.middle.filter fun x => x.1 ≠ pid
  container := f.container.filter fun x => x.1 ≠ pid

lemma parts_without (f : Kin) (pid : ℕ) :
    (f.without pid).parts = f.parts.filter fun x => x.1 ≠ pid := by
  have htoList : ∀ x : Option (ℕ × Part), (x.filter fun x => x.1 ≠ pid).toList =
      x.toList.filter fun x => x.1 ≠ pid := by
    intro x
    cases x with
    | none => rfl
    | some x => by_cases hx : x.1 = pid <;> simp [hx]
  simp only [parts, without, htoList, List.filter_append]

end Kin

/-- One process has forked the other. -/
def Forks (tr : Calls) (p c : ℕ) : Prop := (p, (⟨.fork, Forked.parent c⟩ : SpawnSig.Event)) ∈ tr

/-- The process is gone, and ended so. -/
def Dead (live : List ℕ) (ends : List (ℕ × Ending)) (pid : ℕ) (e : Ending) : Prop :=
  ends.lookup pid = some e ∧ pid ∉ live

/-- What the ending of the middle process `m` tells of the container: nothing when `m` was killed; else
that there was none, or how it ended. -/
def Explained (forks : ℕ → ℕ → Prop) (live : List ℕ) (ends : List (ℕ × Ending)) (m : ℕ) : Ending → Prop
  | .signaled _ => True
  | .exited code => (code = 127 ∧ ∀ c, ¬ forks m c) ∨
      ∃ c e, forks m c ∧ Dead live ends c e ∧ exitCode (.exited code) = exitCode e

/-- The middle process `m` is gone, and so is the container if `m` was not killed. -/
structure Buried (forks : ℕ → ℕ → Prop) (live : List ℕ) (ends : List (ℕ × Ending)) (f : Kin) (m : ℕ)
    (e : Ending) : Prop where
  dead : Dead live ends m e
  middle : f.middle = none
  alone : ∀ code, e = .exited code → f.container = none
  explained : Explained forks live ends m e

/-- The middle process that a part of the parent is about. -/
def Part.child : Part → Option ℕ
  | .forked m | .closing m | .asking m | .knowing m | .released m => some m
  | _ => none

/-- The parent has not read the pid of the container yet. -/
def Part.Unasked : Part → Prop
  | .forked _ | .closing _ | .asking _ => True
  | _ => False

/-- The parts of the parent. -/
def Part.OfParent : Part → Prop
  | .setup _ _ | .forked _ | .closing _ | .asking _ | .knowing _ | .released _ | .done => True
  | _ => False

/-- What the part of the middle process says about the container. -/
def MiddleFits (forks : ℕ → ℕ → Prop) (live : List ℕ) (ends : List (ℕ × Ending))
    (container : Option (ℕ × Part)) (m : ℕ) : Part → Prop
  | .leaving | .sealing | .middle => container = none ∧ ∀ c, ¬ forks m c
  | .telling c | .waiting c => forks m c ∧
      ((∃ ρ, container = some (c, ρ)) ∨ container = none ∧ ∃ e, Dead live ends c e)
  | .relaying code => container = none ∧ ∃ c e, forks m c ∧ Dead live ends c e ∧ code = exitCode e
  | _ => False

/-- The parts of the container. -/
def Part.OfContainer : Part → Prop
  | .inner | .ready | .running => True
  | _ => False

/-- How the parts, the calls and the endings so far fit together. -/
structure Fits (root : ℕ) (tr : Calls) (live : List ℕ) (ends : List (ℕ × Ending)) (f : Kin)
    (buf : Pipe → List UInt8) : Prop where
  parent : ∀ x ∈ f.parent, x.1 = root ∧ x.2.OfParent
  /-- Before its fork the parent is alone. -/
  setup : ∀ pid go pidp, f.parent = some (pid, .setup go pidp) →
    f.middle = none ∧ f.container = none ∧ ∀ p c, ¬ Forks tr p c
  child : ∀ x ∈ f.parent, ∀ m ∈ x.2.child, Forks tr root m ∧
    ((∃ ρ, f.middle = some (m, ρ)) ∨ ∃ e, Buried (Forks tr) live ends f m e)
  middle : ∀ x ∈ f.middle, x.1 ≠ root ∧ MiddleFits (Forks tr) live ends f.container x.1 x.2
  container : ∀ x ∈ f.container, x.2.OfContainer
  /-- What the middle process has told is there until the parent asks. -/
  unread : ∀ x ∈ f.parent, x.2.Unasked → ∀ m c, f.middle = some (m, .waiting c) → buf .pidp ≠ []
  /-- The parent was answered how the middle process ended. -/
  waited : ∀ m code, (root, (⟨.wait m, code⟩ : SpawnSig.Event)) ∈ tr → Forks tr root m ∧
    ∃ e, Buried (Forks tr) live ends f m e ∧ code = exitCode e

section

variable {root : ℕ} {tr : Calls} {live : List ℕ} {ends : List (ℕ × Ending)} {f : Kin}
  {buf buf' : Pipe → List UInt8} {o : SpawnSig.Op} {r : SpawnSig.Reply o} {ρ ρ' : Part} {pid : ℕ}

/-- A call that forks nothing leaves the forks as they are. -/
lemma forks_quiet (ho : ∀ c, (⟨o, r⟩ : SpawnSig.Event) ≠ ⟨.fork, Forked.parent c⟩) :
    Forks (tr ++ [(pid, ⟨o, r⟩)]) = Forks tr := by
  funext p c
  apply propext
  constructor
  · intro h
    rcases List.mem_append.mp h with h | h
    · exact h
    · exact absurd (Prod.mk.inj (List.mem_singleton.mp h)).2.symm (ho c)
  · exact List.mem_append_left _

/-- A call that forks nothing, and is no wait of the parent. -/
lemma Fits.quiet (hs : Fits root tr live ends f buf)
    (ho : ∀ c, (⟨o, r⟩ : SpawnSig.Event) ≠ ⟨.fork, Forked.parent c⟩)
    (hwait : pid = root → ∀ m, o ≠ .wait m) :
    Fits root (tr ++ [(pid, ⟨o, r⟩)]) live ends f buf where
  parent := hs.parent
  setup := by
    rw [forks_quiet ho]
    exact hs.setup
  child := by
    rw [forks_quiet ho]
    exact hs.child
  middle := by
    rw [forks_quiet ho]
    exact hs.middle
  container := hs.container
  unread := hs.unread
  waited := by
    rw [forks_quiet ho]
    intro m code hmem
    apply hs.waited m code
    rcases List.mem_append.mp hmem with hmem | hmem
    · exact hmem
    · obtain ⟨hpid, hevent⟩ := Prod.mk.inj (List.mem_singleton.mp hmem)
      exact absurd (congrArg Sigma.fst hevent).symm (hwait hpid.symm m)

/-- The parent goes on to a part that knows no more. -/
lemma Fits.parent_moves (hs : Fits root tr live ends f buf) (hp : f.parent = some (pid, ρ))
    (hpart : ρ'.OfParent) (hsetup : ∀ go pidp, ρ' = .setup go pidp → ∃ go pidp, ρ = .setup go pidp)
    (hchild : ∀ m ∈ ρ'.child, m ∈ ρ.child)
    (hunread : ρ'.Unasked → ρ.Unasked ∧ buf' .pidp = buf .pidp ∨ f.middle = none) :
    Fits root tr live ends { f with parent := some (pid, ρ') } buf' where
  parent := by
    rintro _ ⟨⟩
    exact ⟨(hs.parent _ hp).1, hpart⟩
  setup := by
    rintro _ go pidp ⟨⟩
    obtain ⟨go', pidp', rfl⟩ := hsetup go pidp rfl
    exact hs.setup _ _ _ hp
  child := by
    rintro _ ⟨⟩ m hm
    obtain ⟨hforks, hm⟩ := hs.child _ hp m (hchild m hm)
    exact ⟨hforks, hm.imp id fun ⟨e, he⟩ => ⟨e, { he with }⟩⟩
  middle := hs.middle
  container := hs.container
  unread := by
    rintro _ ⟨⟩ hun m c hm
    rcases hunread hun with ⟨hun', hbuf⟩ | hnone
    · rw [hbuf]
      exact hs.unread _ hp hun' m c hm
    · cases hnone.symm.trans hm
  waited := by
    intro m code hmem
    obtain ⟨hforks, e, he, hcode⟩ := hs.waited m code hmem
    exact ⟨hforks, e, { he with }, hcode⟩

/-- The middle process goes on. -/
lemma Fits.middle_moves (hs : Fits root tr live ends f buf) (hm : f.middle = some (pid, ρ))
    (hfits : MiddleFits (Forks tr) live ends f.container pid ρ')
    (hunread : ∀ c, ρ' = .waiting c → buf' .pidp ≠ []) :
    Fits root tr live ends { f with middle := some (pid, ρ') } buf' where
  parent := hs.parent
  setup := by
    intro p go pidp hp
    cases (hs.setup p go pidp hp).1.symm.trans hm
  child := by
    intro x hx m hchild
    obtain ⟨hforks, ⟨ρ₁, hm'⟩ | ⟨e, he⟩⟩ := hs.child x hx m hchild
    · obtain rfl : pid = m := congrArg Prod.fst (Option.some.inj (hm.symm.trans hm'))
      exact ⟨hforks, .inl ⟨ρ', rfl⟩⟩
    · cases he.middle.symm.trans hm
  middle := by
    rintro _ ⟨⟩
    exact ⟨(hs.middle _ hm).1, hfits⟩
  container := hs.container
  unread := by
    rintro x hx - m c hmid
    obtain ⟨rfl, rfl⟩ := Prod.mk.inj (Option.some.inj hmid)
    exact hunread c rfl
  waited := by
    intro m code hmem
    obtain ⟨-, e, he, -⟩ := hs.waited m code hmem
    cases he.middle.symm.trans hm

/-- The container goes on. -/
lemma Fits.container_moves (hs : Fits root tr live ends f buf) (hc : f.container = some (pid, ρ))
    (hpart : ρ'.OfContainer) (hbuf : buf' .pidp = buf .pidp) :
    Fits root tr live ends { f with container := some (pid, ρ') } buf' where
  parent := hs.parent
  setup := by
    intro p go pidp hp
    cases (hs.setup p go pidp hp).2.1.symm.trans hc
  child := by
    intro x hx m hchild
    obtain ⟨hforks, hm⟩ := hs.child x hx m hchild
    refine ⟨hforks, hm.imp id fun ⟨e, he⟩ => ⟨e, { he with alone := ?_ }⟩⟩
    intro code hcode
    cases (he.alone code hcode).symm.trans hc
  middle := by
    intro x hx
    obtain ⟨hne, hmid⟩ := hs.middle x hx
    refine ⟨hne, ?_⟩
    rw [hc] at hmid
    obtain ⟨m, ρ₁⟩ := x
    cases ρ₁ with
    | telling c | waiting c =>
      obtain ⟨hforks, ⟨ρ₂, hsome⟩ | ⟨hnone, -⟩⟩ := hmid
      · obtain rfl : pid = c := congrArg Prod.fst (Option.some.inj hsome)
        exact ⟨hforks, .inl ⟨ρ', rfl⟩⟩
      · cases hnone
    | leaving | sealing | middle => cases hmid.1
    | relaying code => cases hmid.1
    | _ => exact hmid.elim
  container := by
    rintro _ ⟨⟩
    exact hpart
  unread := by
    rw [hbuf]
    exact hs.unread
  waited := by
    intro m code hmem
    obtain ⟨hforks, e, he, hcode⟩ := hs.waited m code hmem
    refine ⟨hforks, e, { he with alone := ?_ }, hcode⟩
    intro code hexit
    cases (he.alone code hexit).symm.trans hc

/-- The parent forks the middle process. -/
lemma Fits.fork_middle (hs : Fits root tr live ends f buf) {go pidp : Bool} {m : ℕ}
    (hp : f.parent = some (pid, .setup go pidp)) (hne : m ≠ pid) :
    Fits root (tr ++ [(pid, ⟨.fork, Forked.parent m⟩)]) (m :: live) ends
      { f with parent := some (pid, .forked m), middle := some (m, .leaving) } buf where
  parent := by
    rintro _ ⟨⟩
    exact ⟨(hs.parent _ hp).1, trivial⟩
  setup := by rintro _ go pidp ⟨⟩
  child := by
    rintro _ ⟨⟩ m' hm'
    obtain rfl : m = m' := Option.some.inj hm'
    obtain rfl : pid = root := (hs.parent _ hp).1
    exact ⟨by simp [Forks], .inl ⟨_, rfl⟩⟩
  middle := by
    rintro _ ⟨⟩
    obtain rfl : pid = root := (hs.parent _ hp).1
    refine ⟨hne, (hs.setup _ _ _ hp).2.1, fun c hc => ?_⟩
    rcases List.mem_append.mp hc with hc | hc
    · exact (hs.setup _ _ _ hp).2.2 _ _ hc
    · exact hne (Prod.mk.inj (List.mem_singleton.mp hc)).1
  container := hs.container
  unread := by rintro _ ⟨⟩ - m c ⟨⟩
  waited := by
    intro m' code hmem
    obtain ⟨hforks, -⟩ := hs.waited m' code (mem_of_append hmem (by simp))
    exact ((hs.setup _ _ _ hp).2.2 _ _ hforks).elim

/-- The middle process forks the container. -/
lemma Fits.fork_container (hs : Fits root tr live ends f buf) {c : ℕ}
    (hm : f.middle = some (pid, .middle)) :
    f.container = none ∧ Fits root (tr ++ [(pid, ⟨.fork, Forked.parent c⟩)]) (c :: live) ends
      { f with middle := some (pid, .telling c), container := some (c, .inner) } buf := by
  obtain ⟨hroot, hnone, -⟩ := hs.middle _ hm
  refine ⟨hnone, ?_⟩
  exact {
    parent := hs.parent
    setup := by
      intro p go pidp hp
      cases (hs.setup p go pidp hp).1.symm.trans hm
    child := by
      intro x hx m hchild
      obtain ⟨hforks, ⟨ρ₁, hm'⟩ | ⟨e, he⟩⟩ := hs.child x hx m hchild
      · obtain rfl : pid = m := congrArg Prod.fst (Option.some.inj (hm.symm.trans hm'))
        exact ⟨List.mem_append_left _ hforks, .inl ⟨_, rfl⟩⟩
      · cases he.middle.symm.trans hm
    middle := by
      rintro _ ⟨⟩
      exact ⟨hroot, by simp [Forks], .inl ⟨_, rfl⟩⟩
    container := by
      rintro _ ⟨⟩
      trivial
    unread := by rintro _ _ - m c' ⟨⟩
    waited := by
      intro m' code hmem
      obtain ⟨-, e, he, -⟩ := hs.waited m' code (mem_of_append hmem (by simp))
      cases he.middle.symm.trans hm }

/-- Who is dead stays dead when another process ends. -/
lemma Dead.end {c : ℕ} {e e' : Ending} (hd : Dead live ends c e) (hpid : pid ∈ live) :
    Dead (live.filter (· ≠ pid)) ((pid, e') :: ends) c e := by
  have hne : (c == pid) = false := by
    apply beq_eq_false_iff_ne.mpr
    rintro rfl
    exact hd.2 hpid
  refine ⟨?_, fun hmem => hd.2 (List.mem_filter.mp hmem).1⟩
  rw [List.lookup_cons, hne]
  exact hd.1

/-- A process that has ended is dead. -/
lemma dead_end (e : Ending) : Dead (live.filter (· ≠ pid)) ((pid, e) :: ends) pid e := by
  refine ⟨List.lookup_cons_self, ?_⟩
  intro hmem
  simpa using (List.mem_filter.mp hmem).2

lemma Explained.end {m : ℕ} {e e' : Ending} (he : Explained (Forks tr) live ends m e)
    (hpid : pid ∈ live) :
    Explained (Forks tr) (live.filter (· ≠ pid)) ((pid, e') :: ends) m e := by
  cases e with
  | signaled sig => trivial
  | exited code =>
    refine he.imp id ?_
    rintro ⟨c, e, hforks, hdead, hcode⟩
    exact ⟨c, e, hforks, hdead.end hpid, hcode⟩

lemma Buried.end {m : ℕ} {e e' : Ending} (hb : Buried (Forks tr) live ends f m e) (hpid : pid ∈ live) :
    Buried (Forks tr) (live.filter (· ≠ pid)) ((pid, e') :: ends) (f.without pid) m e where
  dead := hb.dead.end hpid
  middle := by
    show f.middle.filter _ = none
    rw [hb.middle]
    rfl
  alone := by
    intro code hcode
    show f.container.filter _ = none
    rw [hb.alone code hcode]
    rfl
  explained := hb.explained.end hpid

/-- A middle process that exits leaves no container, and tells how it ended. -/
lemma MiddleFits.explained {code : UInt8} (hfits : MiddleFits (Forks tr) live ends f.container pid ρ)
    (hends : ∃ c, ρ.Allowed (.exit c) ∧ code = UInt8.ofInt c) :
    f.container = none ∧ Explained (Forks tr) live ends pid (.exited code) := by
  obtain ⟨c, ha, rfl⟩ := hends
  cases ρ with
  | middle =>
    obtain rfl : c = 127 := ha
    exact ⟨hfits.1, .inl ⟨rfl, hfits.2⟩⟩
  | relaying c' =>
    obtain rfl : c = c' := ProcOp.exit.inj ha
    obtain ⟨hnone, c', e, hforks, hdead, rfl⟩ := hfits
    exact ⟨hnone, .inr ⟨c', e, hforks, hdead, exitCode_passed_on e⟩⟩
  | leaving | sealing | telling c | waiting c => cases ha
  | _ => exact hfits.elim

/-- **The end of a process.** What was known stays known, and when the middle process exits, the code
says what became of the container. -/
lemma Fits.end (hs : Fits root tr live ends f buf) {e : Ending} (hpid : pid ∈ live)
    (hmid : ∀ ρ, f.middle = some (pid, ρ) → ∀ code, e = .exited code →
      ∃ c, ρ.Allowed (.exit c) ∧ code = UInt8.ofInt c) :
    Fits root tr (live.filter (· ≠ pid)) ((pid, e) :: ends) (f.without pid) buf := by
  have hmem : ∀ {x : ℕ × Part} {y : Option (ℕ × Part)}, x ∈ y.filter (fun x => x.1 ≠ pid) →
      y = some x ∧ x.1 ≠ pid := fun hx =>
    ⟨(Option.mem_filter_iff.mp hx).1, of_decide_eq_true (Option.mem_filter_iff.mp hx).2⟩
  have hnone : ∀ {y : Option (ℕ × Part)}, y = none → y.filter (fun x => x.1 ≠ pid) = none :=
    fun h => by rw [h]; rfl
  have hgone : ∀ {c : ℕ} {ρ : Part} {y : Option (ℕ × Part)}, y = some (c, ρ) → c = pid →
      y.filter (fun x => x.1 ≠ pid) = none := by
    rintro c ρ _ rfl rfl
    simp
  have hstays : ∀ {c : ℕ} {ρ : Part} {y : Option (ℕ × Part)}, y = some (c, ρ) → c ≠ pid →
      y.filter (fun x => x.1 ≠ pid) = some (c, ρ) := by
    rintro c ρ _ rfl hne
    simp [hne]
  exact {
    parent := fun x hx => hs.parent x (hmem hx).1
    setup := fun p go pidp hp => by
      obtain ⟨hm, hc, hforks⟩ := hs.setup p go pidp (hmem hp).1
      exact ⟨hnone hm, hnone hc, hforks⟩
    child := fun x hx m hchild => by
      obtain ⟨hforks, ⟨ρ₁, hm⟩ | ⟨e', he'⟩⟩ := hs.child x (hmem hx).1 m hchild
      · refine ⟨hforks, ?_⟩
        by_cases heq : m = pid
        · subst heq
          refine .inr ⟨e, dead_end e, hgone hm rfl, fun code hcode => ?_, ?_⟩
          · exact hnone ((hs.middle _ hm).2.explained (hmid _ hm code hcode)).1
          · cases e with
            | signaled sig => trivial
            | exited code =>
              exact ((hs.middle _ hm).2.explained (hmid _ hm code rfl)).2.end hpid
        · exact .inl ⟨ρ₁, hstays hm heq⟩
      · exact ⟨hforks, .inr ⟨e', he'.end hpid⟩⟩
    middle := fun x hx => by
      obtain ⟨hne, hfits⟩ := hs.middle x (hmem hx).1
      refine ⟨hne, ?_⟩
      obtain ⟨m, ρ₁⟩ := x
      cases ρ₁ with
      | leaving | sealing | middle => exact ⟨hnone hfits.1, hfits.2⟩
      | telling c | waiting c =>
        obtain ⟨hforks, ⟨ρ₂, hc⟩ | ⟨hc, e', he'⟩⟩ := hfits
        · refine ⟨hforks, ?_⟩
          by_cases heq : c = pid
          · subst heq
            exact .inr ⟨hgone hc rfl, e, dead_end e⟩
          · exact .inl ⟨ρ₂, hstays hc heq⟩
        · exact ⟨hforks, .inr ⟨hnone hc, e', he'.end hpid⟩⟩
      | relaying code =>
        obtain ⟨hc, c, e', hforks, he', hcode⟩ := hfits
        exact ⟨hnone hc, c, e', hforks, he'.end hpid, hcode⟩
      | _ => exact hfits.elim
    container := fun x hx => hs.container x (hmem hx).1
    unread := fun x hx hun m c hm => hs.unread x (hmem hx).1 hun m c (hmem hm).1
    waited := fun m code hwait => by
      obtain ⟨hforks, e', he', hcode⟩ := hs.waited m code hwait
      exact ⟨hforks, e', he'.end hpid, hcode⟩ }

end

/-! ### The steps -/

/-- The processes of the system, each in its part. -/
structure Shown (root : ℕ) (tr : Calls) (ends : List (ℕ × Ending)) (s : System) (f : Kin) : Prop where
  played : Played Part.Allowed Part.move Part.Holds s.procs f.parts
  pids : (s.procs.map Process.pid).Nodup
  fits : Fits root tr (s.procs.map Process.pid) ends f s.buf

section Steps

variable {root : ℕ} {tr : Calls} {ends : List (ℕ × Ending)} {s : System} {f : Kin}
  {q : Process Pipe ⟨SpawnAct, fun _ => Except RuntimeError Unit⟩} {o : SpawnSig.Op}
  {r : SpawnSig.Reply o} {ρ : Part}

/-- Who is alive after a call. -/
lemma live_next {k : SpawnSig.Reply o → Program SpawnSig Unit} :
    (next spawnMachine s q o k r).procs.map Process.pid =
      (born q.fds o k r).map Process.pid ++ s.procs.map Process.pid := by
  have hsame : (s.procs.map fun q' => if q'.pid = q.pid then
      (⟨q.pid, k r, fdsAfter q.fds o r⟩ : Process Pipe ⟨SpawnAct, fun _ => Except RuntimeError Unit⟩)
      else q').map Process.pid = s.procs.map Process.pid := by
    rw [List.map_map]
    apply List.map_congr_left
    intro q' _
    by_cases h : q'.pid = q.pid
    · simp [h]
    · simp [h]
  rw [next, List.map_append, hsame]

/-- A call of the parent. -/
lemma Shown.parent_call (hs : Shown root tr ends s f) (hq : q ∈ s.procs)
    (hr : Enabled spawnMachine s q o r) (hanswer : Answers exitCode ends o r)
    (hp : f.parent = some (q.pid, ρ)) (ha : ρ.Allowed o) :
    ∃ f', f'.parts = bornRoles Part.move ρ o r ++
        (f.container.toList ++ f.middle.toList ++ [(q.pid, ρ.move o r)]) ∧
      Fits root (tr ++ [(q.pid, ⟨o, r⟩)])
        ((bornRoles Part.move ρ o r).map Prod.fst ++ s.procs.map Process.pid) ends f'
        (bufAfter s.buf q.fds o r) := by
  have hfits := hs.fits
  obtain ⟨hroot, hpart⟩ := hfits.parent _ hp
  have hstep : ∀ {ρ' : Part} {buf' : Pipe → List UInt8},
      (∀ c, (⟨o, r⟩ : SpawnSig.Event) ≠ ⟨.fork, Forked.parent c⟩) → (∀ m, o ≠ .wait m) →
      ρ'.OfParent → (∀ go pidp, ρ' = .setup go pidp → ∃ go pidp, ρ = .setup go pidp) →
      (∀ m ∈ ρ'.child, m ∈ ρ.child) →
      (ρ'.Unasked → ρ.Unasked ∧ buf' .pidp = s.buf .pidp ∨ f.middle = none) →
      ∃ f' : Kin, f'.parts = f.container.toList ++ f.middle.toList ++ [(q.pid, ρ')] ∧
        Fits root (tr ++ [(q.pid, ⟨o, r⟩)]) (s.procs.map Process.pid) ends f' buf' :=
    fun ho hw h₁ h₂ h₃ h₄ => ⟨_, rfl, (hfits.quiet ho fun _ => hw).parent_moves hp h₁ h₂ h₃ h₄⟩
  cases ρ with
  | setup go pidp =>
    have hstay : ∀ {go' pidp' go₁ pidp₁ : Bool}, Part.setup go' pidp' = .setup go₁ pidp₁ →
        ∃ go₂ pidp₂, Part.setup go pidp = .setup go₂ pidp₂ := fun _ => ⟨go, pidp, rfl⟩
    cases o with
    | pipe p =>
      cases p <;> exact hstep (by rintro _ ⟨⟩) (by rintro _ ⟨⟩) trivial (fun _ _ => hstay)
        (by rintro _ ⟨⟩) (by rintro ⟨⟩)
    | fork =>
      cases (r : Forked) with
      | child => exact hr.elim
      | parent m =>
        have hne : m ≠ q.pid := fun heq => hr.2.2 q hq heq.symm
        obtain ⟨hm, hc, -⟩ := hfits.setup _ _ _ hp
        refine ⟨_, ?_, hfits.fork_middle hp hne⟩
        simp [Kin.parts, bornRoles, Part.move, hm, hc]
      | failed =>
        exact hstep (by simp) (by rintro _ ⟨⟩) trivial (fun _ _ => hstay) (by rintro _ ⟨⟩)
          (by rintro ⟨⟩)
    | act a =>
      exact hstep (by rintro _ ⟨⟩) (by rintro _ ⟨⟩) trivial (fun _ _ => hstay)
        (by rintro _ ⟨⟩) (by rintro ⟨⟩)
    | exit _ => cases (r : Empty)
    | close _ | write _ _ | read _ _ | wait _ => exact ha.elim
  | forked m =>
    obtain rfl : o = .close goRead := ha
    exact hstep (by rintro _ ⟨⟩) (by rintro _ ⟨⟩) trivial (by rintro _ _ ⟨⟩) (fun _ h => h)
      fun _ => .inl ⟨trivial, rfl⟩
  | closing m =>
    obtain rfl : o = .close pidWrite := ha
    exact hstep (by rintro _ ⟨⟩) (by rintro _ ⟨⟩) trivial (by rintro _ _ ⟨⟩) (fun _ h => h)
      fun _ => .inl ⟨trivial, rfl⟩
  | asking m =>
    obtain rfl : o = .read pidRead 4 := ha
    exact hstep (by rintro _ ⟨⟩) (by rintro _ ⟨⟩) trivial (by rintro _ _ ⟨⟩) (fun _ h => h)
      (by rintro ⟨⟩)
  | knowing m =>
    cases o with
    | close fd =>
      by_cases hfd : fd = goWrite
      · rw [Part.move, if_pos hfd]
        exact hstep (by rintro _ ⟨⟩) (by rintro _ ⟨⟩) trivial (by rintro _ _ ⟨⟩) (fun _ h => h)
          (by rintro ⟨⟩)
      · rw [Part.move, if_neg hfd]
        exact hstep (by rintro _ ⟨⟩) (by rintro _ ⟨⟩) trivial (by rintro _ _ ⟨⟩) (fun _ h => h)
          (by rintro ⟨⟩)
    | write fd data =>
      exact hstep (by rintro _ ⟨⟩) (by rintro _ ⟨⟩) trivial (by rintro _ _ ⟨⟩)
        (fun _ h => h) (by rintro ⟨⟩)
    | act a =>
      exact hstep (by rintro _ ⟨⟩) (by rintro _ ⟨⟩) trivial (by rintro _ _ ⟨⟩)
        (fun _ h => h) (by rintro ⟨⟩)
    | exit _ => cases (r : Empty)
    | pipe _ | fork | read _ _ | wait _ => exact ha.elim
  | released m =>
    obtain rfl : o = .wait m := ha
    -- the middle process is gone, so its ending is known
    obtain ⟨hforks, ⟨ρ', hm⟩ | ⟨e, hburied⟩⟩ := hfits.child _ hp m rfl
    · obtain ⟨q', hq', hpid, -⟩ := hs.played.exists_process (Kin.mem_parts.mpr (.inr (.inl hm)))
      exact (hr q' hq' hpid).elim
    have hcode : r = exitCode e := hanswer e hburied.dead.1
    have hquiet : Forks (tr ++ [(q.pid, ⟨.wait m, r⟩)]) = Forks tr := forks_quiet (by rintro _ ⟨⟩)
    obtain rfl : q.pid = root := hroot
    refine ⟨{ f with parent := some (q.pid, .done) }, rfl, ?_⟩
    exact {
      parent := by
        rintro _ ⟨⟩
        exact ⟨rfl, trivial⟩
      setup := by rintro _ _ _ ⟨⟩
      child := by rintro _ ⟨⟩ _ ⟨⟩
      middle := by
        rw [hquiet]
        exact hfits.middle
      container := hfits.container
      unread := by rintro _ ⟨⟩ ⟨⟩
      waited := by
        rw [hquiet]
        intro m' code hmem
        rcases List.mem_append.mp hmem with hmem | hmem
        · obtain ⟨hforks', e', he', hcode'⟩ := hfits.waited m' code hmem
          exact ⟨hforks', e', { he' with }, hcode'⟩
        · obtain ⟨-, hevent⟩ := Prod.mk.inj (List.mem_singleton.mp hmem)
          obtain ⟨hop, hreply⟩ := Sigma.mk.inj hevent
          obtain rfl : m' = m := ProcOp.wait.inj hop
          obtain rfl : code = r := eq_of_heq hreply
          exact ⟨hforks, e, { hburied with }, hcode⟩ }
  | done =>
    cases o with
    | exit _ => cases (r : Empty)
    | _ => exact ha.elim
  | _ => exact hpart.elim

/-- A call of the middle process. -/
lemma Shown.middle_call (hs : Shown root tr ends s f) (hr : Enabled spawnMachine s q o r)
    (hanswer : Answers exitCode ends o r) (hm : f.middle = some (q.pid, ρ)) (ha : ρ.Allowed o)
    (hh : ρ.Holds q.fds) :
    ∃ f', f'.parts = bornRoles Part.move ρ o r ++
        (f.container.toList ++ (q.pid, ρ.move o r) :: f.parent.toList) ∧
      Fits root (tr ++ [(q.pid, ⟨o, r⟩)])
        ((bornRoles Part.move ρ o r).map Prod.fst ++ s.procs.map Process.pid) ends f'
        (bufAfter s.buf q.fds o r) := by
  have hfits := hs.fits
  obtain ⟨hroot, hmid⟩ := hfits.middle _ hm
  have hstep : ∀ {ρ' : Part} {buf' : Pipe → List UInt8},
      (∀ c, (⟨o, r⟩ : SpawnSig.Event) ≠ ⟨.fork, Forked.parent c⟩) →
      MiddleFits (Forks tr) (s.procs.map Process.pid) ends f.container q.pid ρ' →
      (∀ c, ρ' = .waiting c → buf' .pidp ≠ []) →
      ∃ f' : Kin, f'.parts = f.container.toList ++ (q.pid, ρ') :: f.parent.toList ∧
        Fits root (tr ++ [(q.pid, ⟨o, r⟩)]) (s.procs.map Process.pid) ends f' buf' := by
    intro ρ' buf' ho hρ hunread
    have hquiet := hfits.quiet (o := o) (r := r) ho fun heq => absurd heq hroot
    refine ⟨{ f with middle := some (q.pid, ρ') }, by simp [Kin.parts], ?_⟩
    apply hquiet.middle_moves hm _ hunread
    rw [forks_quiet ho]
    exact hρ
  cases ρ with
  | leaving =>
    obtain rfl : o = .close goWrite := ha
    exact hstep (by rintro _ ⟨⟩) hmid (by rintro _ ⟨⟩)
  | sealing =>
    obtain rfl : o = .close pidRead := ha
    exact hstep (by rintro _ ⟨⟩) hmid (by rintro _ ⟨⟩)
  | middle =>
    cases o with
    | fork =>
      cases (r : Forked) with
      | child => exact hr.elim
      | parent c =>
        obtain ⟨hnone, hnext⟩ := hfits.fork_container (c := c) hm
        refine ⟨_, ?_, hnext⟩
        simp [Kin.parts, bornRoles, Part.move, hnone]
      | failed => exact hstep (by simp) hmid (by rintro _ ⟨⟩)
    | act a => exact hstep (by rintro _ ⟨⟩) hmid (by rintro _ ⟨⟩)
    | exit _ => cases (r : Empty)
    | _ => exact ha.elim
  | telling c =>
    obtain rfl : o = .write pidWrite (toLE 4 c) := ha
    refine hstep (by rintro _ ⟨⟩) hmid fun _ _ => ?_
    show bufAfter s.buf q.fds (.write pidWrite (toLE 4 c)) r pidWrite.pipe ≠ []
    rw [bufAfter_write hh.1]
    simp [toLE]
  | waiting c =>
    obtain rfl : o = .wait c := ha
    -- the container is gone, so its ending is known
    obtain ⟨hforks, ⟨ρ', hc⟩ | ⟨hnone, e, hdead⟩⟩ := hmid
    · obtain ⟨q', hq', hpid, -⟩ := hs.played.exists_process (Kin.mem_parts.mpr (.inl hc))
      exact (hr q' hq' hpid).elim
    · exact hstep (by rintro _ ⟨⟩) ⟨hnone, c, e, hforks, hdead, hanswer e hdead.1⟩ (by rintro _ ⟨⟩)
  | relaying code =>
    obtain rfl : o = .exit code := ha
    cases (r : Empty)
  | _ => exact hmid.elim

/-- A call of the container. -/
lemma Shown.container_call (hs : Shown root tr ends s f) (hc : f.container = some (q.pid, ρ))
    (ha : ρ.Allowed o) :
    ∃ f', f'.parts = bornRoles Part.move ρ o r ++
        ((q.pid, ρ.move o r) :: (f.middle.toList ++ f.parent.toList)) ∧
      Fits root (tr ++ [(q.pid, ⟨o, r⟩)])
        ((bornRoles Part.move ρ o r).map Prod.fst ++ s.procs.map Process.pid) ends f'
        (bufAfter s.buf q.fds o r) := by
  have hfits := hs.fits
  have hpart := hfits.container _ hc
  have hstep : ∀ {ρ' : Part} {buf' : Pipe → List UInt8},
      (∀ c, (⟨o, r⟩ : SpawnSig.Event) ≠ ⟨.fork, Forked.parent c⟩) → (∀ m, o ≠ .wait m) →
      ρ'.OfContainer → buf' .pidp = s.buf .pidp →
      ∃ f' : Kin, f'.parts = (q.pid, ρ') :: (f.middle.toList ++ f.parent.toList) ∧
        Fits root (tr ++ [(q.pid, ⟨o, r⟩)]) (s.procs.map Process.pid) ends f' buf' :=
    fun ho hw hρ hbuf => ⟨{ f with container := some (q.pid, _) }, by simp [Kin.parts],
      (hfits.quiet ho fun _ => hw).container_moves hc hρ hbuf⟩
  cases ρ with
  | inner =>
    obtain rfl : o = .close pidWrite := ha
    exact hstep (by rintro _ ⟨⟩) (by rintro _ ⟨⟩) trivial rfl
  | ready =>
    obtain rfl : o = .read goRead 1 := ha
    exact hstep (by rintro _ ⟨⟩) (by rintro _ ⟨⟩) trivial (bufAfter_read_of_ne (by decide))
  | running =>
    cases o with
    | close fd => exact hstep (by rintro _ ⟨⟩) (by rintro _ ⟨⟩) trivial rfl
    | act a => exact hstep (by rintro _ ⟨⟩) (by rintro _ ⟨⟩) trivial rfl
    | exit _ => cases (r : Empty)
    | _ => exact ha.elim
  | _ => exact hpart.elim

/-- **A call keeps the parts.** -/
lemma Shown.call (hs : Shown root tr ends s f) {k : SpawnSig.Reply o → Program SpawnSig Unit}
    (hq : q ∈ s.procs) (hprog : q.prog = .call o k) (hr : Enabled spawnMachine s q o r)
    (hanswer : Answers exitCode ends o r) :
    ∃ f', Shown root (tr ++ [(q.pid, ⟨o, r⟩)]) ends (next spawnMachine s q o k r) f' := by
  obtain ⟨l₁, ρ, l₂, hparts, ha, hh, hnext⟩ :=
    hs.played.call (M := spawnMachine) Part.holds_move hs.pids hq hprog
  have hpids := pids_next (k := k) hs.pids hr
  have hthere : ∃ f', f'.parts = bornRoles Part.move ρ o r ++ (l₁ ++ (q.pid, ρ.move o r) :: l₂) ∧
      Fits root (tr ++ [(q.pid, ⟨o, r⟩)])
        ((bornRoles Part.move ρ o r).map Prod.fst ++ s.procs.map Process.pid) ends f'
        (bufAfter s.buf q.fds o r) := by
    obtain ⟨hc, rfl, rfl⟩ | ⟨hm, rfl, rfl⟩ | ⟨hp, rfl, rfl⟩ := Kin.parts_split hparts
    · exact hs.container_call hc ha
    · exact hs.middle_call hr hanswer hm ha hh
    · exact hs.parent_call hq hr hanswer hp ha
  obtain ⟨f', hparts', hfits'⟩ := hthere
  have hborn : (born q.fds o k r).map Process.pid = (bornRoles Part.move ρ o r).map Prod.fst := by
    cases o with
    | fork => cases (r : Forked) <;> rfl
    | _ => rfl
  refine ⟨f', hparts' ▸ hnext r, hpids, ?_⟩
  rw [live_next, hborn]
  exact hfits'

/-- **The end of a process keeps the parts.** -/
lemma Shown.end (hs : Shown root tr ends s f) {e : Ending} (hq : q ∈ s.procs)
    (hends : ∀ code, e = .exited code → EndsItself runsCommand q.prog code) :
    Shown root tr ((q.pid, e) :: ends) (s.without q.pid) (f.without q.pid) where
  played := by
    rw [Kin.parts_without]
    exact hs.played.without q.pid
  pids := pids_without q.pid hs.pids
  fits := by
    have hlive : (s.without q.pid).procs.map Process.pid =
        (s.procs.map Process.pid).filter (· ≠ q.pid) := by
      rw [List.filter_map]
      rfl
    rw [hlive]
    apply hs.fits.end (List.mem_map_of_mem hq)
    rintro ρ hm code rfl
    have hpids : (f.parts.map Prod.fst).Nodup := hs.played.pids ▸ hs.pids
    have hmem : (q.pid, ρ) ∈ f.parts := Kin.mem_parts.mpr (.inr (.inl hm))
    rcases hends code rfl with ⟨c, k, hprog, hcode⟩ | ⟨a, k, hprog, hcommand⟩
    · obtain ⟨ρ', hρ', ha⟩ := hs.played.exit hq hprog
      cases List.inj_on_of_nodup_map hpids hmem hρ' rfl
      exact ⟨c, ha, hcode⟩
    · obtain ⟨ρ', hρ', ha⟩ := hs.played.exit hq hprog
      cases List.inj_on_of_nodup_map hpids hmem hρ' rfl
      have hmid := (hs.fits.middle _ hm).2
      cases ρ with
      | middle => cases a <;> first | exact ha.elim | exact hcommand.elim
      | leaving | sealing | telling c | waiting c | relaying c => cases ha
      | _ => exact hmid.elim

/-- The parent alone. -/
lemma shown_start (root : ℕ) (cfg : ContainerConfig) (caller : Caller) :
    Shown root [] [] (start root cfg caller) ⟨some (root, .setup false false), none, none⟩ where
  played := .cons ⟨rfl, Part.plays_prog cfg caller, nofun, nofun⟩ .nil
  pids := List.nodup_singleton _
  fits :=
    { parent := by
        rintro _ ⟨⟩
        exact ⟨rfl, trivial⟩
      setup := fun _ _ _ _ => ⟨rfl, rfl, fun _ _ => List.not_mem_nil⟩
      child := by rintro _ ⟨⟩ _ ⟨⟩
      middle := nofun
      container := nofun
      unread := by rintro _ ⟨⟩ ⟨⟩
      waited := fun _ _ h => absurd h List.not_mem_nil }

/-- **The parts fit together in every account.** -/
lemma shown_of_account {cfg : ContainerConfig} {caller : Caller}
    (h : Account spawnMachine exitCode runsCommand (start root cfg caller) tr ends s) :
    ∃ f, Shown root tr ends s f := by
  apply h.invariant (I := fun tr ends s => ∃ f, Shown root tr ends s f)
  · exact ⟨_, shown_start root cfg caller⟩
  · rintro tr ends s q o k r ⟨f, hs⟩ hq hprog hr hanswer
    exact hs.call hq hprog hr hanswer
  · rintro tr ends s q e ⟨f, hs⟩ hq hends
    exact ⟨_, hs.end hq hends⟩

/-! ### The exit code -/

/-- **The exit code.** Whatever fails, and whoever is killed on the way: what the parent is answered when
it waits is the code of the middle process. When that was not killed, no other process is left, and the
code is that of the container, or 127 where none was forked.

**Proof sketch.** A wait is answered when the process is gone. The middle process exits with 127 before its
fork, and after it with the code that it was answered when it waited for the container, which the kernel
does not change. -/
theorem wait_answered {cfg : ContainerConfig} {caller : Caller} {m : ℕ} {code : ℤ}
    (h : Account spawnMachine exitCode runsCommand (start root cfg caller) tr ends s)
    (hwait : (root, ⟨.wait m, code⟩) ∈ tr) :
    Forks tr root m ∧ ∃ e, ends.lookup m = some e ∧ code = exitCode e ∧
      ((∃ sig, e = .signaled sig) ∨ (∀ q ∈ s.procs, q.pid = root) ∧
        (code = 127 ∧ (∀ c, ¬ Forks tr m c) ∨
          ∃ c e', Forks tr m c ∧ ends.lookup c = some e' ∧ code = exitCode e')) := by
  obtain ⟨f, hs⟩ := shown_of_account h
  obtain ⟨hforks, e, he, hcode⟩ := hs.fits.waited m code hwait
  refine ⟨hforks, e, he.dead.1, hcode, ?_⟩
  cases e with
  | signaled sig => exact .inl ⟨sig, rfl⟩
  | exited b =>
    right
    constructor
    · intro q hq
      obtain ⟨ρ, hρ, -⟩ := hs.played.exists_role hq
      rcases Kin.mem_parts.mp hρ with hc | hm | hp
      · cases (he.alone b rfl).symm.trans hc
      · cases he.middle.symm.trans hm
      · exact (hs.fits.parent _ hp).1
    · rcases he.explained with ⟨rfl, hnone⟩ | ⟨c, e', hfork, hdead, hsame⟩
      · exact .inl ⟨hcode, hnone⟩
      · exact .inr ⟨c, e', hfork, hdead.1, hcode.trans hsame⟩

end Steps

namespace Demo

/-- The replies in a run in which everything succeeds and the command exits with 3. -/
def endings (pid : ℕ) (o : SpawnSig.Op) : Option (SpawnSig.Reply o) :=
  match o with
  | .wait _ => some (3 : ℤ)
  | o => replies true pid o

/-- The container is forked, told, confined and released; its command exits, and the others pass on its
code. -/
def toTheEnd : List Move :=
  List.replicate 7 (.call 1) ++ List.replicate 5 (.call 2) ++ List.replicate 6 (.call 1) ++
    List.replicate 9 (.call 3) ++ [.become 3 3, .call 2, .exit 2, .call 1]

end Demo

/-- A container whose command exits with 3. -/
theorem wait_answered_demo : ∃ tr ends s,
    Account spawnMachine exitCode runsCommand Demo.begin tr ends s ∧ (1, ⟨.wait 2, (3 : ℤ)⟩) ∈ tr ∧
    Forks tr 1 2 ∧ ∃ e, ends.lookup 2 = some e ∧ 3 = exitCode e ∧
      ((∃ sig, e = .signaled sig) ∨ (∀ q ∈ s.procs, q.pid = 1) ∧
        ((3 : ℤ) = 127 ∧ (∀ c, ¬ Forks tr 2 c) ∨
          ∃ c e', Forks tr 2 c ∧ ends.lookup c = some e' ∧ 3 = exitCode e')) := by
  have hreckon : (reckon spawnMachine exitCode runsCommand Demo.endings Demo.toTheEnd
      ([], [], Demo.begin)).map (fun x => callsOf 1 x.1) =
      some (Demo.parentCalls [3, 0, 0, 0] ++ [⟨.wait 2, (3 : ℤ)⟩]) := rfl
  obtain ⟨x, hx, hcalls⟩ := Option.map_eq_some_iff.mp hreckon
  have haccount := reckon_account .start hx
  have hwait : (1, ⟨.wait 2, (3 : ℤ)⟩) ∈ x.1 := by
    apply mem_of_callsOf
    rw [hcalls]
    simp
  exact ⟨x.1, x.2.1, x.2.2, haccount, hwait, wait_answered haccount hwait⟩

/-! ### Nobody waits for ever -/

section Waits

variable {root : ℕ} {tr : Calls} {ends : List (ℕ × Ending)} {s : System}
  {q : Process Pipe ⟨SpawnAct, fun _ => Except RuntimeError Unit⟩} {ρ : Part}

/-- A part in which the next call is answered at once. -/
def Part.Free : Part → Prop
  | .asking _ | .released _ | .waiting _ | .ready => False
  | _ => True

/-- A process in such a part does not wait. -/
lemma not_blocked_free (hplays : ρ.Plays (fun _ _ => True) q.prog) (hfree : ρ.Free) :
    ¬ Blocked spawnMachine exitCode ends s q := by
  rintro ⟨o, k, hprog, hexit, hnone⟩
  have ha : ρ.Allowed o := by
    rw [hprog] at hplays
    exact hplays.1
  cases o with
  | pipe p => exact hnone true trivial trivial
  | fork => exact hnone Forked.failed trivial trivial
  | close fd => exact hnone () trivial trivial
  | write fd data => exact hnone () trivial trivial
  | exit code => exact hexit code rfl
  | act a =>
    have hfails : spawnMachine.Enabled s.world a (.error (.io "")) := by
      cases a <;> trivial
    exact hnone (.error (.io "")) hfails trivial
  | read fd n | wait pid =>
    cases ρ with
    | asking m | released m | waiting c | ready => exact hfree
    | _ => first | exact ha | cases ha

/-- A process that is to wait for a dead one does not. -/
lemma not_blocked_dead {pid : ℕ} {e : Ending} (hplays : ρ.Plays (fun _ _ => True) q.prog)
    (hρ : ∀ o, ρ.Allowed o → o = .wait pid)
    (hdead : Dead (s.procs.map Process.pid) ends pid e) :
    ¬ Blocked spawnMachine exitCode ends s q := by
  intro hblocked
  obtain ⟨o, k, hprog, -, -⟩ := id hblocked
  obtain rfl : o = .wait pid := by
    rw [hprog] at hplays
    exact hρ o hplays.1
  refine not_blocked_wait hprog ?_ hblocked
  rintro q' hq' rfl
  exact hdead.2 (List.mem_map_of_mem hq')

/-- A process that waits at a pipe finds nothing there, while somebody could write. -/
lemma blocked_at_pipe {fd : Fd Pipe} {n : ℕ} (hplays : ρ.Plays (fun _ _ => True) q.prog)
    (hρ : ∀ o, ρ.Allowed o → o = .read fd n) (hfd : fd ∈ q.fds)
    (hblocked : Blocked spawnMachine exitCode ends s q) :
    s.buf fd.pipe = [] ∧ ∃ q ∈ s.procs, ⟨fd.pipe, .write⟩ ∈ q.fds := by
  obtain ⟨o, k, hprog, -, -⟩ := id hblocked
  obtain rfl : o = .read fd n := by
    rw [hprog] at hplays
    exact hρ o hplays.1
  exact blocked_read hprog hfd hblocked

/-- **No deadlock.** Whatever fails, and whoever is killed on the way: as long as there is a process, one
of them can go on.

**Proof sketch.** The middle process waits for the container only. The container waits at its pipe while
the parent holds the other end, and the parent closes it before it waits for the middle process; a parent
that still asks for the pid holds no end that could keep it from the end of the file, and the middle process
does not wait before it has told. -/
theorem never_stuck {cfg : ContainerConfig} {caller : Caller}
    (h : Account spawnMachine exitCode runsCommand (start root cfg caller) tr ends s)
    (hne : s.procs ≠ []) : ∃ q ∈ s.procs, ¬ Blocked spawnMachine exitCode ends s q := by
  obtain ⟨f, hs⟩ := shown_of_account h
  by_contra hall
  push Not at hall
  have hplayer : ∀ x ∈ f.parts, ∃ q, x.2.Plays (fun _ _ => True) q.prog ∧ x.2.Holds q.fds ∧
      Blocked spawnMachine exitCode ends s q := by
    intro x hx
    obtain ⟨q, hq, -, hplays, hh⟩ := hs.played.exists_player hx
    exact ⟨q, hplays, hh, hall q hq⟩
  have hcontainer : ∀ c ρ, f.container = some (c, ρ) → ρ = .ready := by
    intro c ρ hc
    obtain ⟨q, hplays, -, hblocked⟩ := hplayer _ (Kin.mem_parts.mpr (.inl hc))
    have hpart := hs.fits.container _ hc
    cases ρ with
    | ready => rfl
    | inner | running => exact (not_blocked_free hplays trivial hblocked).elim
    | _ => exact hpart.elim
  have hmiddle : ∀ m ρ, f.middle = some (m, ρ) →
      ∃ c, ρ = .waiting c ∧ f.container = some (c, .ready) := by
    intro m ρ hm
    obtain ⟨q, hplays, -, hblocked⟩ := hplayer _ (Kin.mem_parts.mpr (.inr (.inl hm)))
    obtain ⟨-, hmid⟩ := hs.fits.middle _ hm
    cases ρ with
    | waiting c =>
      obtain ⟨-, ⟨ρ', hc⟩ | ⟨-, e, hdead⟩⟩ := hmid
      · obtain rfl := hcontainer c ρ' hc
        exact ⟨c, rfl, hc⟩
      · exact (not_blocked_dead hplays (fun _ ho => ho) hdead hblocked).elim
    | leaving | sealing | middle | telling c | relaying code =>
      exact (not_blocked_free hplays trivial hblocked).elim
    | _ => exact hmid.elim
  -- the parent does not wait for the pid of the container
  have hasking : ∀ pid m, f.parent ≠ some (pid, .asking m) := by
    intro pid m hp
    obtain ⟨q, hplays, hh, hblocked⟩ := hplayer _ (Kin.mem_parts.mpr (.inr (.inr hp)))
    obtain ⟨hbuf, q', hq', hwriter⟩ := blocked_at_pipe hplays (fun _ ho => ho) hh.1 hblocked
    obtain ⟨ρ', hρ', hholds⟩ := hs.played.exists_role hq'
    rcases Kin.mem_parts.mp hρ' with hc | hm | hp'
    · obtain rfl := hcontainer _ _ hc
      exact hholds.2.2 hwriter
    · obtain ⟨c, rfl, -⟩ := hmiddle _ _ hm
      exact hs.fits.unread _ hp trivial _ _ hm hbuf
    · obtain rfl := (Prod.mk.inj (Option.some.inj (hp.symm.trans hp'))).2
      exact hholds.2 hwriter
  -- so it holds no end that the container waits for
  have hparent : ∀ pid ρ, f.parent = some (pid, ρ) → ∃ m, ρ = .released m := by
    intro pid ρ hp
    obtain ⟨q, hplays, -, hblocked⟩ := hplayer _ (Kin.mem_parts.mpr (.inr (.inr hp)))
    obtain ⟨-, hpart⟩ := hs.fits.parent _ hp
    cases ρ with
    | released m => exact ⟨m, rfl⟩
    | asking m => exact (hasking _ _ hp).elim
    | setup _ _ | forked m | closing m | knowing m | done =>
      exact (not_blocked_free hplays trivial hblocked).elim
    | _ => exact hpart.elim
  have halone : f.container = none := by
    by_contra hsome
    obtain ⟨⟨c, ρ⟩, hc⟩ := Option.ne_none_iff_exists'.mp hsome
    obtain rfl := hcontainer c ρ hc
    obtain ⟨q, hplays, hh, hblocked⟩ := hplayer _ (Kin.mem_parts.mpr (.inl hc))
    obtain ⟨-, q', hq', hwriter⟩ := blocked_at_pipe hplays (fun _ ho => ho) hh.1 hblocked
    obtain ⟨ρ', hρ', hholds⟩ := hs.played.exists_role hq'
    rcases Kin.mem_parts.mp hρ' with hc' | hm | hp
    · obtain rfl := hcontainer _ _ hc'
      exact hholds.2.1 hwriter
    · obtain ⟨c', rfl, -⟩ := hmiddle _ _ hm
      exact hholds hwriter
    · obtain ⟨m, rfl⟩ := hparent _ _ hp
      exact hholds hwriter
  -- and the parent is not alone with a middle process that has ended
  obtain ⟨q, hq⟩ := List.exists_mem_of_ne_nil _ hne
  obtain ⟨ρ, hρ, -⟩ := hs.played.exists_role hq
  rcases Kin.mem_parts.mp hρ with hc | hm | hp
  · cases halone.symm.trans hc
  · obtain ⟨c, -, hc⟩ := hmiddle _ _ hm
    cases halone.symm.trans hc
  · obtain ⟨m, rfl⟩ := hparent _ _ hp
    obtain ⟨q', hplays, -, hblocked⟩ := hplayer _ hρ
    obtain ⟨-, ⟨ρ', hm⟩ | ⟨e, he⟩⟩ := hs.fits.child _ hp m rfl
    · obtain ⟨c, -, hc⟩ := hmiddle _ _ hm
      cases halone.symm.trans hc
    · exact not_blocked_dead hplays (fun _ ho => ho) he.dead hblocked

end Waits

namespace Demo

/-- The middle process is killed before it has told the pid of the container that it has forked. -/
def untold : List Move :=
  List.replicate 7 (.call 1) ++ List.replicate 4 (.call 2) ++ [.kill 2 9]

end Demo

/-- A parent that asks a middle process which was killed, and a container that nobody has released. -/
theorem never_stuck_demo : ∃ tr ends s,
    Account spawnMachine exitCode runsCommand Demo.begin tr ends s ∧ s.procs.length = 2 ∧
    ∃ q ∈ s.procs, ¬ Blocked spawnMachine exitCode ends s q := by
  have hreckon : (reckon spawnMachine exitCode runsCommand Demo.endings Demo.untold
      ([], [], Demo.begin)).map (fun x => x.2.2.procs.length) = some 2 := rfl
  obtain ⟨x, hx, hlength⟩ := Option.map_eq_some_iff.mp hreckon
  have haccount := reckon_account .start hx
  have hne : x.2.2.procs ≠ [] := List.ne_nil_of_length_eq_add_one hlength
  exact ⟨x.1, x.2.1, x.2.2, haccount, hlength, never_stuck haccount hne⟩

end Spawn

end Mincontainer
