import Mincontainer.Host.Machine

set_option relaxedAutoImplicit false
set_option autoImplicit false

/-!
# What a call leaves alone

Footprints of the host calls: which paths of the file tree a call can change, and which calls
change processes or links at all. A program whose calls have a footprint keeps everything
outside of it, whatever the replies are and wherever it is cut.

## Main definitions

* `Mincontainer.HostOp.reads` — calls that change nothing.
* `Mincontainer.HostOp.touches`, `Mincontainer.HostOp.overwrites` — the paths a call can change,
  and those among them where it can do more than create a missing directory.
* `Mincontainer.HostOp.Stays` — file calls that stay within given sets of paths.

## Main results

* `Mincontainer.Runs.of_reads` — a program that only reads leaves the host to the environment.
* `Mincontainer.Host.next_get`, `Mincontainer.Host.next_file` — what is outside of its paths a call keeps.
-/

namespace Mincontainer

open Effects Files

/-! ### Footprints -/

namespace HostOp

/-- The call changes nothing on the host. -/
def reads : HostOp → Bool
  | .mkdirAll _ | .createFile _ | .append _ _ | .putDoc _ _ | .removeFile _ | .removeDirAll _
  | .removeTree _ | .removeDir _ | .rename _ _ | .kill _ | .startTree _ | .fork _ _ | .criuDump _
  | .criuRestore _ _ | .delegate | .cgroupWrite _ _ _ | .cgroupAdd _ _ | .net _ => false
  | _ => true

/-- The call changes neither processes nor cgroup controllers nor links. -/
def plain : HostOp → Bool
  | .kill _ | .startTree _ | .fork _ _ | .criuDump _ | .criuRestore _ _ | .delegate
  | .cgroupWrite _ _ _ | .cgroupAdd _ _ | .net _ => false
  | _ => true

/-- The call can do more at the path than create a missing directory. -/
def overwrites : HostOp → Path → Prop
  | .createFile p, q | .append p _, q | .putDoc p _, q | .removeFile p, q | .removeDir p, q => q = p
  | .removeDirAll p, q | .removeTree p, q => p <+: q
  | .rename src dst, q => q = src ∨ q = dst
  | .criuDump opts, q => opts.imagesDir <+: q
  | .criuRestore _ opts, q => q = opts.pidfile
  | _, _ => False

/-- The call can change what the path holds. -/
def touches : HostOp → Path → Prop
  | .mkdirAll p, q => q <+: p
  | o, q => o.overwrites q

lemma touches_of_overwrites {o : HostOp} {q : Path} (h : o.overwrites q) : o.touches q := by
  cases o <;> first | exact h | exact h.elim

/-- A file call that changes only paths in `A`, and overwrites only paths in `B`. -/
structure Stays (A B : Path → Prop) (o : HostOp) : Prop where
  plain : o.plain = true
  touches : ∀ q, o.touches q → A q
  overwrites : ∀ q, o.overwrites q → B q

lemma stays_of_reads {A B : Path → Prop} {o : HostOp} (h : o.reads = true) : o.Stays A B := by
  cases o <;> first | exact ⟨rfl, fun _ h => h.elim, fun _ h => h.elim⟩ | cases h

lemma plain_of_reads {o : HostOp} (h : o.reads = true) : o.plain = true := by
  cases o <;> first | rfl | cases h

end HostOp

/-! ### The effect of one call -/

namespace Host

variable (h : Host)

@[simp] lemma write_procs (p : Path) (c : Content) : (h.write p c).procs = h.procs := rfl

@[simp] lemma write_links (p : Path) (c : Content) : (h.write p c).links = h.links := rfl

lemma write_get (p q : Path) (c : Content) :
    (h.write p c).fs.get q = if q = p then some (.file c) else h.fs.get q :=
  Tree.get_set _ _ _ _

lemma write_get_of_ne {p q : Path} (c : Content) (hq : q ≠ p) :
    (h.write p c).fs.get q = h.fs.get q := by
  rw [write_get, if_neg hq]

@[simp] lemma extend_procs (p : Path) (b : Bytes) : (h.extend p b).procs = h.procs := by
  simp only [extend]; split <;> rfl

@[simp] lemma extend_links (p : Path) (b : Bytes) : (h.extend p b).links = h.links := by
  simp only [extend]; split <;> rfl

lemma extend_get_of_ne {p q : Path} (b : Bytes) (hq : q ≠ p) :
    (h.extend p b).fs.get q = h.fs.get q := by
  simp only [extend]
  split
  · exact h.write_get_of_ne _ hq
  · rfl

@[simp] lemma reap_fs (pid : Int) : (h.reap pid).fs = h.fs := rfl

lemma writeAll_get_of_outside {dir q : Path} (files : List (String × Bytes))
    (hq : ¬ dir <+: q) : (h.writeAll dir files).fs.get q = h.fs.get q := by
  induction files generalizing h with
  | nil => rfl
  | cons f files ih =>
    rw [writeAll, List.foldl_cons]
    refine (ih _).trans (h.write_get_of_ne _ ?_)
    rintro rfl
    exact hq (List.prefix_append _ _)

@[simp] lemma writeAll_procs (dir : Path) (files : List (String × Bytes)) :
    (h.writeAll dir files).procs = h.procs := by
  induction files generalizing h with
  | nil => rfl
  | cons f files ih => rw [writeAll, List.foldl_cons]; exact ih _

@[simp] lemma writeAll_links (dir : Path) (files : List (String × Bytes)) :
    (h.writeAll dir files).links = h.links := by
  induction files generalizing h with
  | nil => rfl
  | cons f files ih => rw [writeAll, List.foldl_cons]; exact ih _

/-- Reading calls leave the host as it is. -/
lemma next_of_reads {o : HostOp} (ho : o.reads = true) (r : o.Reply) : h.next o r = h := by
  cases o <;> first | rfl | cases ho

/-- File calls leave the processes alone. -/
lemma next_procs {o : HostOp} (ho : o.plain = true) (r : o.Reply) :
    (h.next o r).procs = h.procs := by
  cases o <;> try first | rfl | cases ho
  all_goals simp only [next]
  all_goals split <;> simp

/-- File calls leave the links alone. -/
lemma next_links {o : HostOp} (ho : o.plain = true) (r : o.Reply) :
    (h.next o r).links = h.links := by
  cases o <;> try first | rfl | cases ho
  all_goals simp only [next]
  all_goals split <;> simp

/-- **Untouched paths.** A call changes only the paths it touches. -/
lemma next_get {o : HostOp} {q : Path} (ho : ¬ o.touches q) (r : o.Reply) :
    (h.next o r).fs.get q = h.fs.get q := by
  cases o with
  | mkdirAll p =>
    have hp : ∀ p', p' <+: p → (h.fs.mkdirAll p').get q = h.fs.get q := fun p' hp' => by
      rw [Tree.get_mkdirAll, if_neg fun hq => ho (hq.1.trans hp')]
    rcases r with ⟨k, e⟩ | u
    · exact hp _ (List.take_prefix _ _)
    · exact hp _ List.prefix_rfl
  | createFile p =>
    rcases r with e | u
    · rfl
    · exact h.write_get_of_ne _ ho
  | append p data =>
    rcases r with ⟨k, e⟩ | u
    · exact h.extend_get_of_ne _ ho
    · exact h.extend_get_of_ne _ ho
  | putDoc p d =>
    rcases r with ⟨k, e⟩ | u
    · exact h.extend_get_of_ne _ ho
    · exact h.write_get_of_ne _ ho
  | removeFile p =>
    simp only [next]
    split
    · exact (Tree.get_remove _ _ _).trans (if_neg ho)
    · rfl
  | removeDirAll p =>
    simp only [next]
    exact (Tree.get_removeAll _ _ _).trans (if_neg ho)
  | removeTree p =>
    rcases r with ⟨gone, e⟩ | u
    · refine (Tree.get_keep _ _ _).trans (if_pos ?_)
      rw [Bool.not_eq_true', Bool.eq_false_iff]
      intro hgone
      obtain ⟨g, -, hg⟩ := List.any_eq_true.mp hgone
      obtain ⟨hp, hq⟩ : p <+: g ∧ g <+: q := by simpa using hg
      exact ho (hp.trans hq)
    · exact (Tree.get_removeAll _ _ _).trans (if_neg ho)
  | removeDir p =>
    simp only [next]
    split
    · exact (Tree.get_remove _ _ _).trans (if_neg ho)
    · rfl
  | rename src dst =>
    simp only [next]
    split
    · have hne : q ≠ src ∧ q ≠ dst := not_or.mp ho
      rw [Tree.get_set_of_ne _ _ hne.2, Tree.get_remove, if_neg hne.1]
    · rfl
  | criuDump opts =>
    simp only [next]
    split <;> split <;> simp [writeAll_get_of_outside _ _ ho]
  | criuRestore owner opts =>
    rcases r with msg | ⟨pid, readback⟩
    · rfl
    · exact h.write_get_of_ne _ ho
  | startTree owner =>
    simp only [next]
    split
    · split <;> rfl
    · rfl
  | cgroupAdd leaf pid =>
    simp only [next]; split <;> rfl
  | net c =>
    simp only [next]
    split
    · cases c <;> rfl
    · rfl
  | _ => rfl

/-- What is below a path that is not overwritten stays: a call that touches such a path creates
a directory where nothing was. -/
lemma next_get_of_not_overwrites {o : HostOp} {q : Path} (ho : ¬ o.overwrites q) (r : o.Reply) :
    (h.next o r).fs.get q = h.fs.get q ∨
      (h.fs.get q = none ∧ (h.next o r).fs.get q = some .dir) := by
  by_cases ht : o.touches q
  · cases o with
    | mkdirAll p =>
      have hp : ∀ p', (h.fs.mkdirAll p').get q = h.fs.get q ∨
          (h.fs.get q = none ∧ (h.fs.mkdirAll p').get q = some .dir) := fun p' => by
        rw [Tree.get_mkdirAll]
        split
        · rename_i hq; exact .inr ⟨hq.2, rfl⟩
        · exact .inl rfl
      rcases r with ⟨k, e⟩ | u
      · exact hp _
      · exact hp _
    | _ => exact absurd ht ho
  · exact .inl (h.next_get ht r)

/-- A file that is not overwritten is the same afterwards. -/
lemma next_file {o : HostOp} {q : Path} (ho : ¬ o.overwrites q) (r : o.Reply) :
    (h.next o r).file q = h.file q := by
  rcases h.next_get_of_not_overwrites ho r with hq | ⟨hn, hd⟩
  · simp only [file, hq]
  · simp only [file, hn, hd]

end Host

/-! ### Whole runs -/

section Runs

variable {R : Host → Host → Prop} {α : Type} {x : HostM α} {h h' : Host}
  {tr : List HostSig.Event} {out : Option (Except RuntimeError α)}

/-- **Reading.** A program that only reads leaves the host to the environment. -/
lemma Runs.of_reads (hx : x.run.Within fun o : HostOp => o.reads = true) (hrun : Runs R x h tr out h') :
    Relation.ReflTransGen R h h' := by
  refine Exec.rel (P := fun o : HostOp => o.reads = true) (fun _ => .refl) (fun h₁ h₂ => h₁.trans h₂)
    (fun w o r ho _ => ?_) (fun _ _ hR => .single hR) hx hrun
  change Relation.ReflTransGen R w (w.next o r)
  rw [w.next_of_reads ho]

/-- A run in which only reading calls were made leaves the host to the environment. -/
lemma Runs.star_of_reads (hrun : Runs R x h tr out h') (htr : ∀ e ∈ tr, e.1.reads = true) :
    Relation.ReflTransGen R h h' := by
  refine Exec.rel_of_good (G := fun e : HostSig.Event => e.1.reads = true) (fun _ => .refl)
    (fun h₁ h₂ => h₁.trans h₂) (fun w o r _ ho _ => ?_) (fun _ _ hR => .single hR)
    (Program.within_true _) hrun htr
  change Relation.ReflTransGen R w (w.next o r)
  rw [w.next_of_reads ho]

/-- An undisturbed program that only reads leaves the host as it is. -/
lemma Runs.eq_of_reads (hx : x.run.Within fun o : HostOp => o.reads = true)
    (hrun : Runs quiet x h tr out h') : h' = h :=
  (reflTransGen_quiet.mp (hrun.of_reads hx)).symm

/-- A program of file calls leaves a tree to the environment. -/
lemma Runs.alive_kept {pid : Int} (hx : x.run.Within fun o : HostOp => o.plain = true)
    (hR : ∀ a b, R a b → b.alive pid = a.alive pid) (hrun : Runs R x h tr out h') :
    h'.alive pid = h.alive pid :=
  Exec.rel (K := fun a b => Host.alive b pid = Host.alive a pid) (fun _ => rfl)
    (fun h₁ h₂ => h₂.trans h₁) (fun w _ r ho _ => by
      show (w.next _ r).alive pid = w.alive pid
      rw [Host.alive, Host.alive, w.next_procs ho r]) hR hx hrun

end Runs

end Mincontainer
