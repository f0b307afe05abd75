import Mincontainer.Effects.Monitor
import Mincontainer.Host.Frame

set_option relaxedAutoImplicit false
set_option autoImplicit false

/-!
# Rules for the small programs

For each helper that wraps one call: which calls it makes, and what its successful runs do.

## Main definitions

* `Mincontainer.failed` — the call reported a failure.
* `Mincontainer.Keeps` — an environment that leaves a file alone.
* `Mincontainer.Yields` — what a program does when it runs alone and no call fails.

## Main results

* `Mincontainer.appendTo_ok`, `Mincontainer.copyChunks_ok` — what a file holds after a successful
  write.
* `Mincontainer.Yields.bind`, `Mincontainer.Yields.call` — the rules for sequences and calls.
-/

namespace Mincontainer

open Effects Files

/-! ### Failures -/

/-- The call of an event reported a failure. -/
def failed : HostSig.Event → Bool
  | ⟨.readFile _, r⟩ => !(r : Except String Content).isOk
  | ⟨.openFile _, r⟩ => !(r : Except String Nat).isOk
  | ⟨.readAll _, r⟩ => (r : List Bytes × Option String).2.isSome
  | ⟨.readSpan _ _, r⟩ => (r : List Bytes × Option String).2.isSome
  | ⟨.listDir _, r⟩ => !(r : Except String (List String)).isOk
  | ⟨.listDirs _, r⟩ => !(r : Except String (List String)).isOk
  | ⟨.mkdirAll _, r⟩ => !(r : Except (Nat × String) Unit).isOk
  | ⟨.createFile _, r⟩ => !(r : Except String Unit).isOk
  | ⟨.append _ _, r⟩ => !(r : Except (Nat × String) Unit).isOk
  | ⟨.putDoc _ _, r⟩ => !(r : Except (Bytes × String) Bytes).isOk
  | ⟨.rename _ _, r⟩ => !(r : Except String Unit).isOk
  | ⟨.removeTree _, r⟩ => !(r : Except (List Path × String) Unit).isOk
  | ⟨.mounts _, r⟩ => !(r : Except String (List MountEntry)).isOk
  | ⟨.fds _, r⟩ => !(r : Except String (List FdEntry)).isOk
  | ⟨.startTree _, r⟩ => !(r : Except String Int).isOk
  | ⟨.fork _ _, r⟩ => !(r : Except String Int).isOk
  | ⟨.criuVersion, r⟩ => !(r : Except String String).isOk
  | ⟨.criuDump _, r⟩ => !(r : Except DumpFailure (List (String × Bytes))).isOk
  | ⟨.criuRestore _ _, r⟩ =>
    match (r : EngineRestore) with
    | .failed _ => true
    | .up _ readback => !readback.isOk
  | ⟨.delegate, r⟩ => !(r : Except String Unit).isOk
  | ⟨.cgroupWrite _ _ _, r⟩ => !(r : Except String Unit).isOk
  | ⟨.cgroupAdd _ _, r⟩ => !(r : Except String Unit).isOk
  | ⟨.net _, r⟩ => !(r : Except String Unit).isOk
  | ⟨.resolveAddr _, r⟩ => !(r : Except String Bool).isOk
  | ⟨.connect _, r⟩ => !(r : Except String Unit).isOk
  | ⟨.send _, r⟩ => !(r : Except (Nat × String) Unit).isOk
  | ⟨.flush, r⟩ => !(r : Except String Unit).isOk
  | ⟨.recv _, r⟩ => !(r : Except String Bytes).isOk
  | _ => false

/-! ### Footprints of the helpers -/

section Within

variable {P : HostOp → Prop} {α : Type}

@[simp] lemma within_orErr {ε : Type} (r : Except ε α) (f : ε → RuntimeError) :
    (orErr r f).run.Within P := by
  cases r <;> exact trivial

@[simp] lemma within_ofExcept (r : Except RuntimeError α) : (ofExcept r).run.Within P := by
  cases r <;> exact trivial

@[simp] lemma within_sys (o : HostOp) : (sys o).run.Within P ↔ P o :=
  Fallible.within_sys (S := HostSig) P o

lemma within_when {c : Prop} [Decidable c] {x : HostM Unit} (h : c → x.run.Within P) :
    (when c x).run.Within P := by
  rw [when]
  split
  · exact h ‹c›
  · exact trivial

@[simp] lemma within_abort : (abort : HostM α).run.Within P ↔ P .abort :=
  ⟨fun h => h.1, fun h => ⟨h, fun r => nomatch (r : Empty)⟩⟩

@[simp] lemma within_mkdirAll (p : Path) (f : String → RuntimeError) :
    (mkdirAll p f).run.Within P ↔ P (.mkdirAll p) := by
  refine ⟨fun h => h.1, fun h => ⟨h, fun r => ?_⟩⟩
  rcases r with ⟨k, e⟩ | u <;> exact trivial

@[simp] lemma within_createFile (p : Path) (f : String → RuntimeError) :
    (createFile p f).run.Within P ↔ P (.createFile p) := by
  refine ⟨fun h => h.1, fun h => ⟨h, fun r => ?_⟩⟩
  rcases r with e | u <;> exact trivial

@[simp] lemma within_appendTo (p : Path) (data : Bytes) (f : String → RuntimeError) :
    (appendTo p data f).run.Within P ↔ P (.append p data) := by
  refine ⟨fun h => h.1, fun h => ⟨h, fun r => ?_⟩⟩
  rcases r with ⟨k, e⟩ | u <;> exact trivial

lemma within_copyChunks {p : Path} {f : String → RuntimeError} {chunks : List Bytes}
    (h : ∀ b, P (.append p b)) : (copyChunks p f chunks).run.Within P := by
  induction chunks with
  | nil => exact trivial
  | cons b bs ih => exact Fallible.within_bind ((within_appendTo _ _ _).mpr (h b)) fun _ => ih

/-- The value of a reply is what the reply was relied on for. -/
lemma relies_orErr {ε : Type} {G : HostSig.Event → Prop} {Q : α → Prop}
    {r : Except ε α} {f : ε → RuntimeError} (h : ∀ a, r = .ok a → Q a) :
    Fallible.Relies G P Q (orErr r f) := by
  cases r with
  | ok a => exact Fallible.Relies.pure (h a rfl)
  | error e => exact Fallible.Relies.throw (f e)

lemma relies_ofExcept {G : HostSig.Event → Prop} {Q : α → Prop}
    {r : Except RuntimeError α} (h : ∀ a, r = .ok a → Q a) :
    Fallible.Relies G P Q (ofExcept r) := by
  cases r with
  | ok a => exact Fallible.Relies.pure (h a rfl)
  | error e => exact Fallible.Relies.throw e

end Within

/-! ### Successful writes -/

/-- The environment leaves the file at `p` alone. -/
def Keeps (R : Host → Host → Prop) (p : Path) : Prop := ∀ a b, R a b → b.file p = a.file p

lemma keeps_quiet (p : Path) : Keeps quiet p := fun _ _ h => h.elim

lemma Keeps.star {R : Host → Host → Prop} {p : Path} (hk : Keeps R p) {a b : Host}
    (h : Relation.ReflTransGen R a b) : b.file p = a.file p := by
  induction h with
  | refl => rfl
  | tail _ hR ih => exact (hk _ _ hR).trans ih

/-- A file that no call of the program overwrites is kept. -/
lemma Runs.file_kept {R : Host → Host → Prop} {α : Type} {x : HostM α} {h h' : Host}
    {tr : List HostSig.Event} {out : Option (Except RuntimeError α)} {p : Path} (hk : Keeps R p)
    (hx : x.run.Within fun o : HostOp => ¬ o.overwrites p) (hrun : Runs R x h tr out h') :
    h'.file p = h.file p :=
  Exec.rel (K := fun a b => Host.file b p = Host.file a p) (fun _ => rfl)
    (fun h₁ h₂ => h₂.trans h₁) (fun w _ r ho _ => w.next_file ho r) hk hx hrun

lemma HostOp.not_overwrites_of_reads {o : HostOp} (h : o.reads = true) (p : Path) :
    ¬ o.overwrites p := by
  cases o <;> first | exact id | cases h

/-- A program that only reads keeps a file. -/
lemma Runs.file_kept_of_reads {R : Host → Host → Prop} {α : Type} {x : HostM α} {h h' : Host}
    {tr : List HostSig.Event} {out : Option (Except RuntimeError α)} {p : Path} (hk : Keeps R p)
    (hx : x.run.Within fun o : HostOp => o.reads = true) (hrun : Runs R x h tr out h') :
    h'.file p = h.file p :=
  Runs.file_kept hk (hx.mono fun _ ho => HostOp.not_overwrites_of_reads ho p) hrun

/-- Removing a directory changes no file. -/
lemma Host.next_file_removeDir {h : Host} {p q : Path} {b : Bool} (hb : b = h.removable p) :
    (h.next (.removeDir p) b).file q = h.file q := by
  subst hb
  simp only [Host.next]
  split
  · rename_i hrem
    by_cases hq : q = p
    · subst hq
      have hdir : h.kind q = some .dir := by
        simp only [Host.removable, Bool.and_eq_true, decide_eq_true_eq] at hrem
        exact hrem.1.1
      simp only [Host.kind] at hdir
      simp only [Host.file, Tree.get_remove, if_true]
      rcases hget : h.fs.get q with _ | _ | c
      · rfl
      · rfl
      · rw [hget] at hdir
        cases hdir
    · simp only [Host.file, Tree.get_remove, if_neg hq]
  · rfl

/-- A file is kept by a program that overwrites other files only, and removes empty directories. -/
lemma Runs.file_kept_of_removeDir {R : Host → Host → Prop} {α : Type} {x : HostM α} {h h' : Host}
    {tr : List HostSig.Event} {out : Option (Except RuntimeError α)} {p : Path} (hk : Keeps R p)
    (hx : x.run.Within fun o : HostOp => ¬ o.overwrites p ∨ ∃ q, o = .removeDir q)
    (hrun : Runs R x h tr out h') : h'.file p = h.file p := by
  refine Exec.rel (K := fun a b => Host.file b p = Host.file a p) (fun _ => rfl)
    (fun h₁ h₂ => h₂.trans h₁) (fun w o r ho hr => ?_) hk hx hrun
  rcases ho with ho | ⟨q, rfl⟩
  · exact w.next_file ho r
  · exact Host.next_file_removeDir (Host.enabled_removeDir.mp hr)

/-- A file that a call does not overwrite is kept. -/
lemma Runs.sys_file_kept {R : Host → Host → Prop} {o : HostOp} {h h' : Host}
    {tr : List HostSig.Event} {out : Option (Except RuntimeError o.Reply)} {p : Path}
    (hk : Keeps R p) (ho : ¬ o.overwrites p) (hrun : Runs R (sys o) h tr out h') :
    h'.file p = h.file p :=
  Runs.file_kept hk ((within_sys o).mpr ho) hrun

section Files

variable {R : Host → Host → Prop} {h h' : Host} {tr : List HostSig.Event} {p : Path}

lemma Host.file_write (h : Host) (p : Path) (c : Content) : (h.write p c).file p = some c := by
  simp [Host.file, Host.write]

/-- The second of two writes to a path is the one that counts. -/
lemma Host.write_write (h : Host) (p : Path) (c d : Content) :
    (h.write p c).write p d = h.write p d := by
  simp [Host.write, Tree.set, Tree.keep, List.filter_filter]

lemma Host.file_write_of_ne (h : Host) {p q : Path} (c : Content) (hq : q ≠ p) :
    (h.write p c).file q = h.file q := by
  simp only [Host.file, h.write_get_of_ne c hq]

lemma Host.file_extend (h : Host) {p : Path} {c : Content} (hp : h.file p = some c)
    (data : Bytes) : (h.extend p data).file p = some (.bytes (c.raw ++ data)) := by
  simp only [Host.extend, hp]
  exact h.file_write _ _

lemma Host.kind_file_iff (h : Host) (p : Path) :
    h.kind p = some .file ↔ ∃ c, h.file p = some c := by
  simp only [Host.kind, Host.file]
  rcases h.fs.get p with _ | _ | c <;> simp

/-- Creating a file leaves it empty. -/
lemma createFile_ok {f : String → RuntimeError} {u : Unit} (hk : Keeps R p)
    (hrun : Runs R (createFile p f) h tr (some (.ok u)) h') : h'.file p = some (.bytes []) := by
  obtain ⟨h₁, r, tr', hR, hr, rfl, hk'⟩ := Exec.call_some_inv hrun
  rcases r with e | u'
  · obtain ⟨-, -, h⟩ := Exec.ret_some_inv hk'
    cases h
  · obtain ⟨-, hR', -⟩ := Exec.ret_some_inv hk'
    rw [hk.star hR']
    exact h₁.file_write _ _

/-- Writing to a file appends the bytes. -/
lemma appendTo_ok {data : Bytes} {f : String → RuntimeError} {u : Unit} (hk : Keeps R p)
    (hrun : Runs R (appendTo p data f) h tr (some (.ok u)) h') :
    ∃ c, h.file p = some c ∧ h'.file p = some (.bytes (c.raw ++ data)) := by
  obtain ⟨h₁, r, tr', hR, hr, rfl, hk'⟩ := Exec.call_some_inv hrun
  rcases r with ⟨k, e⟩ | u'
  · obtain ⟨-, -, h⟩ := Exec.ret_some_inv hk'
    cases h
  · obtain ⟨-, hR', -⟩ := Exec.ret_some_inv hk'
    have hkind : h₁.kind p = some .file := Host.enabled_append.mp hr
    obtain ⟨c, hc⟩ := (h₁.kind_file_iff p).mp hkind
    refine ⟨c, (hk.star hR).symm.trans hc, ?_⟩
    rw [hk.star hR']
    exact h₁.file_extend hc data

/-- Copying buffers to a file appends their concatenation. -/
lemma copyChunks_ok {f : String → RuntimeError} {chunks : List Bytes} {b : Bytes} {u : Unit}
    (hk : Keeps R p) (hb : h.file p = some (.bytes b))
    (hrun : Runs R (copyChunks p f chunks) h tr (some (.ok u)) h') :
    h'.file p = some (.bytes (b ++ chunks.flatten)) := by
  induction chunks generalizing h tr b with
  | nil =>
    obtain ⟨-, hR, -⟩ := Exec.ret_some_inv hrun
    rw [hk.star hR, hb]
    simp
  | cons c chunks ih =>
    obtain ⟨u', tr₁, tr₂, h₁, rfl, hrun₁, hrun₂⟩ := Exec.fallible_bind_ok hrun
    obtain ⟨c', hc', hh₁⟩ := appendTo_ok hk hrun₁
    obtain rfl : c' = .bytes b := by rw [hb] at hc'; exact (Option.some.inj hc').symm
    rw [ih hh₁ hrun₂]
    simp [Content.raw]

/-- A successful read of a whole file gives its content. -/
lemma readFile_ok {f : String → RuntimeError} {c : Content} (hk : Keeps R p)
    (hrun : Runs R (sys (.readFile p) >>= fun r => orErr r f) h tr (some (.ok c)) h') :
    h.file p = some c := by
  obtain ⟨h₁, r, tr', hR, hr, rfl, hk'⟩ := Exec.call_some_inv hrun
  rcases r with e | c'
  · obtain ⟨-, -, h⟩ := Exec.ret_some_inv hk'
    cases h
  · obtain ⟨-, -, h⟩ := Exec.ret_some_inv hk'
    obtain rfl := Except.ok.inj h
    rw [← hk.star hR]
    exact Host.enabled_readFile.mp hr

end Files

/-- A result that was already known. -/
lemma ofExcept_ok {W : Type} {M : Machine HostSig W} {R : W → W → Prop} {α : Type}
    {r : Except RuntimeError α} {a : α} {w w' : W} {tr : List HostSig.Event}
    (hrun : Exec M R (ofExcept r : HostM α).run w tr (some (.ok a)) w') : tr = [] ∧ r = .ok a := by
  cases r with
  | ok b =>
    obtain ⟨rfl, -, hres⟩ := Exec.ret_some_inv hrun
    exact ⟨rfl, hres.symm⟩
  | error e => exact (Exec.throw_ok_false hrun).elim

/-! ### Runs that return -/

/-- The call changes nothing, and always gets some reply. -/
def HostOp.answers (o : HostOp) : Prop :=
  o.reads = true ∧ o ≠ .spin ∧ o ≠ .abort ∧ ∀ pid, o ≠ .waitTree pid

lemma Host.exists_enabled (h : Host) {o : HostOp} (ho : o.answers) :
    ∃ r, h.enabled o r = true := by
  obtain ⟨hreads, hspin, habort, hwait⟩ := ho
  cases o with
  | stat p => exact ⟨h.kind p, Host.enabled_stat.mpr rfl⟩
  | readAll p => exact ⟨([], some ""), by cases h.file p <;> rfl⟩
  | readSpan p span => exact ⟨([], some ""), Host.enabled_readSpan_error.mpr ⟨by simp, List.nil_prefix⟩⟩
  | pidAlive pid => exact ⟨h.alive pid, Host.enabled_pidAlive.mpr rfl⟩
  | now => exact ⟨"", rfl⟩
  | hostname => exact ⟨"", rfl⟩
  | kernelRelease => exact ⟨"", rfl⟩
  | awaitExit pid => exact ⟨true, rfl⟩
  | term pid => exact ⟨(), rfl⟩
  | nsInode pid kind => exact ⟨none, rfl⟩
  | connections pid => exact ⟨[], rfl⟩
  | namespaces pid => exact ⟨⟨none, none, none, none, none⟩, rfl⟩
  | cgroupStats leaf => exact ⟨⟨"", 0, "", "", 0⟩, rfl⟩
  | send data => exact ⟨.ok (), rfl⟩
  | spin => exact absurd rfl hspin
  | abort => exact absurd rfl habort
  | waitTree pid => exact absurd rfl (hwait pid)
  | _ => first | exact ⟨.error "", rfl⟩ | cases hreads

/-- A program that only makes such calls can return. -/
lemma Runs.returns {R : Host → Host → Prop} {α : Type} {x : HostM α}
    (hx : x.run.Within HostOp.answers) (h : Host) : ∃ tr res h', Runs R x h tr (some res) h' :=
  Exec.exists_return (fun w _ ho => Host.exists_enabled w ho) hx h

/-! ### Runs in which nothing fails -/

/-- No call of the trace reported a failure. -/
def Smooth (tr : List HostSig.Event) : Prop := ∀ e ∈ tr, failed e = false

lemma Smooth.append_iff {tr tr' : List HostSig.Event} :
    Smooth (tr ++ tr') ↔ Smooth tr ∧ Smooth tr' := by
  simp [Smooth, or_imp, forall_and]

lemma Smooth.cons_iff {e : HostSig.Event} {tr : List HostSig.Event} :
    Smooth (e :: tr) ↔ failed e = false ∧ Smooth tr := by
  simp [Smooth]

/-- Run alone from `h` and without a failing call, `x` returns `a` and leaves `g`; and it can run
so. -/
structure Yields {α : Type} (x : HostM α) (h : Host) (a : α) (g : Host) : Prop where
  unique : ∀ {tr res h'}, Runs quiet x h tr (some res) h' → Smooth tr → res = .ok a ∧ h' = g
  possible : ∃ tr, Smooth tr ∧ Runs quiet x h tr (some (.ok a)) g

namespace Yields

variable {α β : Type} {h g k : Host}

lemma pure (a : α) (h : Host) : Yields (Pure.pure a : HostM α) h a h where
  unique hrun _ := by
    obtain ⟨-, rfl, rfl⟩ := Exec.quiet_ret_iff.mp hrun
    exact ⟨rfl, rfl⟩
  possible := ⟨[], by simp [Smooth], .ret _ _⟩

lemma ofExcept {r : Except RuntimeError α} {a : α} (hr : r = .ok a) (h : Host) :
    Yields (ofExcept r) h a h := by
  subst hr
  exact Yields.pure a h

/-- Sequences of such programs. -/
lemma bind {x : HostM α} {f : α → HostM β} {a : α} {b : β} (hx : Yields x h a g)
    (hf : Yields (f a) g b k) : Yields (x >>= f) h b k where
  unique hrun hs := by
    rcases Exec.fallible_bind_inv hrun with ⟨hout, -⟩ | ⟨e, -, hrun₁⟩ |
      ⟨a', tr₁, tr₂, h₁, rfl, hrun₁, hrun₂⟩
    · cases hout
    · cases (hx.unique hrun₁ hs).1
    · obtain ⟨hs₁, hs₂⟩ := Smooth.append_iff.mp hs
      obtain ⟨ha, rfl⟩ := hx.unique hrun₁ hs₁
      obtain rfl := Except.ok.inj ha
      exact hf.unique hrun₂ hs₂
  possible := by
    obtain ⟨tr₁, hs₁, hrun₁⟩ := hx.possible
    obtain ⟨tr₂, hs₂, hrun₂⟩ := hf.possible
    refine ⟨tr₁ ++ tr₂, Smooth.append_iff.mpr ⟨hs₁, hs₂⟩, ?_⟩
    exact Exec.fallible_bind hrun₁ hrun₂

/-- A call whose successful replies all lead to the same end. -/
lemma call {o : HostOp} {f : o.Reply → HostM α} {a : α}
    (hpossible : ∃ r, h.enabled o r = true ∧ failed ⟨o, r⟩ = false)
    (hf : ∀ r, h.enabled o r = true → failed ⟨o, r⟩ = false → Yields (f r) (h.next o r) a g) :
    Yields (sys o >>= f) h a g where
  unique hrun hs := by
    obtain ⟨r, tr', hr, rfl, hrun'⟩ := Exec.quiet_call_iff.mp hrun
    obtain ⟨hs₁, hs₂⟩ := Smooth.cons_iff.mp hs
    exact (hf r hr hs₁).unique hrun' hs₂
  possible := by
    obtain ⟨r, hr, hs⟩ := hpossible
    obtain ⟨tr, hs', hrun⟩ := (hf r hr hs).possible
    exact ⟨⟨o, r⟩ :: tr, Smooth.cons_iff.mpr ⟨hs, hs'⟩, Exec.call hr hrun⟩

lemma mkdirAll {p : Path} {f : String → RuntimeError} (hp : h.clearWay p = true) :
    Yields (mkdirAll p f) h () { h with fs := h.fs.mkdirAll p } := by
  refine Yields.call ⟨.ok (), hp, rfl⟩ fun r _ hs => ?_
  rcases r with ⟨k, e⟩ | u
  · cases hs
  · exact Yields.pure () _

lemma createFile {p : Path} {f : String → RuntimeError} (hdir : h.kind p.dropLast = some .dir)
    (hp : h.kind p ≠ some .dir) (hne : p ≠ []) :
    Yields (createFile p f) h () (h.write p (.bytes [])) := by
  refine Yields.call ⟨.ok (), Host.enabled_createFile.mpr ⟨hdir, hp, hne⟩, rfl⟩ fun r _ hs => ?_
  rcases r with e | u
  · cases hs
  · exact Yields.pure () _

lemma appendTo {p : Path} {data : Bytes} {f : String → RuntimeError}
    (hp : h.kind p = some .file) : Yields (appendTo p data f) h () (h.extend p data) := by
  refine Yields.call ⟨.ok (), Host.enabled_append.mpr hp, rfl⟩ fun r _ hs => ?_
  rcases r with ⟨k, e⟩ | u
  · cases hs
  · exact Yields.pure () _

/-- Copying buffers to a file just written. -/
lemma copyChunks {p : Path} {f : String → RuntimeError} (chunks : List Bytes) (b : Bytes) :
    Yields (copyChunks p f chunks) (h.write p (.bytes b)) ()
      (h.write p (.bytes (b ++ chunks.flatten))) := by
  induction chunks generalizing b with
  | nil =>
    rw [List.flatten_nil, List.append_nil]
    exact Yields.pure () _
  | cons c chunks ih =>
    have hext : (h.write p (.bytes b)).extend p c = h.write p (.bytes (b ++ c)) := by
      rw [Host.extend, Host.file_write]
      exact Host.write_write _ _ _ _
    refine Yields.bind (Yields.appendTo ?_) ?_
    · exact (Host.kind_file_iff _ _).mpr ⟨_, h.file_write _ _⟩
    · rw [hext, List.flatten_cons, ← List.append_assoc]
      exact ih (b ++ c)

end Yields

end Mincontainer
