import Mincontainer.Host.Rules
import Mincontainer.State.Store

set_option relaxedAutoImplicit false
set_option autoImplicit false

/-!
# What an update of the record does

An update reads the record, truncates its file and writes the new text. Cut or failed in between,
it leaves the old record or a file that is no record; it never leaves another record than the old
one or the new one.

## Main definitions

* `Mincontainer.Host.record` — the lifecycle record of a container, if its file holds one.
* `Mincontainer.HostOp.puts` — calls that can leave a document at a path.
* `Mincontainer.Truncates`, `Mincontainer.Writes` — the events of a write to the record.
* `Mincontainer.UpdateEnd` — the three ways an update can end.

## Main results

* `Mincontainer.Runs.record_inherited` — a record that was not put there was there before.
* `Mincontainer.update_inv` — every run of an update ends in one of them.
-/

namespace Mincontainer

open Effects Files

/-- The lifecycle record of a container, if its file holds one. -/
def Host.record (h : Host) (env : Env) (id : String) : Option ContainerState :=
  match h.file (ContainerStateDir.forId env id).stateFile with
  | some (.doc _ (.state st)) => some st
  | _ => none

lemma Host.record_eq_some {h : Host} {env : Env} {id : String} {st : ContainerState} :
    h.record env id = some st ↔
      ∃ text, h.file (ContainerStateDir.forId env id).stateFile = some (.doc text (.state st)) := by
  simp only [Host.record]
  split
  · rename_i text st' hfile
    simp [hfile]
  · rename_i hfile
    simp only [reduceCtorEq, false_iff, not_exists]
    exact fun text h => hfile text st h

lemma Host.record_congr {h h' : Host} {env : Env} {id : String}
    (hf : h'.file (ContainerStateDir.forId env id).stateFile =
      h.file (ContainerStateDir.forId env id).stateFile) : h'.record env id = h.record env id := by
  simp only [Host.record, hf]

/-! ### Where documents come from -/

/-- The call can leave a document at the path. -/
def HostOp.puts : HostOp → Path → Prop
  | .putDoc p _, q => q = p
  | .rename _ dst, q => q = dst
  | _, _ => False

lemma Host.writeAll_doc {h : Host} {dir q : Path} {files : List (String × Bytes)} {text : Bytes}
    {d : Doc} (hd : (h.writeAll dir files).file q = some (.doc text d)) :
    h.file q = some (.doc text d) := by
  induction files generalizing h with
  | nil => exact hd
  | cons f files ih =>
    rw [Host.writeAll, List.foldl_cons] at hd
    have hwrite := ih hd
    by_cases hq : q = dir ++ [f.1]
    · subst hq
      rw [Host.file_write] at hwrite
      cases hwrite
    · rwa [h.file_write_of_ne _ hq] at hwrite

lemma Host.extend_doc {h : Host} {p q : Path} {data text : Bytes} {d : Doc}
    (hd : (h.extend p data).file q = some (.doc text d)) : h.file q = some (.doc text d) := by
  simp only [Host.extend] at hd
  split at hd
  · by_cases hq : q = p
    · subst hq
      rw [Host.file_write] at hd
      cases hd
    · rwa [h.file_write_of_ne _ hq] at hd
  · exact hd

/-- A document that a call did not put there was there before. -/
lemma Host.next_doc {h : Host} {o : HostOp} {q : Path} (ho : ¬ o.puts q) (r : o.Reply)
    {text : Bytes} {d : Doc} (hd : (h.next o r).file q = some (.doc text d)) :
    h.file q = some (.doc text d) := by
  by_cases hw : o.overwrites q
  · cases o with
    | createFile p =>
      obtain rfl : q = p := hw
      rcases r with e | u
      · exact hd
      · have := (h.file_write q (.bytes [])).symm.trans hd
        cases this
    | append p data => rcases r with ⟨k, e⟩ | u <;> exact Host.extend_doc hd
    | putDoc p d => exact absurd hw ho
    | removeFile p =>
      simp only [Host.next] at hd
      split at hd
      · simp only [Host.file, Tree.get_remove] at hd ⊢
        split at hd <;> simp_all
      · exact hd
    | removeDirAll p =>
      simp only [Host.next, Host.file, Tree.get_removeAll] at hd ⊢
      split at hd <;> simp_all
    | removeTree p =>
      rcases r with ⟨gone, e⟩ | u
      · simp only [Host.next, Host.file, Tree.get_keep] at hd ⊢
        split at hd <;> simp_all
      · simp only [Host.next, Host.file, Tree.get_removeAll] at hd ⊢
        split at hd <;> simp_all
    | removeDir p =>
      simp only [Host.next] at hd
      split at hd
      · simp only [Host.file, Tree.get_remove] at hd ⊢
        split at hd <;> simp_all
      · exact hd
    | rename src dst =>
      simp only [Host.next] at hd
      split at hd
      · have hne : q ≠ dst := ho
        simp only [Host.file, Tree.get_set_of_ne _ _ hne, Tree.get_remove] at hd ⊢
        split at hd <;> simp_all
      · exact hd
    | criuDump opts =>
      simp only [Host.next] at hd
      split at hd <;> split at hd <;> exact Host.writeAll_doc hd
    | criuRestore owner opts =>
      rcases r with msg | ⟨pid, readback⟩
      · exact hd
      · obtain rfl : q = opts.pidfile := hw
        have := (h.file_write opts.pidfile (.bytes [])).symm.trans hd
        cases this
    | _ => exact hw.elim
  · rwa [h.next_file hw] at hd

/-- A record that the program did not put there was there before. -/
lemma Runs.record_inherited {R : Host → Host → Prop} {α : Type} {x : HostM α} {h h' : Host}
    {tr : List HostSig.Event} {out : Option (Except RuntimeError α)} {env : Env} {id : String}
    (hk : Keeps R (ContainerStateDir.forId env id).stateFile)
    (hx : x.run.Within fun o : HostOp => ¬ o.puts (ContainerStateDir.forId env id).stateFile)
    (hrun : Runs R x h tr out h') :
    ∀ st, h'.record env id = some st → h.record env id = some st := by
  refine Exec.rel (K := fun a b => ∀ st, Host.record b env id = some st →
    Host.record a env id = some st) (fun _ _ hst => hst) (fun h₁ h₂ st hst => h₁ st (h₂ st hst))
    (fun w o r ho _ st hst => ?_) (fun a b hR st hst => ?_) hx hrun
  · obtain ⟨text, hfile⟩ := Host.record_eq_some.mp hst
    exact Host.record_eq_some.mpr ⟨text, Host.next_doc ho r hfile⟩
  · rwa [Host.record_congr (hk a b hR)] at hst

/-! ### The events of a write -/

/-- The file was created or truncated. -/
def Truncates (tr : List HostSig.Event) (p : Path) : Prop :=
  ⟨.createFile p, (.ok () : Except String Unit)⟩ ∈ tr

/-- The document was written to the file. -/
def Writes (tr : List HostSig.Event) (p : Path) (d : Doc) : Prop :=
  ∃ text : Bytes, ⟨.putDoc p d, (.ok text : Except (Bytes × String) Bytes)⟩ ∈ tr

lemma Truncates.append_iff {tr tr' : List HostSig.Event} {p : Path} :
    Truncates (tr ++ tr') p ↔ Truncates tr p ∨ Truncates tr' p := by
  simp [Truncates]

lemma Writes.append_iff {tr tr' : List HostSig.Event} {p : Path} {d : Doc} :
    Writes (tr ++ tr') p d ↔ Writes tr p d ∨ Writes tr' p d := by
  simp [Writes, exists_or]

/-- The event wrote some document to the file. -/
def writesTo (p : Path) : HostSig.Event → Bool
  | ⟨.putDoc q _, r⟩ => q = p && (r : Except (Bytes × String) Bytes).isOk
  | _ => false

lemma exists_writes_of_any {tr : List HostSig.Event} {p : Path} (h : tr.any (writesTo p) = true) :
    ∃ d, Writes tr p d := by
  obtain ⟨⟨o, r⟩, hmem, he⟩ := List.any_eq_true.mp h
  cases o with
  | putDoc q d =>
    rcases r with e | text
    · simp [writesTo, Except.isOk, Except.toBool] at he
    · obtain ⟨rfl, -⟩ : q = p ∧ _ := by simpa [writesTo] using he
      exact ⟨d, text, hmem⟩
  | _ => cases he

/-- A program that never creates a file at a path does not truncate it. -/
lemma not_truncates {R : Host → Host → Prop} {α : Type} {x : HostM α} {h h' : Host}
    {tr : List HostSig.Event} {out : Option (Except RuntimeError α)} {p : Path}
    (hx : x.run.Within fun o : HostOp => o ≠ .createFile p) (hrun : Runs R x h tr out h') :
    ¬ Truncates tr p :=
  fun ht => Exec.mem_within hx hrun _ ht rfl

/-- A program that never writes a document to a path leaves no such event. -/
lemma not_writes {R : Host → Host → Prop} {α : Type} {x : HostM α} {h h' : Host}
    {tr : List HostSig.Event} {out : Option (Except RuntimeError α)} {p : Path} {d : Doc}
    (hx : x.run.Within fun o : HostOp => o ≠ .putDoc p d) (hrun : Runs R x h tr out h') :
    ¬ Writes tr p d :=
  fun ⟨_, ht⟩ => Exec.mem_within hx hrun _ ht rfl

/-! ### One write -/

section

variable {R : Host → Host → Prop} {h h' : Host} {tr : List HostSig.Event} {env : Env} {id : String}

lemma loadState_reads (dir : ContainerStateDir) :
    dir.loadState.run.Within fun o : HostOp => o.reads = true := by
  refine Fallible.within_bind ((within_sys (.readFile dir.stateFile)).mpr rfl) fun r => ?_
  refine Fallible.within_bind (within_orErr _ _) fun content => ?_
  split <;> exact trivial

lemma loadConfig_reads (dir : ContainerStateDir) :
    dir.loadConfig.run.Within fun o : HostOp => o.reads = true := by
  refine Fallible.within_bind ((within_sys (.readFile dir.configFile)).mpr rfl) fun r => ?_
  refine Fallible.within_bind (within_orErr _ _) fun content => ?_
  split <;> exact trivial

/-- What `loadState` returns is the record. -/
lemma loadState_ok {st : ContainerState}
    (hk : Keeps R (ContainerStateDir.forId env id).stateFile)
    (hrun : Runs R (ContainerStateDir.forId env id).loadState h tr (some (.ok st)) h') :
    h.record env id = some st := by
  obtain ⟨r, tr₁, tr₂, h₁, rfl, hread, hrun⟩ := Exec.fallible_bind_ok hrun
  obtain ⟨c, tr₂, tr₃, h₂, rfl, hor, hrun⟩ := Exec.fallible_bind_ok hrun
  have hc := readFile_ok hk (Exec.bind hread hor)
  split at hrun
  · obtain ⟨-, -, hst⟩ := Exec.ret_some_inv hrun
    obtain rfl := Except.ok.inj hst
    exact Host.record_eq_some.mpr ⟨_, hc⟩
  · exact (Exec.throw_ok_false hrun).elim

/-- How a document write can end: nothing was touched, the file was truncated and holds no
document, or the document is there. -/
inductive WriteEnd (p : Path) (d : Doc) (h h' : Host) (tr : List HostSig.Event) :
    Option (Except RuntimeError Unit) → Prop
  | untouched {out : Option (Except RuntimeError Unit)} (hout : out ≠ some (.ok ()))
      (htr : ¬ Truncates tr p) (hw : ∀ d, ¬ Writes tr p d) (hfile : h'.file p = h.file p) :
      WriteEnd p d h h' tr out
  | torn {out : Option (Except RuntimeError Unit)} {b : Bytes} (hout : out ≠ some (.ok ()))
      (htr : Truncates tr p) (hw : ∀ d, ¬ Writes tr p d) (hfile : h'.file p = some (.bytes b)) :
      WriteEnd p d h h' tr out
  | done {out : Option (Except RuntimeError Unit)} {text : Bytes}
      (hout : ∀ e, out ≠ some (.error e)) (htr : Truncates tr p)
      (hw : ∀ d', Writes tr p d' ↔ d' = d) (hfile : h'.file p = some (.doc text d)) :
      WriteEnd p d h h' tr out

@[simp] lemma writes_nil (p : Path) (d : Doc) : ¬ Writes [] p d := by rintro ⟨_, h⟩; cases h

lemma writes_cons_iff {e : HostSig.Event} {tr : List HostSig.Event} {p : Path} {d : Doc} :
    Writes (e :: tr) p d ↔ Writes [e] p d ∨ Writes tr p d := by
  rw [← List.singleton_append, Writes.append_iff]

/-- **One write.** Every run of a document write ends in one of the three ways.

**Proof sketch.** The write is two calls. Cut before the first succeeds, nothing was touched; cut
or failed before the second succeeds, the file is empty or holds a part of the text. -/
lemma writeDoc_inv {p : Path} {d : Doc} {f : String → RuntimeError}
    {out : Option (Except RuntimeError Unit)} (hk : Keeps R p)
    (hrun : Runs R (ContainerStateDir.writeDoc p d f) h tr out h') : WriteEnd p d h h' tr out := by
  obtain ⟨h₁, hR, ⟨rfl, rfl, rfl⟩ | ⟨r, tr₁, hr, rfl, hrun₁⟩⟩ := Exec.call_inv hrun
  · exact .untouched nofun nofun (writes_nil p) (hk.star hR)
  have hnotdoc : ∀ d', ¬ Writes [⟨.createFile p, r⟩] p d' := by
    rintro d' ⟨text, hmem⟩
    cases List.mem_singleton.mp hmem
  rcases r with e | u
  · obtain ⟨rfl, hR', hout⟩ := Exec.ret_inv hrun₁
    refine .untouched ?_ ?_ hnotdoc ((hk.star hR').trans (hk.star hR))
    · rintro rfl; rcases hout with h | h <;> cases h
    · intro h; cases List.mem_singleton.mp h
  have hempty : (h₁.write p (.bytes [])).file p = some (.bytes []) := h₁.file_write _ _
  have htr : ∀ tr', Truncates (⟨.createFile p, (.ok u : Except String Unit)⟩ :: tr') p :=
    fun tr' => List.mem_cons_self
  obtain ⟨h₂, hR₂, ⟨rfl, rfl, rfl⟩ | ⟨r, tr₂, hr₂, rfl, hrun₂⟩⟩ := Exec.call_inv hrun₁
  · exact .torn nofun (htr _) hnotdoc ((hk.star hR₂).trans hempty)
  have hfile₂ : h₂.file p = some (.bytes []) := (hk.star hR₂).trans hempty
  rcases r with ⟨part, e⟩ | text
  · obtain ⟨rfl, hR', hout⟩ := Exec.ret_inv hrun₂
    refine .torn ?_ (htr _) ?_ ((hk.star hR').trans (h₂.file_extend hfile₂ part))
    · rintro rfl; rcases hout with h | h <;> cases h
    · intro d' hw
      rcases writes_cons_iff.mp hw with hw | ⟨text, hmem⟩
      · exact hnotdoc d' hw
      · cases List.mem_singleton.mp hmem
  · obtain ⟨rfl, hR', hout⟩ := Exec.ret_inv hrun₂
    refine .done ?_ (htr _) (fun d' => ?_) ((hk.star hR').trans (h₂.file_write p (.doc text d)))
    · rintro e rfl; rcases hout with h | h <;> cases h
    · rw [writes_cons_iff, or_iff_right (hnotdoc d')]
      constructor
      · rintro ⟨text', hmem⟩
        cases List.mem_singleton.mp hmem
        rfl
      · rintro rfl
        exact ⟨text, List.mem_cons_self⟩

/-- How an update of the record can end. -/
inductive UpdateEnd (env : Env) (id : String) (f : ContainerState → ContainerState)
    (h h' : Host) (tr : List HostSig.Event) : Option (Except RuntimeError Unit) → Prop
  | untouched {out : Option (Except RuntimeError Unit)} (hout : out ≠ some (.ok ()))
      (htr : ¬ Truncates tr (ContainerStateDir.forId env id).stateFile)
      (hw : ∀ d, ¬ Writes tr (ContainerStateDir.forId env id).stateFile d)
      (hfile : h'.file (ContainerStateDir.forId env id).stateFile =
        h.file (ContainerStateDir.forId env id).stateFile) : UpdateEnd env id f h h' tr out
  | torn {out : Option (Except RuntimeError Unit)} {st : ContainerState}
      (hst : h.record env id = some st) (hout : out ≠ some (.ok ()))
      (htr : Truncates tr (ContainerStateDir.forId env id).stateFile)
      (hw : ∀ d, ¬ Writes tr (ContainerStateDir.forId env id).stateFile d)
      (hrec : h'.record env id = none) : UpdateEnd env id f h h' tr out
  | done {out : Option (Except RuntimeError Unit)} {st : ContainerState}
      (hst : h.record env id = some st) (hout : ∀ e, out ≠ some (.error e))
      (htr : Truncates tr (ContainerStateDir.forId env id).stateFile)
      (hw : ∀ d, Writes tr (ContainerStateDir.forId env id).stateFile d ↔ d = .state (f st))
      (hrec : h'.record env id = some (f st)) : UpdateEnd env id f h h' tr out

/-- What happens before an update without touching the record does not count. -/
lemma UpdateEnd.prepend {f : ContainerState → ContainerState} {g : Host} {t : List HostSig.Event}
    {out : Option (Except RuntimeError Unit)}
    (ht₀ : ¬ Truncates t (ContainerStateDir.forId env id).stateFile)
    (hw₀ : ∀ d, ¬ Writes t (ContainerStateDir.forId env id).stateFile d)
    (hf₀ : h.file (ContainerStateDir.forId env id).stateFile =
      g.file (ContainerStateDir.forId env id).stateFile)
    (hend : UpdateEnd env id f h h' tr out) : UpdateEnd env id f g h' (t ++ tr) out := by
  have hnone : (∀ d, ¬ Writes tr (ContainerStateDir.forId env id).stateFile d) →
      ∀ d, ¬ Writes (t ++ tr) (ContainerStateDir.forId env id).stateFile d := fun hw d hd =>
    (Writes.append_iff.mp hd).elim (hw₀ d) (hw d)
  cases hend with
  | untouched hout ht hw hf =>
    exact .untouched hout (fun h => (Truncates.append_iff.mp h).elim ht₀ ht) (hnone hw) (hf.trans hf₀)
  | torn hst hout ht hw hrec =>
    exact .torn ((Host.record_congr hf₀).symm.trans hst) hout (Truncates.append_iff.mpr (.inr ht))
      (hnone hw) hrec
  | done hst hout ht hw hrec =>
    refine .done ((Host.record_congr hf₀).symm.trans hst) hout (Truncates.append_iff.mpr (.inr ht))
      (fun d => ?_) hrec
    rw [Writes.append_iff, or_iff_right (hw₀ d), hw d]

/-- **One update.** Every run of an update ends in one of the three ways. -/
lemma update_inv {f : ContainerState → ContainerState} {out : Option (Except RuntimeError Unit)}
    (hk : Keeps R (ContainerStateDir.forId env id).stateFile)
    (hrun : Runs R (update env id f) h tr out h') : UpdateEnd env id f h h' tr out := by
  have hload : ∀ {h₁ : Host} {tr : List HostSig.Event} {out},
      Runs R (ContainerStateDir.forId env id).loadState h tr out h₁ →
      ¬ Truncates tr (ContainerStateDir.forId env id).stateFile ∧
      (∀ d, ¬ Writes tr (ContainerStateDir.forId env id).stateFile d) ∧
      h₁.file (ContainerStateDir.forId env id).stateFile =
        h.file (ContainerStateDir.forId env id).stateFile := fun hrun =>
    ⟨not_truncates ((loadState_reads _).mono fun o ho => by rintro rfl; cases ho) hrun,
      fun d => not_writes ((loadState_reads _).mono fun o ho => by rintro rfl; cases ho) hrun,
      hk.star (Runs.of_reads (loadState_reads _) hrun)⟩
  rcases Exec.fallible_bind_inv hrun with ⟨rfl, hrun₁⟩ | ⟨e, rfl, hrun₁⟩ |
    ⟨st, tr₁, tr₂, h₁, rfl, hrun₁, hrun₂⟩
  · obtain ⟨ht, hw, hf⟩ := hload hrun₁
    exact .untouched nofun ht hw hf
  · obtain ⟨ht, hw, hf⟩ := hload hrun₁
    exact .untouched nofun ht hw hf
  · obtain ⟨ht, hw, hf⟩ := hload hrun₁
    have hst : h₁.record env id = some st := (Host.record_congr hf).trans (loadState_ok hk hrun₁)
    refine UpdateEnd.prepend ht hw hf ?_
    cases writeDoc_inv hk hrun₂ with
    | untouched hout ht₂ hw₂ hf₂ => exact .untouched hout ht₂ hw₂ hf₂
    | torn hout ht₂ hw₂ hf₂ =>
      refine .torn hst hout ht₂ hw₂ ?_
      simp only [Host.record, hf₂]
    | done hout ht₂ hw₂ hf₂ =>
      exact .done hst hout ht₂ hw₂ (Host.record_eq_some.mpr ⟨_, hf₂⟩)

/-- An update with a time stamp. -/
lemma update_now_inv {f : String → ContainerState → ContainerState}
    {out : Option (Except RuntimeError Unit)}
    (hk : Keeps R (ContainerStateDir.forId env id).stateFile)
    (hrun : Runs R (sys .now >>= fun now => update env id (f now)) h tr out h') :
    ∃ now, UpdateEnd env id (f now) h h' tr out := by
  obtain ⟨h₁, hR, ⟨rfl, rfl, rfl⟩ | ⟨now, tr₁, -, rfl, hrun₁⟩⟩ := Exec.call_inv hrun
  · exact ⟨"", .untouched nofun nofun (writes_nil _) (hk.star hR)⟩
  · refine ⟨now, (update_inv hk hrun₁).prepend (t := [⟨.now, now⟩]) ?_ ?_ (hk.star hR)⟩
    · intro h
      cases List.mem_singleton.mp h
    · rintro d ⟨text, h⟩
      cases List.mem_singleton.mp h

/-- A successful update. -/
lemma update_ok {f : ContainerState → ContainerState} {u : Unit}
    (hk : Keeps R (ContainerStateDir.forId env id).stateFile)
    (hrun : Runs R (update env id f) h tr (some (.ok u)) h') :
    ∃ st, h.record env id = some st ∧ h'.record env id = some (f st) ∧
      ∀ d, Writes tr (ContainerStateDir.forId env id).stateFile d ↔ d = .state (f st) := by
  cases update_inv hk hrun with
  | untouched hout _ _ _ => exact absurd rfl hout
  | torn _ hout _ _ _ => exact absurd rfl hout
  | done hst _ _ hw hrec => exact ⟨_, hst, hrec, hw⟩

end

end Mincontainer
