import Mincontainer.Engine.Reconcile
import Mincontainer.Engine.Unpacking

set_option relaxedAutoImplicit false
set_option autoImplicit false

/-!
# How a failing restore leaves the host

The undo list of a restore runs on two of its ways out only: when the engine fails, and when a
check or a command after it fails. Everything that fails between the first file in the staging
directory and the engine leaves that directory, and from the mark on the status *restoring*; what
fails in the commit leaves a running tree.

## Main definitions

* `Mincontainer.Restore.RolledBack` — nothing that a restore brought about is left.
* `Mincontainer.Restore.Undone` — the ways out on which that holds, in terms of the calls made and
  their replies.

## Main results

* `Mincontainer.Restore.restore_error_rolls_back` — on these ways out everything is rolled back.
* `Mincontainer.Restore.restore_error_leaks` — a commit that fails leaves the rest.
-/

namespace Mincontainer

open Effects Files Bytes Snapshot

namespace Restore

/-- The event delegates cgroup controllers. -/
def delegates : HostSig.Event → Bool
  | ⟨.delegate, _⟩ => true
  | _ => false

/-- The engine ran. -/
def engine (e : HostSig.Event) : Bool := e.1.starts

/-- The cgroup leaf that a run asked for: the directory it created right after it delegated the
controllers. -/
def leafOf (tr : List HostSig.Event) : Option Path :=
  match since delegates tr with
  | _ :: ⟨.mkdirAll p, _⟩ :: _ => some p
  | _ => none

/-- A failed restore has left nothing behind: the record does not say *restoring*, no tree that
the engine brought up is alive, the leaf that it created is gone, unless others are in it, and so
are its veth and the staging directory. -/
structure RolledBack (env : Env) (id : String) (h : Host) (tr : List HostSig.Event) (h' : Host) :
    Prop where
  status : ∀ st, h'.record env id = some st → st.is .restoring = false
  trees : ∀ owner opts pid readback,
    ⟨.criuRestore owner opts, EngineRestore.up pid readback⟩ ∈ tr → h'.alive pid = false
  leaf : ∀ leaf, leafOf tr = some leaf → h.Hollow leaf none → (∀ e ∈ tr, OwnCall leaf e) →
    h'.kind leaf = none
  veth : ∀ name peer, ⟨.net (.linkAddVeth name peer), (.ok () : Except String Unit)⟩ ∈ tr →
    h'.hasLink name = false
  staging : h'.kind (ContainerStateDir.forId env id).stagingDir = none

/-- The ways out of a failing restore that roll back. -/
structure Undone (env : Env) (id : String) (h : Host) (tr : List HostSig.Event) : Prop where
  /-- A staging directory that was there before was removed. -/
  swept : h.Absent (ContainerStateDir.forId env id).stagingDir ∨
    ⟨.removeDirAll (ContainerStateDir.forId env id).stagingDir, ()⟩ ∈ tr
  /-- A record that said *restoring* before was rewritten. -/
  settled : (∀ st, h.record env id = some st → st.is .restoring = false) ∨
    Truncates tr (ContainerStateDir.forId env id).stateFile
  /-- Once the staging directory was made, nothing failed before the engine. -/
  reached : ⟨.mkdirAll (ContainerStateDir.forId env id).stagingDir,
      (.ok () : Except (Nat × String) Unit)⟩ ∈ tr → ∃ e ∈ tr, engine e = true
  /-- The pidfile of a tree that came up was readable. -/
  answered : ∀ owner opts pid msg,
    ⟨.criuRestore owner opts, EngineRestore.up pid (.error msg)⟩ ∉ tr
  /-- A veth that was created was moved. -/
  moved : ∀ name peer, ⟨.net (.linkAddVeth name peer), (.ok () : Except String Unit)⟩ ∈ tr →
    ∃ p q, ⟨.net (.linkSetNetns p q), (.ok () : Except String Unit)⟩ ∈ tr
  /-- Once the engine ran, the record was put back. -/
  putBack : (∃ e ∈ tr, engine e = true) → ∃ st : ContainerState, st.is .checkpointed = true ∧
    Writes (since engine tr) (ContainerStateDir.forId env id).stateFile (.state st)

section

variable {env : Env} {codec : Codec Manifest} {id : String} {opts : Options} {h h' : Host}
  {tr : List HostSig.Event}

/-! ### Before the engine -/

lemma leafOf_append {tr₁ tr₂ : List HostSig.Event} (hno : ∀ e ∈ tr₁, delegates e = false) :
    leafOf (tr₁ ++ tr₂) = leafOf tr₂ := by
  rw [leafOf, since_append hno, leafOf]

lemma leafOf_eq_none {tr : List HostSig.Event} (hno : ∀ e ∈ tr, delegates e = false) :
    leafOf tr = none := by
  rw [leafOf, since_eq_nil hno]

/-- The calls before the engine: no tree comes up, nobody moves, and no link is made or moved. -/
structure Early (o : HostOp) : Prop where
  starts : o.starts = false
  joins : o.joins = false
  plugs : o.plugs = false
  move : ∀ p q, o ≠ .net (.linkSetNetns p q)

lemma early_of_plain {o : HostOp} (ho : o.plain = true) : Early o :=
  ⟨HostOp.starts_of_plain ho, HostOp.joins_of_plain ho, HostOp.plugs_of_plain ho, by
    rintro p q rfl
    cases ho⟩

lemma early_of_reads {o : HostOp} (ho : o.reads = true) : Early o :=
  early_of_plain (HostOp.plain_of_reads ho)

lemma early_sweep : AllowsSweep Early env id where
  reads _ := early_of_reads
  kill _ := ⟨rfl, rfl, rfl, by simp⟩
  leaf _ := early_of_plain rfl
  link _ := ⟨rfl, rfl, rfl, by simp⟩
  staging := early_of_plain rfl
  create := early_of_plain rfl
  put _ := early_of_plain rfl

/-- The events of such calls. -/
structure EarlyTrace (tr : List HostSig.Event) : Prop where
  engine : ∀ e ∈ tr, engine e = false
  veth : ∀ name peer, ⟨.net (.linkAddVeth name peer), (.ok () : Except String Unit)⟩ ∉ tr
  move : ∀ p q, ⟨.net (.linkSetNetns p q), (.ok () : Except String Unit)⟩ ∉ tr

lemma EarlyTrace.append {tr₁ tr₂ : List HostSig.Event} (h₁ : EarlyTrace tr₁)
    (h₂ : EarlyTrace tr₂) : EarlyTrace (tr₁ ++ tr₂) where
  engine e he := (List.mem_append.mp he).elim (h₁.engine e) (h₂.engine e)
  veth n p he := (List.mem_append.mp he).elim (h₁.veth n p) (h₂.veth n p)
  move p q he := (List.mem_append.mp he).elim (h₁.move p q) (h₂.move p q)

lemma early_trace {α : Type} {x : HostM α} {out : Option (Except RuntimeError α)}
    (hx : x.run.Within Early) (hrun : Runs Host.Exits x h tr out h') : EarlyTrace tr where
  engine e he := (Exec.mem_within hx hrun e he).starts
  veth name peer he := by cases (Exec.mem_within hx hrun _ he).plugs
  move p q he := (Exec.mem_within hx hrun _ he).move p q rfl

lemma EarlyTrace.not_starts {tr : List HostSig.Event} (ht : EarlyTrace tr) {owner : String}
    {o : RestoreOptions} {r : EngineRestore} : ⟨.criuRestore owner o, r⟩ ∉ tr := fun he => by
  cases ht.engine _ he

/-- A program that delegates no controllers leaves no such event. -/
lemma no_delegate {α : Type} {x : HostM α} {out : Option (Except RuntimeError α)}
    (hx : x.run.Within fun o : HostOp => o ≠ .delegate) (hrun : Runs Host.Exits x h tr out h') :
    ∀ e ∈ tr, delegates e = false := by
  rintro ⟨o, r⟩ he
  have ho := Exec.mem_within hx hrun _ he
  cases o with
  | delegate => exact absurd rfl ho
  | _ => rfl

/-- A run that ended early has rolled back when the record and the staging directory are clear. -/
lemma EarlyTrace.rolledBack (ht : EarlyTrace tr) (hno : ∀ e ∈ tr, delegates e = false)
    (hstatus : ∀ st, h'.record env id = some st → st.is .restoring = false)
    (hstaging : h'.Absent (ContainerStateDir.forId env id).stagingDir) :
    RolledBack env id h tr h' where
  status := hstatus
  trees _ _ _ _ he := absurd he ht.not_starts
  leaf leaf hleaf := by
    rw [leafOf_eq_none hno] at hleaf
    cases hleaf
  veth name peer he := absurd he (ht.veth name peer)
  staging := hstaging.kind

/-! ### Selecting -/

lemma staging_ne_stateFile (dir : ContainerStateDir) : dir.stagingDir ≠ dir.stateFile := by
  simp [ContainerStateDir.stagingDir, ContainerStateDir.stateFile]

lemma staging_not_prefix_stateFile (dir : ContainerStateDir) : ¬ dir.stagingDir <+: dir.stateFile := by
  rw [ContainerStateDir.stagingDir, ContainerStateDir.stateFile, List.prefix_append_right_inj]
  decide

lemma spares_sweep : AllowsSweep (HostOp.Spares (ContainerStateDir.forId env id).stagingDir) env id where
  reads _ := HostOp.spares_of_reads
  kill _ := .inr fun h => h
  leaf _ := .inl rfl
  link _ := .inr fun h => h
  staging := .inl rfl
  create := .inr (staging_ne_stateFile _)
  put _ := .inr (staging_ne_stateFile _)

/-- The record after the selection, wherever it stopped. -/
lemma select_record {out : Option (Except RuntimeError (PathBuf × SnapshotReader))}
    (hrun : Runs Host.Exits (select env codec id opts) h tr out h') :
    (¬ Truncates tr (ContainerStateDir.forId env id).stateFile ∧
        ∀ st', h'.record env id = some st' → h.record env id = some st') ∨
      ∀ st', h'.record env id = some st' → Swept st' := by
  have hk : Keeps Host.Exits (ContainerStateDir.forId env id).stateFile := keeps_exits _
  rcases Exec.fallible_bind_inv hrun with ⟨-, h₁⟩ | ⟨e, -, h₁⟩ | ⟨u, tr₁, tr₂, g, rfl, h₁, hrun₁⟩
  · exact reconcile_record hk h₁
  · exact reconcile_record hk h₁
  have hreads : ∀ e ∈ tr₂, e.1.reads = true := by
    refine Exec.mem_within (P := fun o : HostOp => o.reads = true) ?_ hrun₁
    refine Fallible.within_bind refuseRunning_reads fun st => ?_
    refine Fallible.within_bind (resolveSnapshot_reads _ _ _) fun path => ?_
    exact Fallible.within_bind (examine_reads _ _) fun _ => trivial
  have hrec : h'.record env id = g.record env id :=
    Host.record_congr (hk.star (Runs.star_of_reads hrun₁ hreads))
  rw [hrec]
  refine (reconcile_record hk h₁).imp (fun ⟨hno, hin⟩ => ⟨fun ht => ?_, hin⟩) fun h => h
  rcases Truncates.append_iff.mp ht with ht | ht
  · exact hno ht
  · cases hreads _ ht

/-- A record that is not *restoring*, or was rewritten, is not *restoring* after the selection. -/
lemma select_status {out : Option (Except RuntimeError (PathBuf × SnapshotReader))}
    (hrun : Runs Host.Exits (select env codec id opts) h tr out h')
    (hsettled : (∀ st, h.record env id = some st → st.is .restoring = false) ∨
      Truncates tr (ContainerStateDir.forId env id).stateFile) :
    ∀ st, h'.record env id = some st → st.is .restoring = false := by
  intro st hst
  rcases select_record hrun with ⟨hno, hin⟩ | hswept
  · exact hsettled.resolve_right hno st (hin st hst)
  · rcases (hswept st hst).2 with hs | hs <;> simp [ContainerState.is, hs]

/-! ### Unpacking -/

/-- A directory that could not be made is not there. -/
lemma mkdirAll_error {p : Path} {f : String → RuntimeError} {e : RuntimeError}
    (hrun : Runs Host.Exits (mkdirAll p f) h tr (some (.error e)) h') (ha : h.Absent p) :
    h'.Absent p := by
  obtain ⟨g, r, tr₁, hR, hr, rfl, hrun₁⟩ := Exec.call_some_inv hrun
  rcases r with ⟨k, msg⟩ | u
  · obtain ⟨rfl, hR₁, -⟩ := Exec.ret_some_inv hrun₁
    have hk : k < p.length := (Host.enabled_mkdirAll_error.mp hr).1
    have hag := absent_of_star hR ha
    refine absent_of_star hR₁ ?_
    change (g.fs.mkdirAll (p.take k)).get p = none
    rw [Tree.get_mkdirAll, if_neg fun hp => ?_]
    · exact hag
    · have := hp.1.length_le
      simp only [List.length_take] at this
      omega
  · obtain ⟨-, -, hres⟩ := Exec.ret_some_inv hrun₁
    cases hres

lemma mkdirAll_made {R : Host → Host → Prop} {p : Path} {f : String → RuntimeError} {u : Unit}
    (hrun : Runs R (mkdirAll p f) h tr (some (.ok u)) h') :
    ⟨.mkdirAll p, (.ok () : Except (Nat × String) Unit)⟩ ∈ tr := by
  obtain ⟨g, r, tr₁, hR, hr, rfl, hrun₁⟩ := Exec.call_some_inv hrun
  rcases r with ⟨k, msg⟩ | u
  · obtain ⟨-, -, hres⟩ := Exec.ret_some_inv hrun₁
    cases hres
  · exact List.mem_cons_self

/-- Unpacking that returned has made the staging directory, or left none. -/
lemma unpack_made {reader : SnapshotReader} {staging : Path} {res : Except RuntimeError Unit}
    (hrun : Runs Host.Exits (unpack reader staging) h tr (some res) h') :
    ⟨.mkdirAll staging, (.ok () : Except (Nat × String) Unit)⟩ ∈ tr ∨
      ((∃ e, res = .error e) ∧ h'.Absent staging) := by
  obtain ⟨g, u, tr₁, hR, -, rfl, hrun₁⟩ := Exec.call_some_inv hrun
  have hgone : (machine.next g (.removeDirAll staging) u).Absent staging :=
    Host.absent_removeDirAll u
  have hextract : ∀ {tr res} {g' : Host}, Runs Host.Exits (reader.extractAll staging)
      (machine.next g (.removeDirAll staging) u) tr (some res) g' →
      ⟨.mkdirAll staging, (.ok () : Except (Nat × String) Unit)⟩ ∈ tr ∨
        ((∃ e, res = .error e) ∧ g'.Absent staging) := fun hrun => by
    rcases Exec.fallible_bind_inv hrun with ⟨hout, -⟩ | ⟨e, hout, hmk⟩ | ⟨u, tr₂, tr₃, g₁, rfl, hmk, -⟩
    · cases hout
    · exact .inr ⟨⟨e, Option.some.inj hout⟩, mkdirAll_error hmk hgone⟩
    · exact .inl (List.mem_append_left _ (mkdirAll_made hmk))
  rcases Exec.fallible_bind_inv hrun₁ with ⟨hout, -⟩ | ⟨e, hout, hex⟩ | ⟨u', tr₂, tr₃, g₁, rfl, hex, -⟩
  · cases hout
  · refine (hextract hex).imp (fun h => List.mem_cons_of_mem _ h) fun h => ⟨⟨e, ?_⟩, h.2⟩
    exact Option.some.inj hout
  · rcases hextract hex with h | ⟨⟨e, he⟩, -⟩
    · exact .inl (List.mem_cons_of_mem _ (List.mem_append_left _ h))
    · cases he

/-! ### Building -/

/-- A leaf that was created is the directory made right after the controllers were delegated. -/
lemma create_ok {R : Host → Host → Prop} {i : String} {c : Cgroup}
    (hrun : Runs R (Cgroup.create i) h tr (some (.ok c)) h') :
    c = Cgroup.open i ∧ ∀ tr₂, leafOf (tr ++ tr₂) = some (Cgroup.open i).path := by
  obtain ⟨g, r, tr₁, -, -, rfl, hrun₁⟩ := Exec.call_some_inv hrun
  rcases r with e | u
  · obtain ⟨-, -, hres⟩ := Exec.ret_some_inv hrun₁
    cases hres
  obtain ⟨g₁, r, tr₂, -, -, rfl, hrun₂⟩ := Exec.call_some_inv hrun₁
  rcases r with ⟨k, msg⟩ | u
  · obtain ⟨-, -, hres⟩ := Exec.ret_some_inv hrun₂
    cases hres
  · obtain ⟨rfl, -, hres⟩ := Exec.ret_some_inv hrun₂
    exact ⟨Except.ok.inj hres, fun tr₂ => rfl⟩

lemma build_ok {cfg : ContainerConfig} {dir : ContainerStateDir} {cgroup : Cgroup}
    (hrun : Runs Host.Exits (build env cfg dir) h tr (some (.ok cgroup)) h') :
    cgroup = Cgroup.open cfg.id ∧ ∀ tr₂, leafOf (tr ++ tr₂) = some (Cgroup.open cfg.id).path := by
  have hstage := within_stage env cfg dir (P := fun o : HostOp => o ≠ .delegate)
    (fun o ho => by rintro rfl; cases ho) (by simp) fun name => ⟨by simp, by simp, by simp⟩
  obtain ⟨u, tr₁, tr₂, h₁, rfl, hio, hrun₁⟩ := Exec.fallible_bind_ok hrun
  obtain ⟨u, tr₃, tr₄, h₂, rfl, hmounts, hrun₂⟩ := Exec.fallible_bind_ok hrun₁
  obtain ⟨c, tr₅, tr₆, h₃, rfl, hcreate, hrun₃⟩ := Exec.fallible_bind_ok hrun₂
  obtain ⟨u, tr₇, tr₈, h₄, rfl, -, hrun₄⟩ := Exec.fallible_bind_ok hrun₃
  obtain ⟨rfl, -, hres⟩ := Exec.ret_some_inv hrun₄
  obtain rfl := Except.ok.inj hres
  obtain ⟨rfl, hleaf⟩ := create_ok hcreate
  refine ⟨rfl, fun tr => ?_⟩
  rw [List.append_assoc, List.append_assoc, List.append_assoc,
    leafOf_append (no_delegate hstage.1 hio),
    leafOf_append (no_delegate hstage.2 hmounts)]
  exact hleaf _

/-! ### After the engine -/

/-- Putting the record back leaves everything else. -/
lemma putBack_keeps {f : ContainerState → ContainerState} {out : Option (Except RuntimeError Unit)}
    {p : Path} (hrun : Runs Host.Exits (update env id f) h tr out h')
    (hp : p ≠ (ContainerStateDir.forId env id).stateFile) (ha : h.Absent p) : h'.Absent p :=
  Runs.absent (within_update (fun _ => HostOp.spares_of_reads) (.inr hp) fun _ => .inr hp) hrun ha

/-- Putting the record back creates nothing at a leaf. -/
lemma putBack_leaf {f : ContainerState → ContainerState} {out : Option (Except RuntimeError Unit)}
    {leaf : Path} (hrun : Runs Host.Exits (update env id f) h tr out h')
    (hown : ∀ e ∈ tr, OwnCall leaf e) (ha : h.Absent leaf) : h'.Absent leaf := by
  refine Exec.invariant (I := fun g => Host.Absent leaf g) (G := OwnCall leaf)
    (P := fun o : HostOp => o ≠ .mkdirAll leaf ∧ o ≠ .removeDir leaf) (fun w o r ho hgood _ hw => ?_)
    (fun _ _ ⟨_, hb⟩ ha => hb ▸ ha) (within_update (fun o ho => ?_) ?_ fun d => ?_) hrun hown ha
  · refine Host.Absent.next (h := w) (.inr fun ht => ?_) r hw
    exact (hgood leaf List.prefix_rfl ht).elim ho.1 ho.2
  · constructor <;> · rintro rfl; cases ho
  · exact ⟨(fun h => nomatch h), (fun h => nomatch h)⟩
  · exact ⟨(fun h => nomatch h), (fun h => nomatch h)⟩

/-- What is left after a completed way out that put the record back: nothing. -/
structure Cleared (env : Env) (id : String) (rb : Rollback) (h : Host) (tr : List HostSig.Event)
    (h' : Host) : Prop where
  record : ∃ st : ContainerState, h'.record env id = some st ∧ st.is .checkpointed = true
  staging : h'.Absent (ContainerStateDir.forId env id).stagingDir
  tree : ∀ pid, rb.pid = some pid → h'.alive pid = false
  veth : ∀ pid name, rb.pid = some pid → h.Wired name pid → h'.hasLink name = false
  leaf : ∀ cg, rb.cgroup = some cg → h.Hollow (Cgroup.open cg).path rb.pid →
    (∀ e ∈ tr, OwnCall (Cgroup.open cg).path e) → h'.Absent (Cgroup.open cg).path

/-- **Undoing, then putting the record back.** -/
lemma undo_cleared {α : Type} {rb : Rollback} {e : RuntimeError}
    {out : Option (Except RuntimeError α)} (harmed : rb.armed = true) (hnet : rb.network = none)
    (hid : rb.id = id) (hrun : Runs Host.Exits (undo env id rb e : HostM α) h tr out h')
    (hput : ∃ d, Writes tr (ContainerStateDir.forId env id).stateFile d) :
    Cleared env id rb h tr h' := by
  obtain ⟨d, hput⟩ := hput
  have hnoput : ∀ {tr out} {g : Host}, Runs Host.Exits (rb.run env) h tr out g →
      ¬ Writes tr (ContainerStateDir.forId env id).stateFile d := fun hrun =>
    not_writes (within_rollback (fun o ho => by rintro rfl; cases ho) (fun _ h => nomatch h)
      (fun _ _ h => nomatch h) (fun _ _ h => nomatch h) (fun h => nomatch h)) hrun
  rcases undo_inv harmed hnet hrun with ⟨-, hcut⟩ | ⟨tr₁, tr₂, h₁, r, rfl, hrb, hset, -⟩
  · exact absurd hput (hnoput hcut)
  replace hput := (Writes.append_iff.mp hput).resolve_left (hnoput hrb)
  obtain ⟨-, hstaging, htree, hveth, hleaf⟩ := rollback_ok harmed hnet hid hrb
  refine ⟨?_, putBack_keeps hset (staging_ne_stateFile _) hstaging, fun pid hpid => ?_,
    fun pid name hpid hw => ?_, fun cg hcg hh hown => ?_⟩
  · cases update_inv (keeps_exits _) hset with
    | untouched _ _ hw _ => exact absurd hput (hw d)
    | torn _ _ _ hw _ => exact absurd hput (hw d)
    | done _ _ _ _ hrec => exact ⟨_, hrec, by simp [ContainerState.is]⟩
  · exact Runs.dead (within_update (fun _ => HostOp.starts_of_reads) rfl fun _ => rfl) hset
      (htree pid hpid)
  · exact Runs.unlinked (within_update (fun _ => HostOp.plugs_of_reads) rfl fun _ => rfl) hset
      (hveth pid name hpid hw)
  · exact putBack_leaf hset (fun e he => hown e (List.mem_append_right _ he))
      (hleaf cg hcg hh fun e he => hown e (List.mem_append_left _ he))

lemma undo_early {α : Type} {rb : Rollback} {e : RuntimeError} (hid : rb.id = id) :
    (undo env id rb e : HostM α).run.Within Early :=
  within_undo early_sweep hid

/-- **A failure from the engine on.** If the pidfile was readable, a veth that was created was
moved, and the record was put back, then nothing is left. -/
lemma revive_error {path : PathBuf} {m : Manifest} {cgroup : Cgroup} {e : RuntimeError}
    (hrun : Runs Host.Exits (revive env id opts path m cgroup) h tr (some (.error e)) h')
    (hanswered : ∀ owner opts pid msg,
      ⟨.criuRestore owner opts, EngineRestore.up pid (.error msg)⟩ ∉ tr)
    (hmoved : ∀ name peer, ⟨.net (.linkAddVeth name peer), (.ok () : Except String Unit)⟩ ∈ tr →
      ∃ p q, ⟨.net (.linkSetNetns p q), (.ok () : Except String Unit)⟩ ∈ tr)
    (hput : ∃ st : ContainerState, st.is .checkpointed = true ∧
      Writes (since engine tr) (ContainerStateDir.forId env id).stateFile (.state st)) :
    (∃ st : ContainerState, h'.record env id = some st ∧ st.is .checkpointed = true) ∧
      h'.Absent (ContainerStateDir.forId env id).stagingDir ∧
      (∀ owner opts pid readback,
        ⟨.criuRestore owner opts, EngineRestore.up pid readback⟩ ∈ tr → h'.alive pid = false) ∧
      (∀ name peer, ⟨.net (.linkAddVeth name peer), (.ok () : Except String Unit)⟩ ∈ tr →
        h'.hasLink name = false) ∧
      (h.Hollow (Cgroup.open m.config.id).path none →
        (∀ e ∈ tr, OwnCall (Cgroup.open m.config.id).path e) →
        h'.Absent (Cgroup.open m.config.id).path) := by
  obtain ⟨st, hst, hput⟩ := hput
  rcases revive_inv hrun with ⟨hout, -⟩ | ⟨h₁, r, tr₂, hrm, hr, rfl, hend⟩
  · cases hout
  have hsince : ∀ {d}, Writes (since engine (⟨.removeFile (engineOptions m.config
      (ContainerStateDir.forId env id) opts).pidfile, ()⟩ :: ⟨.criuRestore id (engineOptions m.config
        (ContainerStateDir.forId env id) opts), r⟩ :: tr₂))
      (ContainerStateDir.forId env id).stateFile d →
      Writes tr₂ (ContainerStateDir.forId env id).stateFile d := by
    rintro d ⟨text, hmem⟩
    refine ⟨text, ?_⟩
    simpa [since, engine, HostOp.starts] using hmem
  replace hput := hsince hput
  -- the leaf is nobody's when the engine is done
  have hhollow : h.Hollow (Cgroup.open m.config.id).path none →
      (∀ e ∈ (⟨.removeFile (engineOptions m.config (ContainerStateDir.forId env id) opts).pidfile,
        ()⟩ :: ⟨.criuRestore id (engineOptions m.config
          (ContainerStateDir.forId env id) opts), r⟩ :: tr₂ : List HostSig.Event),
        OwnCall (Cgroup.open m.config.id).path e) →
      (h₁.next (.criuRestore id (engineOptions m.config (ContainerStateDir.forId env id) opts)) r
        ).Hollow (Cgroup.open m.config.id).path none := fun hh hown => by
    refine Host.Hollow.next (Runs.hollow ((within_sys (.removeFile _)).mpr rfl) hrm
      (fun e he => hown e ?_) hh) rfl (hown _ ?_)
    · rw [List.mem_singleton.mp he]
      exact List.mem_cons_self
    · exact List.mem_cons_of_mem _ List.mem_cons_self
  rcases hend with ⟨pid, rfl, hfinish⟩ | ⟨⟨msg, rfl | ⟨pid, rfl⟩⟩, e', hundo⟩
  · rcases finish_inv hfinish with ⟨hout, -⟩ | ⟨tr₃, tr₄, h₃, rfl, ⟨e', hwire, hundo⟩ | ⟨net, hwire, hcommit⟩⟩
    · cases hout
    · -- the wiring failed
      have hstarts : (wire m.config cgroup pid opts.index).run.Within fun o : HostOp =>
          o.starts = false :=
        within_wire (fun _ => HostOp.starts_of_reads) rfl fun _ => rfl
      obtain ⟨hrec, hstaging, htree, hveth, hleaf⟩ := undo_cleared rfl rfl rfl hundo
        ⟨_, (Writes.append_iff.mp hput).resolve_left (wire_no_put hwire _ _)⟩
      have hearly := early_trace (undo_early rfl) hundo
      refine ⟨hrec, hstaging, fun owner o p rb hmem => ?_, fun name peer hadd => ?_,
        fun hh hown => ?_⟩
      · rcases List.mem_cons.mp hmem with hmem | hmem
        · cases hmem
        rcases List.mem_cons.mp hmem with hmem | hmem
        · cases hmem
          exact htree _ rfl
        rcases List.mem_append.mp hmem with hmem | hmem
        · cases Exec.mem_within hstarts hwire _ hmem
        · exact absurd hmem hearly.not_starts
      · have hin : ∀ {c : NetCommand}, (⟨.net c, (.ok () : Except String Unit)⟩ : HostSig.Event) ∉ tr₄ →
            (⟨.net c, (.ok () : Except String Unit)⟩ : HostSig.Event) ∈ (⟨.removeFile
              (engineOptions m.config (ContainerStateDir.forId env id) opts).pidfile, ()⟩ ::
              ⟨.criuRestore id (engineOptions m.config (ContainerStateDir.forId env id) opts),
                EngineRestore.up pid (.ok pid)⟩ :: (tr₃ ++ tr₄) : List HostSig.Event) →
            (⟨.net c, (.ok () : Except String Unit)⟩ : HostSig.Event) ∈ tr₃ := fun hno hmem => by
          rcases List.mem_cons.mp hmem with hmem | hmem
          · cases hmem
          rcases List.mem_cons.mp hmem with hmem | hmem
          · cases hmem
          exact (List.mem_append.mp hmem).resolve_right hno
        obtain ⟨p, q, hmv⟩ := hmoved name peer hadd
        obtain ⟨-, -, hwired⟩ := wire_veth hwire (hin (hearly.veth name peer) hadd)
        exact hveth pid name rfl (hwired ⟨p, q, hin (hearly.move p q) hmv⟩)
      · refine hleaf _ rfl (wire_hollow hwire (fun e he => hown e ?_) (hhollow hh hown))
          fun e he => hown e ?_
        · simp [he]
        · simp [he]
    · -- the commit failed: the records it writes say that the container runs
      replace hput := (Writes.append_iff.mp hput).resolve_left (wire_no_put hwire _ _)
      rcases Exec.fallible_bind_inv hcommit with ⟨hout, -⟩ | ⟨e', -, hc⟩ | ⟨u, tr₅, tr₆, h₄, rfl, -, hreport⟩
      · cases hout
      · obtain ⟨st', hd, hruns, -⟩ := (commit_inv (keeps_exits _) hc).2 _ hput
        obtain rfl := Doc.state.inj hd
        simp [ContainerState.is, hruns] at hst
      · obtain ⟨_, hok⟩ := Exec.total_ok report_total hreport
        cases hok
  · -- the engine failed
    obtain ⟨hrec, hstaging, htree, hveth, hleaf⟩ := undo_cleared rfl rfl rfl hundo ⟨_, hput⟩
    have hearly := early_trace (undo_early rfl) hundo
    refine ⟨hrec, hstaging, fun owner o p rb hmem => ?_, fun name peer hadd => ?_,
      fun hh hown => ?_⟩
    · rcases List.mem_cons.mp hmem with hmem | hmem
      · cases hmem
      rcases List.mem_cons.mp hmem with hmem | hmem
      · cases hmem
      · exact absurd hmem hearly.not_starts
    · rcases List.mem_cons.mp hadd with hmem | hmem
      · cases hmem
      rcases List.mem_cons.mp hmem with hmem | hmem
      · cases hmem
      · exact absurd hmem (hearly.veth name peer)
    · exact hleaf _ rfl (hhollow hh hown) fun e he => hown e (by simp [he])
  · exact absurd (List.mem_cons_of_mem _ List.mem_cons_self) (hanswered _ _ pid msg)

/-! ### The phases before the engine -/

lemma sweep_no_delegate : AllowsSweep (fun o : HostOp => o ≠ .delegate) env id where
  reads o ho := by
    rintro rfl
    cases ho
  kill _ := by simp
  leaf _ := by simp
  link _ := by simp
  staging := by simp
  create := by simp
  put _ := by simp

lemma unpack_plain {reader : SnapshotReader} {staging : Path} :
    (unpack reader staging).run.Within fun o : HostOp => o.plain = true :=
  within_unpack fun _ ho => ho.plain

lemma mark_plain {s : Status} :
    (setStatus env id s).run.Within fun o : HostOp => o.plain = true :=
  within_update (fun _ => HostOp.plain_of_reads) rfl fun _ => rfl

lemma not_delegate_of_plain {o : HostOp} (ho : o.plain = true) : o ≠ .delegate := by
  rintro rfl
  cases ho

lemma build_early {cfg : ContainerConfig} {dir : ContainerStateDir} :
    (build env cfg dir).run.Within Early :=
  within_build (fun _ => early_of_reads) (fun _ => early_of_plain rfl)
    (fun _ => ⟨early_of_plain rfl, fun _ => early_of_plain rfl, early_of_plain rfl⟩)
    ⟨rfl, rfl, rfl, by simp⟩ fun _ _ _ => ⟨rfl, rfl, rfl, by simp⟩

/-- Unpacking keeps the record. -/
lemma unpack_record {reader : SnapshotReader} {out : Option (Except RuntimeError Unit)}
    (hrun : Runs Host.Exits (unpack reader (ContainerStateDir.forId env id).stagingDir) h tr out h') :
    ¬ Truncates tr (ContainerStateDir.forId env id).stateFile ∧
      h'.record env id = h.record env id := by
  have hsf : ∀ o, StaysBelow (ContainerStateDir.forId env id).stagingDir o →
      ¬ o.overwrites (ContainerStateDir.forId env id).stateFile := fun o ho hw =>
    staging_not_prefix_stateFile _ (ho.overwrites _ hw)
  refine ⟨not_truncates (within_unpack fun o ho => ?_) hrun,
    Host.record_congr (Runs.file_kept (keeps_exits _) (within_unpack hsf) hrun)⟩
  rintro rfl
  exact hsf _ ho rfl

/-- **Error paths of a restore.** A restore that returns an error on one of the ways out described
by `Undone` has rolled back: the record does not say *restoring*, no restored tree is alive, and
the leaf, the veth and the staging directory are gone.

**Proof sketch.** Up to the unpacking nothing exists that would have to be undone. Between the
staging directory and the engine no way out qualifies. From the engine on, the undo list kills the
tree, which takes its veth along and empties the leaf; then the leaf and the directory go, and the
record is put back. -/
theorem restore_error_rolls_back {e : RuntimeError} (hundone : Undone env id h tr)
    (hrun : Runs Host.Exits (restore env codec id opts) h tr (some (.error e)) h') :
    RolledBack env id h tr h' := by
  obtain ⟨hswept, hsettled, hreached, hanswered, hmoved, hput⟩ := hundone
  -- selecting
  have hselect : ∀ {tr out} {g : Host}, Runs Host.Exits (select env codec id opts) h tr out g →
      EarlyTrace tr ∧ ∀ e ∈ tr, delegates e = false := fun hrun =>
    ⟨early_trace (within_select early_sweep) hrun, no_delegate (within_select sweep_no_delegate) hrun⟩
  rcases Exec.fallible_bind_inv hrun with ⟨hout, -⟩ | ⟨e', -, hsel⟩ |
    ⟨⟨path, reader⟩, tr₁, tr₂, h₁, rfl, hsel, hrun₁⟩
  · cases hout
  · refine (hselect hsel).1.rolledBack (hselect hsel).2 (select_status hsel hsettled) ?_
    rcases hswept with ha | hmem
    · exact Runs.absent (within_select spares_sweep) hsel ha
    · exact Runs.absent_of_removeAll (within_select spares_sweep) hsel hmem
  obtain ⟨hearly₁, hnod₁⟩ := hselect hsel
  -- unpacking
  have hunpack : ∀ {tr out} {g : Host}, Runs Host.Exits
      (unpack reader (ContainerStateDir.forId env id).stagingDir) h₁ tr out g →
      EarlyTrace tr ∧ ∀ e ∈ tr, delegates e = false := fun hrun =>
    ⟨early_trace (unpack_plain.mono fun _ => early_of_plain) hrun,
      no_delegate (unpack_plain.mono fun _ => not_delegate_of_plain) hrun⟩
  rcases Exec.fallible_bind_inv hrun₁ with ⟨hout, -⟩ | ⟨e', -, hunp⟩ |
    ⟨u, tr₃, tr₄, h₂, rfl, hunp, hrun₂⟩
  · cases hout
  · have hearly := hearly₁.append (hunpack hunp).1
    have hnomk : ⟨.mkdirAll (ContainerStateDir.forId env id).stagingDir,
        (.ok () : Except (Nat × String) Unit)⟩ ∉ tr₂ := fun hmem => by
      obtain ⟨e, he, hengine⟩ := hreached (List.mem_append_right _ hmem)
      rw [hearly.engine e he] at hengine
      cases hengine
    refine hearly.rolledBack ?_ (fun st hst => ?_) ((unpack_made hunp).resolve_left hnomk).2
    · exact fun e he => (List.mem_append.mp he).elim (hnod₁ e) ((hunpack hunp).2 e)
    · obtain ⟨hnot, hrec⟩ := unpack_record hunp
      rw [hrec] at hst
      refine select_status hsel (hsettled.imp_right fun ht => ?_) st hst
      exact (Truncates.append_iff.mp ht).resolve_right hnot
  obtain ⟨hearly₃, hnod₃⟩ := hunpack hunp
  have hmade : ⟨.mkdirAll (ContainerStateDir.forId env id).stagingDir,
      (.ok () : Except (Nat × String) Unit)⟩ ∈ tr₃ :=
    (unpack_made hunp).resolve_right fun ⟨⟨_, h⟩, _⟩ => by cases h
  obtain ⟨e₀, he₀, hengine⟩ := hreached (by simp [hmade])
  -- nothing may fail from here to the engine
  have hdead : ∀ {tr : List HostSig.Event}, EarlyTrace tr → e₀ ∉ tr := fun ht hmem => by
    rw [ht.engine e₀ hmem] at hengine
    cases hengine
  replace he₀ := (List.mem_append.mp ((List.mem_append.mp he₀).resolve_left
    (hdead hearly₁))).resolve_left (hdead hearly₃)
  have hreads : (checkRootfs env reader.manifest.config).run.Within fun o : HostOp =>
      o.plain = true := (checkRootfs_reads _).mono fun _ => HostOp.plain_of_reads
  rcases Exec.fallible_bind_inv hrun₂ with ⟨hout, -⟩ | ⟨e', -, hroot⟩ |
    ⟨u, tr₅, tr₆, h₃, rfl, hroot, hrun₃⟩
  · cases hout
  · exact absurd he₀ (hdead (early_trace (hreads.mono fun _ => early_of_plain) hroot))
  have hearly₅ := early_trace (hreads.mono fun _ => early_of_plain) hroot
  rcases Exec.fallible_bind_inv hrun₃ with ⟨hout, -⟩ | ⟨e', -, hmark⟩ |
    ⟨u, tr₇, tr₈, h₄, rfl, hmark, hrun₄⟩
  · cases hout
  · exact absurd he₀ fun hmem => (List.mem_append.mp hmem).elim (hdead hearly₅)
      (hdead (early_trace (mark_plain.mono fun _ => early_of_plain) hmark))
  have hearly₇ := early_trace (mark_plain.mono fun _ => early_of_plain) hmark
  rcases Exec.fallible_bind_inv hrun₄ with ⟨hout, -⟩ | ⟨e', -, hbuild⟩ |
    ⟨cgroup, tr₉, tr₁₀, h₅, rfl, hbuild, hrevive⟩
  · cases hout
  · refine absurd he₀ fun hmem => ?_
    rcases List.mem_append.mp hmem with hmem | hmem
    · exact hdead hearly₅ hmem
    · exact (List.mem_append.mp hmem).elim (hdead hearly₇) (hdead (early_trace build_early hbuild))
  -- from the engine on
  have hpre : EarlyTrace (tr₁ ++ (tr₃ ++ (tr₅ ++ (tr₇ ++ tr₉)))) :=
    hearly₁.append (hearly₃.append (hearly₅.append (hearly₇.append (early_trace build_early hbuild))))
  have hsplit : tr₁ ++ (tr₃ ++ (tr₅ ++ (tr₇ ++ (tr₉ ++ tr₁₀)))) =
      (tr₁ ++ (tr₃ ++ (tr₅ ++ (tr₇ ++ tr₉)))) ++ tr₁₀ := by
    simp
  have hmem₀ : e₀ ∈ tr₁ ++ (tr₃ ++ (tr₅ ++ (tr₇ ++ (tr₉ ++ tr₁₀)))) :=
    List.mem_append_right _ (List.mem_append_right _ he₀)
  have hput₀ := hput ⟨e₀, hmem₀, hengine⟩
  rw [hsplit] at hmoved hput₀ hanswered ⊢
  rw [since_append hpre.engine] at hput₀
  obtain ⟨⟨st, hst, hchk⟩, hstaging, htrees, hveth, hleaf⟩ := revive_error hrevive
    (fun owner o pid msg hmem => hanswered owner o pid msg (List.mem_append_right _ hmem))
    (fun name peer hmem => by
      obtain ⟨p, q, hmv⟩ := hmoved name peer (List.mem_append_right _ hmem)
      exact ⟨p, q, (List.mem_append.mp hmv).resolve_left (hpre.move p q)⟩) hput₀
  refine ⟨fun st' hst' => ?_, fun owner o pid rb hmem => ?_, fun leaf hl hh hown => ?_,
    fun name peer hmem => ?_, hstaging.kind⟩
  · obtain rfl := Option.some.inj (hst.symm.trans hst')
    simp only [ContainerState.is_iff] at hchk
    simp [ContainerState.is, hchk]
  · exact htrees owner o pid rb ((List.mem_append.mp hmem).resolve_left hpre.not_starts)
  · have hnod : ∀ e ∈ tr₁ ++ (tr₃ ++ (tr₅ ++ tr₇)), delegates e = false := by
      have h₅ := no_delegate (hreads.mono fun _ => not_delegate_of_plain) hroot
      have h₇ := no_delegate (mark_plain.mono fun _ => not_delegate_of_plain) hmark
      intro e he
      simp only [List.mem_append] at he
      rcases he with he | he | he | he
      · exact hnod₁ e he
      · exact hnod₃ e he
      · exact h₅ e he
      · exact h₇ e he
    have hleafOf : leafOf ((tr₁ ++ (tr₃ ++ (tr₅ ++ (tr₇ ++ tr₉)))) ++ tr₁₀) =
        some (Cgroup.open reader.manifest.config.id).path := by
      rw [show (tr₁ ++ (tr₃ ++ (tr₅ ++ (tr₇ ++ tr₉)))) ++ tr₁₀ =
        (tr₁ ++ (tr₃ ++ (tr₅ ++ tr₇))) ++ (tr₉ ++ tr₁₀) by simp, leafOf_append hnod]
      exact (build_ok hbuild).2 _
    obtain rfl := Option.some.inj (hleafOf.symm.trans hl)
    refine Host.Absent.kind (hleaf ?_ fun e he => hown e (List.mem_append_right _ he))
    -- nobody moved into the leaf on the way to the engine
    have hkeep : ∀ {β : Type} {x : HostM β} {g g' : Host} {t : List HostSig.Event} {res},
        x.run.Within Early → Runs Host.Exits x g t res g' →
        (∀ e ∈ t, e ∈ (tr₁ ++ (tr₃ ++ (tr₅ ++ (tr₇ ++ tr₉)))) ++ tr₁₀) →
        g.Hollow (Cgroup.open reader.manifest.config.id).path none →
        g'.Hollow (Cgroup.open reader.manifest.config.id).path none := fun hx hrun hsub hh =>
      Runs.hollow (hx.mono fun _ ho => ho.joins) hrun (fun e he => hown e (hsub e he)) hh
    have h₁ := hkeep (within_select early_sweep) hsel (fun e he => by simp [he]) hh
    have h₂ := hkeep (unpack_plain.mono fun _ => early_of_plain) hunp (fun e he => by simp [he]) h₁
    have h₃ := hkeep (hreads.mono fun _ => early_of_plain) hroot (fun e he => by simp [he]) h₂
    have h₄ := hkeep (mark_plain.mono fun _ => early_of_plain) hmark (fun e he => by simp [he]) h₃
    exact hkeep build_early hbuild (fun e he => by simp [he]) h₄
  · exact hveth name peer ((List.mem_append.mp hmem).resolve_left (hpre.veth name peer))

end

/-! ### A full disk, and a failing engine -/

/-- From the moment the tree is up, the record cannot be written. -/
def fullOnceUp : ℕ → Host → (o : HostOp) → Option o.Reply
  | _, h, .createFile p =>
    if p = Demo.dir.stateFile ∧ h.procs ≠ [] then
      some (.error "No space left on device (os error 28)")
    else none
  | _, _, _ => none

/-- **A failing commit leaks the container.** The record cannot be written once the tree is up: the
restore returns an error, the restored tree is alive, the record says *restoring*, and the staging
directory is there. -/
theorem restore_error_leaks :
    ∃ tr e h', Runs quiet (restore Demo.env Demo.codec "web" Demo.restoreOptions) Demo.frozenHost tr
        (some (.error e)) h' ∧
      (h'.treesOf "web").length = 1 ∧ h'.kind Demo.dir.stagingDir = some .dir ∧
      ¬ RolledBack Demo.env "web" Demo.frozenHost tr h' := by
  have hdrive : ((machine.drive (departing fullOnceUp) 60 0 Demo.onwards.run
      Demo.unpackedHost).map fun x => (x.2.1.map Except.isOk,
        (x.2.2.treesOf "web").length, x.2.2.kind Demo.dir.stagingDir)) =
      some (some false, 1, some .dir) := by
    decide +kernel
  obtain ⟨⟨tr, out, h'⟩, hx, hall⟩ := Option.map_eq_some_iff.mp hdrive
  simp only [Prod.mk.injEq] at hall
  obtain ⟨hout, htrees, hstaging⟩ := hall
  obtain ⟨res, rfl, hres⟩ := Option.map_eq_some_iff.mp hout
  obtain ⟨tr₀, -, hrun⟩ := Demo.restore_run (Machine.drive_exec hx)
  cases res with
  | ok r => cases hres
  | error e =>
    refine ⟨tr₀ ++ tr, e, h', hrun, htrees, hstaging, fun hback => ?_⟩
    exact absurd (hback.staging.symm.trans hstaging) nofun

/-- The engine refuses to restore. -/
def restoreRefused : ℕ → Host → (o : HostOp) → Option o.Reply
  | _, _, .criuRestore _ _ => some (.failed "Can't open inventory.img")
  | _, _, _ => none

/-- The engine failed. -/
def refusal : HostSig.Event → Bool
  | ⟨.criuRestore _ _, r⟩ =>
    match (r : EngineRestore) with
    | .failed _ => true
    | .up _ _ => false
  | _ => false

/-- The event writes that the container is checkpointed. -/
def putsBack : HostSig.Event → Bool
  | ⟨.putDoc p (.state st), r⟩ =>
    p = Demo.dir.stateFile && st.is .checkpointed && (r : Except (Bytes × String) Bytes).isOk
  | _ => false

lemma writes_of_putsBack {tr : List HostSig.Event} (h : tr.any putsBack = true) :
    ∃ st : ContainerState, st.is .checkpointed = true ∧ Writes tr Demo.dir.stateFile (.state st) := by
  obtain ⟨⟨o, r⟩, hmem, he⟩ := List.any_eq_true.mp h
  cases o with
  | putDoc p d =>
    rcases d with st | cfg
    · rcases r with e | text
      · simp [putsBack, Except.isOk, Except.toBool] at he
      · obtain ⟨⟨rfl, hst⟩, -⟩ : (p = Demo.dir.stateFile ∧ st.is .checkpointed = true) ∧ _ := by
          simpa [putsBack] using he
        exact ⟨st, hst, text, hmem⟩
    · cases he
  | _ => cases he

/-- An engine that fails leaves nothing. -/
theorem restore_error_rolls_back_demo :
    ∃ tr e h', Runs Host.Exits (restore Demo.env Demo.codec "web" Demo.restoreOptions)
        Demo.frozenHost tr (some (.error e)) h' ∧
      RolledBack Demo.env "web" Demo.frozenHost tr h' := by
  have hdrive : ((machine.drive (departing restoreRefused) 60 0 Demo.onwards.run
      Demo.unpackedHost).map fun x => (x.2.1.map Except.isOk, x.1.any engine, x.1.all fun e => !engine e || refusal e,
        x.1.all fun e => !e.1.plugs, (since engine x.1).any putsBack)) =
      some (some false, true, true, true, true) := by
    decide +kernel
  obtain ⟨⟨tr, out, h'⟩, hx, hall⟩ := Option.map_eq_some_iff.mp hdrive
  simp only [Prod.mk.injEq] at hall
  obtain ⟨hout, hengine, hengines, hplugs, hput⟩ := hall
  obtain ⟨res, rfl, hres⟩ := Option.map_eq_some_iff.mp hout
  obtain ⟨tr₀, hplain, hrun⟩ := Demo.restore_run (Machine.drive_exec hx)
  cases res with
  | ok r => cases hres
  | error e =>
    have hnone : ∀ e ∈ tr₀, engine e = false := fun e he => HostOp.starts_of_plain (hplain e he)
    have hrec : Demo.frozenHost.record Demo.env "web" = some Demo.frozen := by decide +kernel
    have habsent : Demo.frozenHost.Absent Demo.dir.stagingDir := by
      rw [Host.Absent]
      decide +kernel
    refine ⟨tr₀ ++ tr, e, h', hrun.of_quiet, restore_error_rolls_back ⟨.inl habsent, .inl ?_, ?_, ?_,
      ?_, ?_⟩ hrun.of_quiet⟩
    · intro st hst
      obtain rfl := Option.some.inj (hrec.symm.trans hst)
      rfl
    · intro _
      obtain ⟨e, he, h⟩ := List.any_eq_true.mp hengine
      exact ⟨e, List.mem_append_right _ he, h⟩
    · intro owner opts pid msg he
      rcases List.mem_append.mp he with he | he
      · cases hplain _ he
      · cases List.all_eq_true.mp hengines _ he
    · intro name peer he
      rcases List.mem_append.mp he with he | he
      · cases hplain _ he
      · cases List.all_eq_true.mp hplugs _ he
    · intro _
      rw [since_append hnone]
      exact writes_of_putsBack hput

end Restore

end Mincontainer
