import Mincontainer.Engine.RestorePhases

set_option relaxedAutoImplicit false
set_option autoImplicit false

/-!
# What reconciliation does

Reconciliation reads the record of a container and decides by its status, and by whether a
recorded process is alive, that it is left over. Everything it changes it changes after that
decision.

## Main definitions

* `Mincontainer.Restore.Stale` — the decision, in terms of the replies it was made on.

## Main results

* `Mincontainer.Restore.reconcile_inv` — a reconciliation only reads, or it found a stale record
  and sweeps.
* `Mincontainer.Restore.reconcile_record` — the record afterwards.
-/

namespace Mincontainer

open Effects Files Bytes Snapshot

namespace Restore

variable {R : Host → Host → Prop} {env : Env} {id : String} {h h' : Host} {tr : List HostSig.Event}

/-! ### The decision -/

/-- The record is left over, judging by the replies in the trace. -/
def Stale (tr : List HostSig.Event) (st : ContainerState) : Prop :=
  st.status = Status.restoring.asStr ∨ st.status = Status.checkpointing.asStr ∨
    (st.status = Status.running.asStr ∧ ∀ pid, st.pid = some pid → ⟨.pidAlive pid, false⟩ ∈ tr)

lemma isStale_inv {st : ContainerState} (hrun : Runs R (isStale st) h tr (some (.ok true)) h') :
    Stale tr st := by
  rw [isStale] at hrun
  split at hrun
  · exact .inl ‹_›
  split at hrun
  · exact .inr (.inl ‹_›)
  split at hrun
  · refine .inr (.inr ⟨‹_›, ?_⟩)
    split at hrun
    · rename_i pid hpid
      obtain ⟨h₁, live, tr₁, -, -, rfl, hrun₁⟩ := Exec.call_some_inv hrun
      obtain ⟨rfl, -, hlive⟩ := Exec.ret_some_inv hrun₁
      obtain rfl : live = false := by simpa using hlive.symm
      intro p hp
      obtain rfl := Option.some.inj (hpid.symm.trans hp)
      exact List.mem_cons_self
    · rename_i hnone
      exact fun p hp => by rw [hnone] at hp; cases hp
  · obtain ⟨-, -, hfalse⟩ := Exec.ret_some_inv hrun
    cases hfalse

/-- A record that is loaded was read. -/
lemma loadState_read {dir : ContainerStateDir} {st : ContainerState}
    (hrun : Runs R dir.loadState h tr (some (.ok st)) h') :
    ∃ text : Bytes, ⟨.readFile dir.stateFile,
      (.ok (.doc text (.state st)) : Except String Content)⟩ ∈ tr := by
  obtain ⟨h₁, r, tr₁, -, -, rfl, hrun₁⟩ := Exec.call_some_inv hrun
  rcases r with e | c
  · obtain ⟨-, -, hres⟩ := Exec.ret_some_inv hrun₁
    cases hres
  rcases c with b | ⟨text, d⟩
  · exact (Exec.throw_ok_false hrun₁).elim
  cases d with
  | state st' =>
    obtain ⟨-, -, hres⟩ := Exec.ret_some_inv hrun₁
    obtain rfl := Except.ok.inj hres
    exact ⟨_, List.mem_cons_self⟩
  | config cfg => exact (Exec.throw_ok_false hrun₁).elim

/-- **The decision comes first.** A reconciliation, wherever it stopped, made only calls that
change nothing; or it read a stale record and went on with the sweep. -/
lemma reconcile_inv {out : Option (Except RuntimeError Unit)}
    (hrun : Runs R (reconcile env id) h tr out h') :
    (∀ e ∈ tr, e.1.reads = true) ∨
      ∃ (st : ContainerState) (text : Bytes) (tr₁ tr₂ : List HostSig.Event) (h₁ : Host),
        tr = tr₁ ++ tr₂ ∧ (∀ e ∈ tr₁, e.1.reads = true) ∧
        ⟨.readFile (ContainerStateDir.forId env id).stateFile,
          (.ok (.doc text (.state st)) : Except String Content)⟩ ∈ tr₁ ∧
        Stale tr₁ st ∧ Relation.ReflTransGen R h h₁ ∧ Runs R (sweep env id st) h₁ tr₂ out h' := by
  rcases Exec.fallible_bind_inv hrun with ⟨-, h₁⟩ | ⟨e, -, h₁⟩ | ⟨found, tr₁, tr₂, g₁, rfl, h₁, hrun₁⟩
  · exact .inl (Exec.mem_within (pathExists_reads _) h₁)
  · exact .inl (Exec.mem_within (pathExists_reads _) h₁)
  have hreads₁ := Exec.mem_within (pathExists_reads _) h₁
  have hcons : ∀ {tr₀ tr : List HostSig.Event}, (∀ e ∈ tr₀, e.1.reads = true) →
      (∀ e ∈ tr, e.1.reads = true) → ∀ e ∈ tr₀ ++ tr, e.1.reads = true := fun h₀ h e he =>
    (List.mem_append.mp he).elim (h₀ e) (h e)
  split at hrun₁
  · obtain ⟨rfl, -, -⟩ := Exec.ret_inv hrun₁
    exact .inl (hcons hreads₁ (List.forall_mem_nil _))
  rcases Exec.fallible_bind_inv hrun₁ with ⟨-, h₂⟩ | ⟨e, -, h₂⟩ | ⟨st, tr₃, tr₄, g₂, rfl, h₂, hrun₂⟩
  · exact .inl (hcons hreads₁ (Exec.mem_within (loadState_reads _) h₂))
  · exact .inl (hcons hreads₁ (Exec.mem_within (loadState_reads _) h₂))
  have hreads₂ := Exec.mem_within (loadState_reads _) h₂
  rcases Exec.fallible_bind_inv hrun₂ with ⟨-, h₃⟩ | ⟨e, -, h₃⟩ | ⟨stale, tr₅, tr₆, g₃, rfl, h₃, hrun₃⟩
  · exact .inl (hcons hreads₁ (hcons hreads₂ (Exec.mem_within (isStale_reads _) h₃)))
  · exact .inl (hcons hreads₁ (hcons hreads₂ (Exec.mem_within (isStale_reads _) h₃)))
  have hreads₃ := Exec.mem_within (isStale_reads _) h₃
  split at hrun₃
  · obtain ⟨rfl, -, -⟩ := Exec.ret_inv hrun₃
    exact .inl (hcons hreads₁ (hcons hreads₂ (hcons hreads₃ (List.forall_mem_nil _))))
  · rename_i hstale
    obtain rfl : stale = true := by simpa using hstale
    obtain ⟨text, hread⟩ := loadState_read h₂
    refine .inr ⟨st, text, tr₁ ++ (tr₃ ++ tr₅), tr₆, g₃, by simp,
      hcons hreads₁ (hcons hreads₂ hreads₃), by simp [hread], ?_, ?_, hrun₃⟩
    · rcases isStale_inv h₃ with hs | hs | ⟨hs, hdead⟩
      · exact .inl hs
      · exact .inr (.inl hs)
      · exact .inr (.inr ⟨hs, fun pid hpid => by simp [hdead pid hpid]⟩)
    · exact (Runs.of_reads (pathExists_reads _) h₁).trans
        ((Runs.of_reads (loadState_reads _) h₂).trans (Runs.of_reads (isStale_reads _) h₃))

/-! ### The record afterwards -/

/-- The record was settled: it names no process, and says *checkpointed* or *failed*. -/
def Swept (st : ContainerState) : Prop :=
  st.pid = none ∧ (st.status = Status.checkpointed.asStr ∨ st.status = Status.failed.asStr)

/-- A sweep that did not get to the record leaves it or loses it; one that did settles it. -/
lemma sweep_record {st : ContainerState} {out : Option (Except RuntimeError Unit)}
    (hk : Keeps R (ContainerStateDir.forId env id).stateFile)
    (hrun : Runs R (sweep env id st) h tr out h') :
    (¬ Truncates tr (ContainerStateDir.forId env id).stateFile ∧
        ∀ st', h'.record env id = some st' → h.record env id = some st') ∨
      ∀ st', h'.record env id = some st' → Swept st' := by
  have hclear : ∀ {tr out} {g : Host}, Runs R (clear env id st) h tr out g →
      ¬ Truncates tr (ContainerStateDir.forId env id).stateFile ∧
        ∀ st', g.record env id = some st' → h.record env id = some st' := fun hrun => by
    refine ⟨not_truncates (within_clear (fun o ho => ?_) (fun _ h => nomatch h)
        (fun _ h => nomatch h) (fun _ h => nomatch h) (fun h => nomatch h) st) hrun,
      Runs.record_inherited hk (within_clear (fun o ho => ?_) (fun _ h => h) (fun _ h => h)
        (fun _ h => h) (fun h => h) st) hrun⟩
    · rintro rfl
      cases ho
    · cases o <;> first | exact fun h => h | cases ho
  rcases Exec.fallible_bind_inv hrun with ⟨-, h₁⟩ | ⟨e, -, h₁⟩ | ⟨found, tr₁, tr₂, g, rfl, h₁, hrun₁⟩
  · exact .inl (hclear h₁)
  · exact .inl (hclear h₁)
  obtain ⟨hno, hinherit⟩ := hclear h₁
  cases update_inv hk hrun₁ with
  | untouched _ ht _ hfile =>
    refine .inl ⟨fun h => (Truncates.append_iff.mp h).elim hno ht, fun st' hst' => ?_⟩
    exact hinherit st' ((Host.record_congr hfile).symm.trans hst')
  | torn _ _ _ _ hrec => exact .inr fun st' hst' => by rw [hrec] at hst'; cases hst'
  | done _ _ _ _ hrec =>
    refine .inr fun st' hst' => ?_
    obtain rfl := Option.some.inj (hrec.symm.trans hst')
    refine ⟨rfl, ?_⟩
    cases found
    · exact .inr rfl
    · exact .inl rfl

/-- A reconciliation that did not get to the record leaves it or loses it; one that did settles
it. -/
lemma reconcile_record {out : Option (Except RuntimeError Unit)}
    (hk : Keeps R (ContainerStateDir.forId env id).stateFile)
    (hrun : Runs R (reconcile env id) h tr out h') :
    (¬ Truncates tr (ContainerStateDir.forId env id).stateFile ∧
        ∀ st', h'.record env id = some st' → h.record env id = some st') ∨
      ∀ st', h'.record env id = some st' → Swept st' := by
  have hreads : ∀ {tr : List HostSig.Event}, (∀ e ∈ tr, e.1.reads = true) →
      ¬ Truncates tr (ContainerStateDir.forId env id).stateFile := fun h ht => by
    cases h _ ht
  rcases reconcile_inv hrun with hall | ⟨st, text, tr₁, tr₂, g, rfl, hall, -, -, hR, hsweep⟩
  · refine .inl ⟨hreads hall, fun st' hst' => ?_⟩
    exact (Host.record_congr (hk.star (Runs.star_of_reads hrun hall))).symm.trans hst'
  · refine (sweep_record hk hsweep).imp (fun ⟨hno, hin⟩ => ⟨?_, fun st' hst' => ?_⟩) fun h => h
    · exact fun h => (Truncates.append_iff.mp h).elim (hreads hall) hno
    · exact (Host.record_congr (hk.star hR)).symm.trans (hin st' hst')

end Restore

end Mincontainer
