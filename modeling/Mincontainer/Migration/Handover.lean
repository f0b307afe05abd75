import Mincontainer.Effects.Link
import Mincontainer.Lifecycle.PassedOn
import Mincontainer.Migration.Outgoing

set_option relaxedAutoImplicit false
set_option autoImplicit false

/-!
# Handing a container over a connection

A migration on one node and the receiver on the other one, as two programs on two hosts whose calls are
interleaved in any order. What either side writes reaches the other one through a connection that keeps the
order of the bytes and may be cut at any of them; any call of either side may fail, and either side may stop
anywhere.

## Main definitions

* `Mincontainer.Migrate.prepare` — the migration up to the snapshot that is shipped.
* `Mincontainer.Migrate.Connected` — the two sides ran over one connection.
* `Mincontainer.Migrate.SourceEnd` — how the transfer can end for the record of the source.

## Main results

* `Mincontainer.Migrate.arrives_whole` — the receiver commits nothing but the whole snapshot of the source.
* `Mincontainer.Migrate.handed_over` — the source lets go of its container only if the receiver restored it
  from that snapshot.
-/

namespace Mincontainer

open Effects Files Bytes Transport

namespace Migrate

/-! ### The source -/

/-- The migration up to the snapshot that is shipped. -/
def prepare (env : Env) (codec : Codec Manifest) (id : String) (opts : Options) : HostM PathBuf := do
  let found ← (ContainerStateDir.forId env id).pathExists
  if !found then
    throw (.migration s!"container {id} not found")
  else
    freeze env codec id opts

section

variable {env : Env} {codec : Codec Manifest} {proto : Protocol} {id target : String} {opts : Options}
  {snapshot : PathBuf} {R : Host → Host → Prop} {h h' : Host} {tr : List HostSig.Event}

lemma migrate_eq : migrate env codec proto id target opts =
    prepare env codec id opts >>= handOver env proto id target opts := by
  unfold migrate prepare
  rw [bind_assoc]
  congr 1
  funext found
  cases found <;> rfl

/-- Taking the snapshot does not use the connection. -/
lemma prepare_offline : Offline (prepare env codec id opts) := by
  refine Fallible.within_bind offline_pathExists fun found => ?_
  split
  · exact trivial
  refine Fallible.within_bind offline_loadState fun st => ?_
  split
  · refine Fallible.within_bind ?_ fun found => ?_
    · split
      · exact Fallible.within_bind (offline_isFile _) fun _ => trivial
      · exact trivial
    · split <;> exact trivial
  · split
    · exact trivial
    · exact Fallible.within_bind Checkpoint.checkpoint_offline fun _ => trivial

/-- A shipment ends as its transfer does. -/
lemma ship_inv {out : Option (Except RuntimeError Transfer)}
    (hrun : Runs R (ship env proto id target snapshot opts) h tr out h') :
    ∃ o, Runs R (sendSnapshot env proto id snapshot target opts.token) h tr o h' ∧
      ∀ tx, out = some (.ok tx) → o = some (.ok tx) := by
  rcases Exec.fallible_bind_inv hrun with ⟨rfl, h₁⟩ | ⟨e, rfl, h₁⟩ | ⟨r, tr₁, tr₂, g, rfl, h₁, h₂⟩
  · rcases Exec.attempt_inv h₁ with ⟨-, h₂⟩ | ⟨r, hr, -⟩
    · exact ⟨none, h₂, nofun⟩
    · cases hr
  · rcases Exec.attempt_inv h₁ with ⟨hr, -⟩ | ⟨r, hr, h₂⟩
    · cases hr
    · cases hr
  rcases Exec.attempt_inv h₁ with ⟨hr, -⟩ | ⟨r', hr, h₃⟩
  · cases hr
  obtain rfl : r = r' := Except.ok.inj (Option.some.inj hr)
  cases r with
  | ok tx =>
    obtain ⟨rfl, hR, hout⟩ := Exec.ret_inv h₂
    rw [List.append_nil]
    refine ⟨some (.ok tx), h₃.append_env_star hR, ?_⟩
    rintro tx' rfl
    rcases hout with hout | hout
    · cases hout
    · exact hout.symm
  | error e =>
    obtain ⟨rfl, hR, hout⟩ := Exec.ret_inv h₂
    rw [List.append_nil]
    refine ⟨some (.error e), h₃.append_env_star hR, ?_⟩
    rintro tx' rfl
    rcases hout with hout | hout <;> cases hout

/-- A shipment does what its transfer does. -/
lemma ship_run {r : Except RuntimeError Transfer}
    (hrun : Runs R (sendSnapshot env proto id snapshot target opts.token) h tr (some r) h') :
    Runs R (ship env proto id target snapshot opts) h tr (some (r.mapError (notHandedOver id target))) h' := by
  rw [ship, Runs, Fallible.run_attempt_bind, ← List.append_nil tr]
  refine Exec.bind hrun ?_
  cases r <;> exact .ret _ _

/-- What is left of a migration once the snapshot is shipped does not use the connection. -/
lemma finish_offline {t : Transfer} : Offline (when (!opts.keepLocal) (release env id) >>= fun _ =>
    (pure ⟨id, target, t.bytes, t.result.pid, t.result.containerIp⟩ : HostM Report)) :=
  Fallible.within_bind (within_when fun _ => offline_update _) fun _ => trivial

/-- A transfer, and what follows if it is done. -/
lemma handOver_inv {out : Option (Except RuntimeError Report)}
    (hrun : Runs R (handOver env proto id target opts snapshot) h tr out h') :
    (∃ o, Runs R (sendSnapshot env proto id snapshot target opts.token) h tr o h' ∧
      ∀ r, out ≠ some (.ok r)) ∨
    ∃ tx tr₁ tr₂ g, tr = tr₁ ++ tr₂ ∧
      Runs R (sendSnapshot env proto id snapshot target opts.token) h tr₁ (some (.ok tx)) g ∧
      Runs R (when (!opts.keepLocal) (release env id) >>= fun _ =>
        (pure ⟨id, target, tx.bytes, tx.result.pid, tx.result.containerIp⟩ : HostM Report)) g tr₂ out h' := by
  rcases Exec.fallible_bind_inv hrun with ⟨rfl, h₁⟩ | ⟨e, rfl, h₁⟩ | ⟨tx, tr₁, tr₂, g, rfl, h₁, h₂⟩
  · obtain ⟨o, h₂, -⟩ := ship_inv h₁
    exact .inl ⟨o, h₂, nofun⟩
  · obtain ⟨o, h₂, -⟩ := ship_inv h₁
    exact .inl ⟨o, h₂, nofun⟩
  · obtain ⟨o, h₃, ho⟩ := ship_inv h₁
    obtain rfl := ho tx rfl
    exact .inr ⟨tx, tr₁, tr₂, g, rfl, h₃, h₂⟩

/-- **What a migration writes** once it has its snapshot. -/
lemma handOver_frames {out : Option (Except RuntimeError Report)} (hk : Keeps R snapshot.path)
    (hrun : Runs R (handOver env proto id target opts snapshot) h tr out h') :
    sent tr = [] ∨ ∃ c fs, h.file snapshot.path = some c ∧ Offers c.raw fs ∧
      sent tr <+: fs.flatMap RawFrame.bytes := by
  have hship : ∀ {t : List HostSig.Event} {o : Option (Except RuntimeError Transfer)} {g : Host},
      Runs R (sendSnapshot env proto id snapshot target opts.token) h t o g →
      sent t = [] ∨ ∃ c fs, h.file snapshot.path = some c ∧ Offers c.raw fs ∧
        sent t <+: fs.flatMap RawFrame.bytes := fun hr => by
    cases hc : h.file snapshot.path with
    | none => exact .inl (sendSnapshot_unread hk hc hr).1
    | some c =>
      obtain ⟨fs, hoffers, hpart⟩ := sendSnapshot_frames hk hc hr
      exact .inr ⟨c, fs, rfl, hoffers, hpart⟩
  rcases handOver_inv hrun with ⟨o, h₁, -⟩ | ⟨tx, tr₁, tr₂, g, rfl, h₁, h₂⟩
  · exact hship h₁
  · rw [sent_append, Offline.sent finish_offline h₂, List.append_nil]
    exact hship h₁

/-- How a transfer ends for the record of the source, if `Restored` tells what the receiver restored. -/
inductive SourceEnd (env : Env) (id : String) (opts : Options) (Restored : Restore.Report → Prop)
    (h h' : Host) (out : Option (Except RuntimeError Report)) : Prop
  /-- The record is as it was, and the operator is not told that the container moved. -/
  | kept (hfile : h'.file (ContainerStateDir.forId env id).stateFile =
        h.file (ContainerStateDir.forId env id).stateFile)
      (hout : ∀ r, out ≠ some (.ok r))
  /-- The receiver restored the container, and what the operator is told of it is true. Unless the
  container is kept the record is released; the update of the record may fail. -/
  | confirmed (rep : Restore.Report) (hrep : Restored rep)
      (hout : ∀ r, out = some (.ok r) → r.remotePid = rep.pid ∧ r.remoteIp = rep.containerIp)
      (hrecord : h'.file (ContainerStateDir.forId env id).stateFile =
          h.file (ContainerStateDir.forId env id).stateFile ∧
            (opts.keepLocal = false → ∀ r, out ≠ some (.ok r)) ∨
        opts.keepLocal = false ∧ ∃ st, h.record env id = some st ∧
          (h'.record env id = none ∧ (∀ r, out ≠ some (.ok r)) ∨
            h'.record env id = some { st with status := Status.migrated.asStr, pid := none }))

/-- The end of a migration whose transfer is done. -/
lemma finish_end {Restored : Restore.Report → Prop} {tx : Transfer} {rep : Restore.Report}
    {out : Option (Except RuntimeError Report)} (hk : Keeps R (ContainerStateDir.forId env id).stateFile)
    (hrep : Restored rep) (hpid : tx.result.pid = rep.pid) (hip : tx.result.containerIp = rep.containerIp)
    (hrun : Runs R (when (!opts.keepLocal) (release env id) >>= fun _ =>
      (pure ⟨id, target, tx.bytes, tx.result.pid, tx.result.containerIp⟩ : HostM Report)) h tr out h') :
    SourceEnd env id opts Restored h h' out := by
  have htold : ∀ {o : Option (Except RuntimeError Report)} {w : Host} {t : List HostSig.Event},
      Runs R (pure ⟨id, target, tx.bytes, tx.result.pid, tx.result.containerIp⟩ : HostM Report) w t o h' →
      (h'.file (ContainerStateDir.forId env id).stateFile =
        w.file (ContainerStateDir.forId env id).stateFile) ∧
      ∀ r, o = some (.ok r) → r.remotePid = rep.pid ∧ r.remoteIp = rep.containerIp := fun hr => by
    obtain ⟨-, hR, hout⟩ := Exec.ret_inv hr
    refine ⟨hk.star hR, ?_⟩
    rintro r rfl
    rcases hout with hout | hout
    · cases hout
    · obtain rfl := Except.ok.inj (Option.some.inj hout)
      exact ⟨hpid, hip⟩
  cases hkeep : opts.keepLocal with
  | true =>
    rw [hkeep] at hrun
    obtain ⟨hfile, hout⟩ := htold hrun
    exact .confirmed rep hrep hout (.inl ⟨hfile, fun hno => by cases hkeep.symm.trans hno⟩)
  | false =>
    rw [hkeep] at hrun
    change Runs R (release env id >>= fun _ => _) _ _ _ _ at hrun
    have hstopped : ∀ {o : Option (Except RuntimeError Unit)}, UpdateEnd env id (fun s => { s with
        status := Status.migrated.asStr, pid := none }) h h' tr o → (∀ u, o ≠ some (.ok u)) →
        (∀ r, out ≠ some (.ok r)) → SourceEnd env id opts Restored h h' out := fun hend ho hout => by
      refine .confirmed rep hrep (fun r hr => absurd hr (hout r)) ?_
      cases hend with
      | untouched _ _ _ hfile => exact .inl ⟨hfile, fun _ => hout⟩
      | torn hst _ _ _ hrec => exact .inr ⟨hkeep, _, hst, .inl ⟨hrec, hout⟩⟩
      | done hst _ _ _ hrec => exact .inr ⟨hkeep, _, hst, .inr hrec⟩
    rcases Exec.fallible_bind_inv hrun with ⟨rfl, h₁⟩ | ⟨e, rfl, h₁⟩ | ⟨u, tr₁, tr₂, g, rfl, h₁, h₂⟩
    · exact hstopped (update_inv hk h₁) nofun nofun
    · exact hstopped (update_inv hk h₁) nofun nofun
    · obtain ⟨st, hst, hrec, -⟩ := update_ok hk h₁
      obtain ⟨hfile, hout⟩ := htold h₂
      exact .confirmed rep hrep hout (.inr ⟨hkeep, st, hst, .inr ((Host.record_congr hfile).trans hrec)⟩)

end

/-! ### Two sides and a connection -/

/-- The two sides ran over one connection. -/
def Connected (source receiver : List HostSig.Event) : Prop :=
  ∃ c, Effects.Linked (fun e : HostSig.Event => puts e.1 e.2) (fun e => got e.1 e.2) source receiver c

section

variable {source receiver : List HostSig.Event}

/-- What the receiver read is a first part of what the source wrote. -/
lemma Connected.receiver_reads (hc : Connected source receiver) : received receiver <+: sent source :=
  hc.elim fun _ h => h.right_got

/-- What the source read is a first part of what the receiver wrote. -/
lemma Connected.source_reads (hc : Connected source receiver) : received source <+: sent receiver :=
  hc.elim fun _ h => h.left_got

/-- Two sides that take turns over a connection that stays up. What the source reads at last is a first part
of what the receiver wrote at last. -/
lemma connected_of_turns {s₁ s₂ s₃ r₁ r₂ : List HostSig.Event} (h₁ : received s₁ = [])
    (h₂ : received r₁ = sent s₁) (h₃ : received s₂ = sent r₁) (h₄ : received r₂ = sent s₂)
    (h₅ : received s₃ <+: sent r₂) : Connected (s₁ ++ (s₂ ++ s₃)) (r₁ ++ r₂) := by
  obtain ⟨rest, hrest⟩ := h₅
  have hopen : Effects.Linked (fun e : HostSig.Event => puts e.1 e.2) (fun e => got e.1 e.2) [] []
      ⟨received s₁ ++ [], [], true⟩ := by
    rw [h₁]
    exact .start
  have hcall := hopen.lefts
  change Effects.Linked _ _ ([] ++ s₁) [] ⟨[], [] ++ sent s₁, true⟩ at hcall
  rw [List.nil_append, List.nil_append, ← h₂, ← List.append_nil (received r₁)] at hcall
  have hreply := hcall.rights
  change Effects.Linked _ _ s₁ ([] ++ r₁) ⟨[] ++ sent r₁, [], true⟩ at hreply
  rw [List.nil_append, List.nil_append, ← h₃, ← List.append_nil (received s₂)] at hreply
  have hstream := hreply.lefts
  change Effects.Linked _ _ (s₁ ++ s₂) r₁ ⟨[], [] ++ sent s₂, true⟩ at hstream
  rw [List.nil_append, ← h₄, ← List.append_nil (received r₂)] at hstream
  have hanswer := hstream.rights
  change Effects.Linked _ _ (s₁ ++ s₂) (r₁ ++ r₂) ⟨[] ++ sent r₂, [], true⟩ at hanswer
  rw [List.nil_append, ← hrest] at hanswer
  have hall := hanswer.lefts
  rw [List.append_assoc] at hall
  exact ⟨_, hall⟩

variable {R R' : Host → Host → Prop} {env env' : Env} {codec codec' : Codec Manifest} {proto : Protocol}
  {id target token : String} {opts : Options} {fuel : ℕ} {index : UInt8} {h h' g g' : Host}
  {out : Option (Except RuntimeError Report)} {out' : Option (Except RuntimeError String)}

/-- The frames that a receiver reads come from a source that has its snapshot. -/
lemma source_frames
    (hsnapshot : ∀ (tr : List HostSig.Event) (w : Host) (b : PathBuf),
      Runs R (prepare env codec id opts) h tr (some (.ok b)) w → Keeps R b.path)
    (hsource : Runs R (migrate env codec proto id target opts) h source out h') (hne : sent source ≠ []) :
    ∃ s₁ s₂ w b c fs, source = s₁ ++ s₂ ∧ Runs R (prepare env codec id opts) h s₁ (some (.ok b)) w ∧
      w.file b.path = some c ∧ Offers c.raw fs ∧ sent source <+: fs.flatMap RawFrame.bytes := by
  rw [migrate_eq] at hsource
  rcases Exec.fallible_bind_inv hsource with ⟨-, h₁⟩ | ⟨e, -, h₁⟩ | ⟨b, s₁, s₂, w, rfl, h₁, h₂⟩
  · exact absurd (Offline.sent prepare_offline h₁) hne
  · exact absurd (Offline.sent prepare_offline h₁) hne
  · rw [sent_append, Offline.sent prepare_offline h₁, List.nil_append] at hne ⊢
    rcases handOver_frames (hsnapshot _ _ _ h₁) h₂ with hnone | ⟨c, fs, hc, hoffers, hpart⟩
    · exact absurd hnone hne
    · exact ⟨s₁, s₂, w, b, c, fs, rfl, h₁, hc, hoffers, hpart⟩

/-- **All or nothing.** However the two sides are interleaved, wherever the connection is cut, and whatever
fails: a file that the receiver commits is all of the snapshot that the source prepared.

**Proof sketch.** A committed file is made of the chunks that were read up to an end frame. What is read is
a first part of what the source wrote, its frames delimit themselves, and it writes the end frame only
behind all of its file. -/
theorem arrives_whole {r₁ r₂ : List HostSig.Event} {x : Hello × PathBuf}
    (hsnapshot : ∀ (tr : List HostSig.Event) (w : Host) (b : PathBuf),
      Runs R (prepare env codec id opts) h tr (some (.ok b)) w → Keeps R b.path)
    (hsource : Runs R (migrate env codec proto id target opts) h source out h')
    (harrive : Runs R' (arrive env' proto fuel token) g r₁ (some (.ok x)) g')
    (hconnected : Connected source (r₁ ++ r₂)) :
    x.2 = finalFile env' x.1 ∧ ∃ s₁ s₂ w b c, source = s₁ ++ s₂ ∧
      Runs R (prepare env codec id opts) h s₁ (some (.ok b)) w ∧ w.file b.path = some c ∧
      (Keeps R' (partFile env' x.1).path → Keeps R' x.2.path → g'.file x.2.path = some (.bytes c.raw)) := by
  have hreads := hconnected.receiver_reads
  rw [received_append] at hreads
  have hfirst := (List.prefix_append _ _).trans hreads
  have hne : sent source ≠ [] := by
    intro hnone
    obtain ⟨-, opening, last, chunks, hreceived, -⟩ := arrive_took harrive
    rw [hnone, List.prefix_nil, hreceived, List.flatMap_cons] at hfirst
    exact RawFrame.delimits.ne_nil _ (List.append_eq_nil_iff.mp hfirst).1
  obtain ⟨s₁, s₂, w, b, c, fs, rfl, hprepare, hc, hoffers, hpart⟩ := source_frames hsnapshot hsource hne
  obtain ⟨hfinal, hfile⟩ := arrive_whole hoffers (hfirst.trans hpart) harrive
  exact ⟨hfinal, s₁, s₂, w, b, c, rfl, hprepare, hc, hfile⟩

/-- **The handover.** However the two sides are interleaved, wherever the connection is cut, and whatever
fails: once the snapshot is there, the migration changes no file but the record. The record stays as it is
and the operator is not told that the container moved, unless the receiver restored the container, from a
file that holds what the snapshot holds; then what the operator is told of the restored container is true.

**Proof sketch.** A source that goes on read a result that tells of a restore. It is the one that the
receiver wrote, since frames delimit themselves, and the receiver writes it behind a restore. -/
theorem handed_over (hk : Keeps R (ContainerStateDir.forId env id).stateFile)
    (hsnapshot : ∀ (tr : List HostSig.Event) (w : Host) (b : PathBuf),
      Runs R (prepare env codec id opts) h tr (some (.ok b)) w → Keeps R b.path)
    (hresult : ∀ m m', proto.result.decode (proto.result.encode m) = .ok m' → m' = m)
    (hsource : Runs R (migrate env codec proto id target opts) h source out h')
    (hreceiver : Runs R' (handleOne env' codec' proto fuel token index) g receiver out' g')
    (hconnected : Connected source receiver) :
    (∃ o, Runs R (prepare env codec id opts) h source o h' ∧ (∀ b, o ≠ some (.ok b)) ∧
      ∀ r, out ≠ some (.ok r)) ∨
    ∃ s₁ s₂ w b, source = s₁ ++ s₂ ∧ Runs R (prepare env codec id opts) h s₁ (some (.ok b)) w ∧
      Runs R (handOver env proto id target opts b) w s₂ out h' ∧
      (∀ p, p ≠ (ContainerStateDir.forId env id).stateFile → Keeps R p → h'.file p = w.file p) ∧
      SourceEnd env id opts (fun rep => ∃ c, w.file b.path = some c ∧
        TakenOver R' env' codec' proto fuel token index g receiver c.raw rep) w h' out := by
  rw [migrate_eq] at hsource
  rcases Exec.fallible_bind_inv hsource with ⟨rfl, h₁⟩ | ⟨e, rfl, h₁⟩ | ⟨b, s₁, s₂, w, rfl, h₁, h₂⟩
  · exact .inl ⟨none, h₁, nofun, nofun⟩
  · exact .inl ⟨some (.error e), h₁, nofun, nofun⟩
  right
  have hkb := hsnapshot _ _ _ h₁
  have hfiles : ∀ p, p ≠ (ContainerStateDir.forId env id).stateFile → Keeps R p → h'.file p = w.file p := by
    intro p hp hkp
    refine Runs.file_kept hkp ?_ h₂
    have hreads : ∀ o : HostOp, o.reads = true → ¬ o.overwrites p := fun _ ho =>
      HostOp.not_overwrites_of_reads ho p
    refine Fallible.within_bind (Fallible.within_bind (Fallible.within_attempt
      ((sendSnapshot_reads _ _ _ _).mono hreads)) fun sent => ?_) fun tx => ?_
    · split <;> exact trivial
    · exact Fallible.within_bind (within_when fun _ => within_update hreads hp fun _ => hp) fun _ => trivial
  refine ⟨s₁, s₂, w, b, rfl, h₁, h₂, hfiles, ?_⟩
  rcases handOver_inv h₂ with ⟨o, hsend, hout⟩ | ⟨tx, s₃, s₄, w₁, rfl, hsend, hrest⟩
  · exact .kept (Runs.file_kept_of_reads hk (sendSnapshot_reads _ _ _ _) hsend) hout
  -- the source read a result, so the receiver wrote it
  have hsent := Offline.sent prepare_offline h₁
  have hheard := Offline.received prepare_offline h₁
  have hrest₁ := Offline.sent finish_offline hrest
  have hrest₂ := Offline.received finish_offline hrest
  obtain ⟨ack, body, hreceived, hfits, hdec, hok⟩ := sendSnapshot_received hsend
  obtain ⟨c, hc⟩ : ∃ c, w.file b.path = some c := by
    apply Option.ne_none_iff_exists'.mp
    intro hnone
    exact (sendSnapshot_unread hkb hnone hsend).2 tx rfl
  obtain ⟨offered, hoffers, hpart⟩ := sendSnapshot_frames hkb hc hsend
  have hreads := hconnected.receiver_reads
  have hanswers := hconnected.source_reads
  rw [sent_append, sent_append, hsent, hrest₁, List.nil_append, List.append_nil] at hreads
  rw [received_append, received_append, hheard, hrest₂, List.nil_append, List.append_nil,
    hreceived] at hanswers
  obtain ⟨fs, hanswer, hpart'⟩ := handleOne_frames hoffers (hreads.trans hpart) hreceiver
  obtain ⟨m, rfl, hm⟩ := hanswer.result (RawFrame.delimits.words hfits hanswer.fits
    (hanswers.trans hpart'))
  have heq := hresult _ _ hdec
  obtain ⟨here, hello, rep, hrep, htaken⟩ := hm (heq ▸ hok)
  have hend : SourceEnd env id opts (fun rep => ∃ c, w.file b.path = some c ∧
      TakenOver R' env' codec' proto fuel token index g receiver c.raw rep) _ h' out :=
    finish_end hk ⟨c, hc, htaken⟩ (by rw [heq, hrep]; rfl) (by rw [heq, hrep]; rfl) hrest
  have hw₁ := Runs.file_kept_of_reads hk (sendSnapshot_reads _ _ _ _) hsend
  cases hend with
  | kept hfile hout => exact .kept (hfile.trans hw₁) hout
  | confirmed rep' hrep' hout hrecord =>
    rw [hw₁, Host.record_congr hw₁] at hrecord
    exact .confirmed rep' hrep' hout hrecord

end

end Migrate

/-! ### A snapshot of one byte -/

namespace Demo

/-- What the receiver says about a snapshot of one byte. -/
def tooSmall : MigrateResult := ⟨false, "web", 0, 0, none,
  "snapshot error: /root/.mincontainer/inbox/web.mcsnap: too small to be a snapshot (1 bytes)"⟩

def tooSmallText : String :=
  "\x7b\"ok\":false,\"container_id\":\"web\",\"pid\":0,\"generation\":0,\"restore_total_ms\":0.0," ++
  "\"restore_build_ms\":0.0,\"container_ip\":null,\"message\":\"snapshot error: " ++
  "/root/.mincontainer/inbox/web.mcsnap: too small to be a snapshot (1 bytes)\"\x7d"

/-- A protocol whose results are told apart. -/
def told : Protocol := { protocol "web" with
  result :=
    { encode := fun m => if m = tooSmall then tooSmallText.toUTF8.data.toList else []
      decode := (only tooSmallText tooSmall).decode } }

/-- A message that is told by its text, where no other one is told, is read back. -/
lemma only_decode {α : Type} [DecidableEq α] {text : String} {v m m' : α} (htext : text ≠ "")
    (h : (only text v).decode (if m = v then text.toUTF8.data.toList else []) = .ok m') : m' = m := by
  simp only [only] at h
  by_cases hm : m = v
  · rw [if_pos hm, if_pos rfl] at h
    rw [hm]
    exact (Except.ok.inj h).symm
  · have hempty : ¬ [] = text.toUTF8.data.toList := fun hnil => by
      have hsize := congrArg List.length hnil
      rw [Array.length_toList, ← ByteArray.size] at hsize
      exact htext (String.utf8ByteSize_eq_zero_iff.mp hsize.symm)
    rw [if_neg hm, if_neg hempty] at h
    cases h

lemma texts_ne : tooSmallText ≠ "" ∧ handedText ≠ "" := by decide +kernel

lemma told_result (m m' : MigrateResult) (h : told.result.decode (told.result.encode m) = .ok m') :
    m' = m :=
  only_decode texts_ne.1 h

/-- A host with the record of the container and a snapshot of it. -/
def seller : Host := host { frozen with snapshot := some shipped.text } [(shipped.path, .bytes [1])] []

def moving : Migrate.Options := ⟨"secret", true, false, false⟩

/-- The receiver takes the snapshot, and is not heard of again. -/
def taking : ℕ → Host → (o : HostOp) → Option o.Reply :=
  fun i h o => if i < 24 then accepting i h o else none

/-- The receiver takes the snapshot, and tells its result. -/
def telling : ℕ → Host → (o : HostOp) → Option o.Reply
  | 24, _, .recv 5 => some (.ok (5 :: toBE 4 tooSmallText.toUTF8.data.toList.length))
  | 25, _, .recv n => some (.ok (tooSmallText.toUTF8.data.toList.take n))
  | i, h, o => taking i h o

/-- The order in which the two sides take their turns. -/
def turns (a b : ℕ) : List Bool :=
  List.replicate 13 true ++ List.replicate 7 false ++ List.replicate 11 true ++ List.replicate a false ++
    List.replicate b true

/-- The two sides performed their events in that order. -/
def together (turns : List Bool) (source receiver : List HostSig.Event) : Bool :=
  (Link.replay (fun e : HostSig.Event => puts e.1 e.2) (fun e => got e.1 e.2) turns source receiver
    ⟨[], [], true⟩).isSome

lemma connected_of_together {turns : List Bool} {source receiver : List HostSig.Event}
    (h : together turns source receiver = true) : Migrate.Connected source receiver := by
  obtain ⟨c, hc⟩ := Option.isSome_iff_exists.mp h
  exact ⟨c, Linked.of_replay .start hc⟩

/-! ### A whole snapshot -/

/-- A host with the record of the container, and the snapshot that the record names. -/
def courier : Host := host { frozen with snapshot := some latest.text } [(latest.path, .bytes snapshotBytes)] []

/-- The snapshot, as the source finds it. -/
def carried : PathBuf := ⟨latest.text, env.cwd⟩

/-- The source says hello. -/
def calls : List HostSig.Event :=
  announcing carried.path "node:7373" "node" snapshotBytes webHelloText.toUTF8.data.toList

/-- The source is accepted, and sends the snapshot. -/
def delivers : List HostSig.Event :=
  reads .helloAck ackText ++ streams carried.path snapshotBytes webEofText.toUTF8.data.toList

/-- The snapshot is where it was recorded, and what the two ends say fits into their frames. -/
lemma courier_fits : carried.path = latest.path ∧
    webHelloText.toUTF8.data.toList.length < 2 ^ 32 ∧ ackText.length ≤ 4 * 1024 * 1024 ∧
    webEofText.toUTF8.data.toList.length < 2 ^ 32 ∧
    handedText.toUTF8.data.toList.length ≤ 4 * 1024 * 1024 := by
  decide +kernel

lemma courier_carried : courier.file carried.path = some (.bytes snapshotBytes) := by
  rw [courier_fits.1]
  rfl

/-- The source finds its snapshot. -/
lemma courier_prepares : ∃ s, Runs quiet (Migrate.prepare env codec "web" moving) courier s
    (some (.ok carried)) courier := by
  have hdrive : ((machine.drive obliging 20 0 (Migrate.prepare env codec "web" moving).run courier).map
      fun x => (x.2.1, x.1.all fun e => e.1.reads)) = some (some (.ok carried), true) := by
    decide +kernel
  obtain ⟨⟨s, out, h⟩, hx, hall⟩ := Option.map_eq_some_iff.mp hdrive
  obtain ⟨rfl, hreads⟩ := Prod.mk.inj hall
  have hrun := Machine.drive_exec hx
  obtain rfl := reflTransGen_quiet.mp (Runs.star_of_reads hrun (List.all_eq_true.mp hreads))
  exact ⟨s, hrun⟩

/-- The source hears of the restore. -/
lemma courier_told : Runs quiet (collect webProtocol "node" snapshotBytes.length) courier
    (reads .result handedText.toUTF8.data.toList) (some (.ok ⟨handed, snapshotBytes.length⟩)) courier := by
  obtain ⟨-, -, -, -, hresult⟩ := courier_fits
  have hdec : webProtocol.result.decode handedText.toUTF8.data.toList = .ok handed := by
    simp only [webProtocol, only, if_true]
  have hwait : Runs quiet (awaitResult webProtocol "node") courier
      (reads .result handedText.toUTF8.data.toList ++ []) (some (.ok handed)) courier :=
    Exec.fallible_bind (readJson_run hresult (by decide) hdec courier) (.ret _ _)
  exact Exec.fallible_bind hwait (.ret _ _)

/-- The source lets go of its container. -/
lemma courier_lets_go : ∃ tr report h, Runs quiet (when (!moving.keepLocal) (release env "web") >>= fun _ =>
    (pure ⟨"web", "node", snapshotBytes.length, handed.pid, handed.containerIp⟩ : HostM Migrate.Report))
    courier tr (some (.ok report)) h := by
  have hdrive : ((machine.drive obliging 20 0 (when (!moving.keepLocal) (release env "web") >>= fun _ =>
      (pure ⟨"web", "node", snapshotBytes.length, handed.pid, handed.containerIp⟩ :
        HostM Migrate.Report)).run courier).map fun x => x.2.1.map Except.isOk) = some (some true) := by
    decide +kernel
  obtain ⟨⟨tr, out, h⟩, hx, hout⟩ := Option.map_eq_some_iff.mp hdrive
  obtain ⟨res, rfl, hres⟩ := Option.map_eq_some_iff.mp hout
  cases res with
  | error e => cases hres
  | ok report => exact ⟨tr, report, h, Machine.drive_exec hx⟩

/-- The source sends its snapshot, and goes on. -/
lemma courier_delivers {tr : List HostSig.Event} {out : Option (Except RuntimeError Transfer)} {h : Host}
    (hrun : Runs quiet (collect webProtocol "node" snapshotBytes.length) courier tr out h) :
    Runs quiet (sendSnapshot env webProtocol "web" carried "node" moving.token) courier
      (calls ++ (delivers ++ tr)) out h := by
  obtain ⟨-, hhello, hreply, heof, -⟩ := courier_fits
  have hne : snapshotBytes ≠ [] := fun hnil => by
    have hlen := length_snapshotBytes
    rw [hnil] at hlen
    cases hlen
  have hack : webProtocol.helloAck.decode ackText = .ok ⟨1, true, "node", "x86_64", ""⟩ := by
    simp only [webProtocol, protocol, only, ackText, if_true]
  have hannounce : Runs quiet (announce env webProtocol "web" carried "node" moving.token) courier
      (calls ++ reads .helloAck ackText) (some (.ok (snapshotBytes.length, crc32 snapshotBytes))) courier :=
    announce_run courier_carried hne (by decide +kernel) rfl hhello hreply hack rfl rfl
  have hstream : Runs quiet (stream webProtocol carried snapshotBytes.length (crc32 snapshotBytes)) courier
      (streams carried.path snapshotBytes webEofText.toUTF8.data.toList) (some (.ok ())) courier :=
    stream_run courier_carried hne (by rw [length_snapshotBytes]; decide) rfl heof
  have htrace : calls ++ (delivers ++ tr) = (calls ++ reads .helloAck ackText) ++
      (streams carried.path snapshotBytes webEofText.toUTF8.data.toList ++ tr) := by
    rw [delivers, List.append_assoc, List.append_assoc]
  rw [sendSnapshot_eq, htrace]
  exact Exec.fallible_bind hannounce (Exec.fallible_bind hstream hrun)

/-- The source writes what the receiver reads, and the receiver writes what the source reads. -/
lemma Handed.connected {tr₁ tr₂ s s₃ : List HostSig.Event} {rep : Restore.Report} {h : Host}
    (hh : Handed tr₁ tr₂ rep h) (hsent : sent s = []) (hreceived : received s = [])
    (hheard : received s₃ <+: frame .result handedText.toUTF8.data.toList) :
    Migrate.Connected (s ++ (calls ++ (delivers ++ s₃))) (tr₁ ++ (receiving ++ (tr₂ ++ answering))) := by
  rw [← List.append_assoc]
  refine Migrate.connected_of_turns ?_ ?_ ?_ ?_ ?_
  · rw [received_append, hreceived, calls, received_announcing]
    rfl
  · rw [hh.opens, sent_append, hsent, calls, sent_announcing]
    rfl
  · rw [hh.accepts, delivers, received_append, received_reads, received_streams, List.append_nil]
  · rw [delivers, sent_append, sent_reads, sent_streams, received_append, received_append,
      Offline.received adoptAndRestore_offline hh.restore, received_receiving, received_answering]
    simp
  · rw [sent_append, sent_append, Offline.sent adoptAndRestore_offline hh.restore, sent_receiving,
      sent_answering]
    exact hheard

/-- One result is told, and read back. -/
lemma web_result (m m' : MigrateResult) (h : webProtocol.result.decode (webProtocol.result.encode m) = .ok m') :
    m' = m :=
  only_decode texts_ne.2 h

end Demo

namespace Migrate

/-- A source that does not hear of its receiver again: the receiver has the whole byte. -/
theorem arrives_whole_demo : ∃ source out h' receiver hello g',
    Runs quiet (migrate Demo.env Demo.codec Demo.told "web" "node" Demo.moving) Demo.seller source
      (some (.error out)) h' ∧
    Runs quiet (arrive Demo.env Demo.told 2 "secret") (Demo.host Demo.frozen [] []) receiver
      (some (.ok (hello, finalFile Demo.env hello))) g' ∧
    Connected source receiver ∧ ∃ s₁ s₂ w b c, source = s₁ ++ s₂ ∧
      Runs quiet (prepare Demo.env Demo.codec "web" Demo.moving) Demo.seller s₁ (some (.ok b)) w ∧
      w.file b.path = some c ∧ g'.file (finalFile Demo.env hello).path = some (.bytes c.raw) := by
  have hdrive : ((machine.drive (departing Demo.taking) 60 0
      (migrate Demo.env Demo.codec Demo.told "web" "node" Demo.moving).run Demo.seller).bind fun x =>
      (machine.drive (departing (Demo.peer "web")) 60 0 (arrive Demo.env Demo.told 2 "secret").run
        (Demo.host Demo.frozen [] [])).map fun y =>
          (Demo.together (Demo.turns 9 1) x.1 y.1, x.2.1.map Except.isOk, y.2.1.map Except.isOk)) =
      some (true, some false, some true) := by
    decide +kernel
  obtain ⟨⟨source, out, h'⟩, hx, hrest⟩ := Option.bind_eq_some_iff.mp hdrive
  obtain ⟨⟨receiver, out', g'⟩, hy, hchecks⟩ := Option.map_eq_some_iff.mp hrest
  simp only [Prod.mk.injEq] at hchecks
  obtain ⟨htogether, hout, hout'⟩ := hchecks
  obtain ⟨r, rfl, hr⟩ := Option.map_eq_some_iff.mp hout
  obtain ⟨r', rfl, hr'⟩ := Option.map_eq_some_iff.mp hout'
  rcases r with e | rep
  swap
  · cases hr
  rcases r' with e' | ⟨hello, final⟩
  · cases hr'
  have hsource := Machine.drive_exec hx
  have hreceiver := Machine.drive_exec hy
  have hconnected := Demo.connected_of_together htogether
  have hwhole : Connected source (receiver ++ []) := by rwa [List.append_nil]
  obtain ⟨hfinal, s₁, s₂, w, b, c, hs, hprepare, hc, hfile⟩ :=
    arrives_whole (fun _ _ _ _ => keeps_quiet _) hsource hreceiver hwhole
  change final = finalFile Demo.env hello at hfinal
  subst hfinal
  exact ⟨source, e, h', receiver, hello, g', hsource, hreceiver, hconnected, s₁, s₂, w, b, c, hs, hprepare,
    hc, hfile (keeps_quiet _) (keeps_quiet _)⟩

/-- A receiver that cannot restore the one byte, and says so: the source keeps its container. And one that
restores a whole snapshot: the source is told of it, and lets go of its container. -/
theorem handed_over_demo : (∃ source out h' receiver out' g' s₁ s₂ w b,
    Runs quiet (migrate Demo.env Demo.codec Demo.told "web" "node" Demo.moving) Demo.seller source out h' ∧
    Runs quiet (handleOne Demo.env Demo.codec Demo.told 2 "secret" 0) (Demo.host Demo.frozen [] []) receiver
      out' g' ∧
    Connected source receiver ∧ source = s₁ ++ s₂ ∧
    Runs quiet (prepare Demo.env Demo.codec "web" Demo.moving) Demo.seller s₁ (some (.ok b)) w ∧
    SourceEnd Demo.env "web" Demo.moving (fun rep => ∃ c, w.file b.path = some c ∧
      TakenOver quiet Demo.env Demo.codec Demo.told 2 "secret" 0 (Demo.host Demo.frozen [] []) receiver c.raw
        rep) w h' out) ∧
    ∃ source report h' receiver g' s₁ s₂ w b,
    Runs quiet (migrate Demo.env Demo.codec Demo.webProtocol "web" "node" Demo.moving) Demo.courier source
      (some (.ok report)) h' ∧
    Runs quiet (handleOne Demo.env Demo.codec Demo.webProtocol 2 "secret" 0) (Demo.host Demo.frozen [] [])
      receiver (some (.ok "web")) g' ∧
    Connected source receiver ∧ source = s₁ ++ s₂ ∧
    Runs quiet (prepare Demo.env Demo.codec "web" Demo.moving) Demo.courier s₁ (some (.ok b)) w ∧
    SourceEnd Demo.env "web" Demo.moving (fun rep => ∃ c, w.file b.path = some c ∧
      TakenOver quiet Demo.env Demo.codec Demo.webProtocol 2 "secret" 0 (Demo.host Demo.frozen [] []) receiver
        c.raw rep) w h' (some (.ok report)) := by
  constructor
  · -- the byte is no snapshot
    have hdrive : ((machine.drive (departing Demo.telling) 60 0
        (migrate Demo.env Demo.codec Demo.told "web" "node" Demo.moving).run Demo.seller).bind fun x =>
        (machine.drive (departing (Demo.peer "web")) 60 0 (handleOne Demo.env Demo.codec Demo.told 2
          "secret" 0).run (Demo.host Demo.frozen [] [])).map fun y =>
            (Demo.together (Demo.turns 14 2) x.1 y.1, (sent x.1).isEmpty)) = some (true, false) := by
      decide +kernel
    obtain ⟨⟨source, out, h'⟩, hx, hrest⟩ := Option.bind_eq_some_iff.mp hdrive
    obtain ⟨⟨receiver, out', g'⟩, hy, hchecks⟩ := Option.map_eq_some_iff.mp hrest
    obtain ⟨htogether, hsent⟩ := Prod.mk.inj hchecks
    have hsource := Machine.drive_exec hx
    have hreceiver := Machine.drive_exec hy
    have hconnected := Demo.connected_of_together htogether
    rcases handed_over (keeps_quiet _) (fun _ _ _ _ => keeps_quiet _) Demo.told_result hsource hreceiver
      hconnected with ⟨o, hprepare, -⟩ | ⟨s₁, s₂, w, b, hs, hprepare, -, -, hend⟩
    · rw [Offline.sent prepare_offline hprepare] at hsent
      cases hsent
    · exact ⟨source, out, h', receiver, out', g', s₁, s₂, w, b, hsource, hreceiver, hconnected, hs, hprepare,
        hend⟩
  · obtain ⟨tr₁, tr₂, rep, g, hh⟩ := Demo.web_handed
    obtain ⟨s, hprepare⟩ := Demo.courier_prepares
    obtain ⟨t, report, h', hrest⟩ := Demo.courier_lets_go
    have hship := ship_run (Demo.courier_delivers Demo.courier_told)
    have hsource : Runs quiet (migrate Demo.env Demo.codec Demo.webProtocol "web" "node" Demo.moving)
        Demo.courier (s ++ ((Demo.calls ++ (Demo.delivers ++ reads .result
          Demo.handedText.toUTF8.data.toList)) ++ t)) (some (.ok report)) h' := by
      rw [migrate_eq]
      exact Exec.fallible_bind hprepare (Exec.fallible_bind hship hrest)
    have hquiet : received t = [] := by
      refine Offline.received ?_ hrest
      exact finish_offline (t := ⟨Demo.handed, Demo.snapshotBytes.length⟩)
    have hheard : received (reads .result Demo.handedText.toUTF8.data.toList ++ t) <+:
        frame .result Demo.handedText.toUTF8.data.toList := by
      rw [received_append, received_reads, hquiet, List.append_nil]
    have hconnected := hh.connected (Offline.sent prepare_offline hprepare)
      (Offline.received prepare_offline hprepare) hheard
    rw [List.append_assoc, List.append_assoc] at hsource
    rcases handed_over (keeps_quiet _) (fun _ _ _ _ => keeps_quiet _) Demo.web_result hsource hh.handleOne
      hconnected with ⟨o, -, -, hout⟩ | ⟨s₁, s₂, w, b, hs, hprepare', -, -, hend⟩
    · exact absurd rfl (hout report)
    · exact ⟨_, report, h', _, g, s₁, s₂, w, b, hsource, hh.handleOne, hconnected, hs, hprepare', hend⟩

end Migrate

end Mincontainer
