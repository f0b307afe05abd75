import Mathlib.Data.Finset.Lattice.Lemmas
import Mincontainer.Container.Inside
import Mincontainer.Effects.Assure

set_option relaxedAutoImplicit false
set_option autoImplicit false

/-!
# What the setup of a container makes of its process

The process after each step of the setup, where the step succeeds, and after all of them: its mounts,
its descriptors, its credentials and its filters are functions of the configuration and of the process
before.

## Main definitions

* `Mincontainer.Setup.Yields` — what holds after a step that succeeded.
* `Mincontainer.Setup.binds` — the directories that are bound, and where.
* `Mincontainer.Setup.rooted` — the mounts after the change of root.
* `Mincontainer.Setup.stdio`, `Mincontainer.Setup.dropped` — the descriptors and the credentials.

## Main results

* `Mincontainer.Setup.own_rooted` — what the paths of the container lead to.
* `Mincontainer.Setup.redirectStdio_yields` — the standard descriptors, and no others, are changed.
* `Mincontainer.Setup.dropDangerous_yields` — what is left of the capabilities.
* `Mincontainer.Setup.setup_yields` — the process after its setup.
-/

namespace Mincontainer

open Effects Files Linux

namespace Setup

variable {arch : TargetArch} {α β : Type} {w w' : Inside}

/-! ### Steps that succeed -/

/-- Where the step succeeds, `Q` holds of its result and of the process afterwards. -/
def Yields (arch : TargetArch) (Q : α → Inside → Prop) (x : SysM α) (w : Inside) : Prop :=
  (inside arch).Promises quiet (fun _ => True) Q (fun _ => True) x w

namespace Yields

variable {Q : β → Inside → Prop}

lemma bind {P : α → Inside → Prop} {x : SysM α} {f : α → SysM β} (hx : Yields arch P x w)
    (hf : ∀ a w, P a w → Yields arch Q (f a) w) : Yields arch Q (x >>= f) w :=
  Machine.Promises.bind hx hf

lemma pure {b : β} (h : Q b w) : Yields arch Q (pure b : SysM β) w :=
  Machine.Promises.pure fun w₁ h₁ => by
    obtain rfl := reflTransGen_quiet.mp h₁
    exact h

/-- A call in front. -/
lemma sys {o : Sys} {f : Except String ℕ → SysM β}
    (hok : ∀ n, w.Grants o n → w.Passes arch o → Yields arch Q (f (.ok n)) (w.after o n))
    (herr : ∀ e, w.Refuses o ∨ ¬ w.Passes arch o → Yields arch Q (f (.error e)) w) :
    Yields arch Q (Fallible.sys (S := SysSig) o >>= f) w := by
  refine Machine.Promises.call trivial fun w₁ r hR hr => ?_
  obtain rfl := reflTransGen_quiet.mp hR
  cases r with
  | ok n => exact hok n hr.1 hr.2
  | error e => exact herr e hr

/-- A call whose error ends the function, in front. -/
lemma act {o : Sys} {err : String → RuntimeError} {f : ℕ → SysM β}
    (h : ∀ n, w.Grants o n → w.Passes arch o → Yields arch Q (f n) (w.after o n)) :
    Yields arch Q (Setup.act o err >>= f) w := by
  unfold Setup.act
  rw [bind_assoc]
  refine Yields.sys (fun n hn hp => ?_) fun e _ => ?_
  · exact h n hn hp
  · exact Machine.Promises.throw trivial

/-- A call whose error ends the function, alone. -/
lemma call {o : Sys} {err : String → RuntimeError} {P : ℕ → Inside → Prop}
    (h : ∀ n, w.Grants o n → P n (w.after o n)) : Yields arch P (Setup.act o err) w := by
  rw [← bind_pure (Setup.act o err)]
  exact Yields.act fun n hn _ => Yields.pure (h n hn)

/-- A call whose outcome does not matter, in front. -/
lemma ignore {o : Sys} {f : Unit → SysM β} (hok : ∀ n, w.Grants o n → Yields arch Q (f ()) (w.after o n))
    (herr : w.Refuses o ∨ ¬ w.Passes arch o → Yields arch Q (f ()) w) :
    Yields arch Q (Setup.ignore o >>= f) w := by
  unfold Setup.ignore
  rw [bind_assoc]
  exact Yields.sys (fun n hn _ => hok n hn) fun _ h => herr h

lemma mono {Q' : β → Inside → Prop} {x : SysM β} (h : Yields arch Q x w)
    (hQ : ∀ b w, Q b w → Q' b w) : Yields arch Q' x w :=
  Machine.Promises.mono hQ (fun _ => id) h

/-- What a step yields holds of the executions that return. -/
lemma exec {x : SysM β} {tr : List SysSig.Event} {b : β} (h : Yields arch Q x w)
    (hrun : Exec (inside arch) quiet x.run w tr (some (.ok b)) w') : Q b w' :=
  (Machine.Promises.exec h hrun).2.1 b rfl

end Yields

/-! ### The directories that are bound -/

/-- Where a volume is from and where it goes. -/
def volumeBind (cwd : Path) (rootfs : String) (v : Volume) : Path × Path :=
  (resolve cwd v.hostPath, Mounts.bindTarget (resolve cwd rootfs) v.containerPath)

/-- Everything that is bound before the change of root, in order. -/
def binds (cwd : Path) (cfg : ContainerConfig) (io : Option String) : List (Path × Path) :=
  cfg.volumes.map (volumeBind cwd cfg.rootfs) ++
    (io.map fun dir => (resolve cwd dir, resolve (resolve cwd cfg.rootfs) ".mcio")).toList

lemma mountVolumeIntoRootfs_yields (rootfs hostPath containerPath : String) :
    Yields arch (fun _ w' => w' = { w with
        mounts := w.mounts.bind (resolve w.cwd hostPath)
          (Mounts.bindTarget (resolve w.cwd rootfs) containerPath) })
      (mountVolumeIntoRootfs rootfs hostPath containerPath) w := by
  unfold mountVolumeIntoRootfs
  refine Yields.act fun _ _ _ => ?_
  refine Yields.act fun _ _ _ => ?_
  exact Yields.pure rfl

/-- **The volumes** are bound one after the other.

**Proof sketch.** Induction on the volumes; binding one does not change the working directory from which
the next is resolved. -/
lemma mountVolumes_yields (rootfs : String) (vs : List Volume) :
    Yields arch (fun _ w' => w' = { w with
        mounts := w.mounts.bindAll (vs.map (volumeBind w.cwd rootfs)) })
      (mountVolumes rootfs vs) w := by
  induction vs generalizing w with
  | nil => exact Yields.pure rfl
  | cons v vs ih =>
    unfold mountVolumes
    refine (mountVolumeIntoRootfs_yields rootfs v.hostPath v.containerPath).bind fun _ w₁ hw₁ => ?_
    have hrest := ih (w := w₁)
    subst hw₁
    exact hrest

lemma bindTarget_logs (root : Path) : Mounts.bindTarget root ".mcio" = resolve root ".mcio" := by
  have htrim : Mounts.trimRoot ".mcio" = ".mcio" := by decide
  rw [Mounts.bindTarget, htrim]

/-- All directories that a container is given. -/
lemma bindDirectories_yields (cfg : ContainerConfig) (io : Option String) :
    Yields arch (fun _ w' => w' = { w with mounts := w.mounts.bindAll (binds w.cwd cfg io) })
      (bindDirectories cfg io) w := by
  unfold bindDirectories
  refine (mountVolumes_yields cfg.rootfs cfg.volumes).bind fun _ w₁ hw₁ => ?_
  cases io with
  | none =>
    refine Yields.pure ?_
    rw [hw₁, binds, Option.map_none, Option.toList_none, List.append_nil]
  | some dir =>
    refine (mountVolumeIntoRootfs_yields cfg.rootfs dir ".mcio").mono fun _ w₂ hw₂ => ?_
    rw [hw₂, hw₁, bindTarget_logs, binds, Option.map_some, Option.toList_some, Mounts.bindAll_append]
    rfl

/-! ### The change of root -/

/-- The mounts after the change of root, with what `/dev` was mounted from. -/
def rooted (m : Mounts) (root : Path) (dev : String) : Mounts :=
  ((((m.makePrivate.bind root root).pivotRoot root [".oldroot"]).detach).mountFs "proc" ["proc"]).mountFs
    dev ["dev"]

lemma resolve_slash (dir : Path) : resolve dir "/" = [] := by
  have h : components "/" = [.rootDir] := by decide
  rw [resolve, h]
  rfl

lemma resolve_dot (dir : Path) : resolve dir "." = dir := by
  have h : components "." = [.curDir] := by decide
  rw [resolve, h]
  rfl

lemma resolve_oldroot (dir : Path) : resolve dir ".oldroot" = dir ++ [".oldroot"] := by
  have h : components ".oldroot" = [.normal ".oldroot"] := by decide
  rw [resolve, h]
  rfl

lemma makeDevNodes_yields (nodes : List (String × ℕ × ℕ)) :
    Yields arch (fun _ w' => w' = w) (makeDevNodes nodes) w := by
  induction nodes with
  | nil => exact Yields.pure rfl
  | cons node nodes ih =>
    unfold makeDevNodes
    exact Yields.ignore (fun _ _ => ih) fun _ => ih

/-- What is mounted at `/dev` is of one of two kinds. -/
lemma mountDev_yields (hcwd : w.cwd = []) :
    Yields arch (fun _ w' => ∃ dev, (dev = "devtmpfs" ∨ dev = "tmpfs") ∧
        w' = { w with mounts := w.mounts.mountFs dev ["dev"] }) mountDev w := by
  have hplace : w.place ["/dev"] = ["dev"] := by
    show resolve w.cwd "/dev" = ["dev"]
    rw [hcwd]
    decide
  unfold mountDev
  refine Yields.sys (fun _ _ _ => ?_) fun _ _ => ?_
  · refine Yields.pure ⟨"devtmpfs", .inl rfl, ?_⟩
    show { w with mounts := w.mounts.mountFs "devtmpfs" (w.place ["/dev"]) } = _
    rw [hplace]
  · refine Yields.act fun _ _ _ => ?_
    refine (makeDevNodes_yields devNodes).mono fun _ w' hw' => ⟨"tmpfs", .inr rfl, ?_⟩
    subst hw'
    show { w with mounts := w.mounts.mountFs "tmpfs" (w.place ["/dev"]) } = _
    rw [hplace]

/-- **The change of root.**

**Proof sketch.** The calls one after the other. The working directory is the new root when the root is
changed, and the root afterwards, so that each text denotes a known path. -/
lemma setupRootfs_yields (rootfs : String) :
    Yields arch (fun _ w' => resolve w.cwd rootfs ≠ [] ∧
        ∃ dev, (dev = "devtmpfs" ∨ dev = "tmpfs") ∧ w' = { w with
          mounts := rooted w.mounts (resolve w.cwd rootfs) dev
          cwd := [] }) (setupRootfs rootfs) w := by
  have hbound (n : ℕ) (w₁ : Inside) :
      w₁.after (.pivotRoot "." ".oldroot") n = { w₁ with
        mounts := w₁.mounts.pivotRoot w₁.cwd [".oldroot"]
        cwd := [] } := by
    simp only [Inside.after, resolve_dot, resolve_oldroot, List.drop_left, List.prefix_refl, if_true,
      List.drop_length]
  unfold setupRootfs
  refine Yields.act fun _ _ _ => ?_
  refine Yields.act fun _ _ _ => ?_
  refine Yields.act fun _ _ _ => ?_
  refine Yields.act fun _ _ _ => ?_
  change Yields arch _ _ { w with
    mounts := w.mounts.makePrivate.bind (resolve w.cwd rootfs) (resolve w.cwd rootfs)
    cwd := resolve w.cwd rootfs }
  refine Yields.act fun _ hgrants _ => ?_
  have hroot : resolve w.cwd rootfs ≠ [] := by
    have hne : resolve (resolve w.cwd rootfs) "." ≠ [] := hgrants.2.1
    rwa [resolve_dot] at hne
  rw [hbound]
  refine Yields.act fun _ _ _ => ?_
  refine Yields.act fun _ _ _ => ?_
  change Yields arch _ _ { w with
    mounts := ((w.mounts.makePrivate.bind (resolve w.cwd rootfs) (resolve w.cwd rootfs)).pivotRoot
      (resolve w.cwd rootfs) [".oldroot"]).detach
    cwd := resolve [] "/" }
  rw [resolve_slash]
  suffices hlast : Yields arch (fun _ w' => resolve w.cwd rootfs ≠ [] ∧
      ∃ dev, (dev = "devtmpfs" ∨ dev = "tmpfs") ∧ w' = { w with
        mounts := rooted w.mounts (resolve w.cwd rootfs) dev
        cwd := [] }) (do
        let _ ← Setup.act (.mount (some ["proc"]) ["/proc"] (some "proc") []) (.syscall "mount(/proc)")
        Setup.ignore (.createDirAll ["/dev"])
        mountDev) { w with
      mounts := ((w.mounts.makePrivate.bind (resolve w.cwd rootfs) (resolve w.cwd rootfs)).pivotRoot
        (resolve w.cwd rootfs) [".oldroot"]).detach
      cwd := [] } from
    Yields.ignore (fun _ _ => Yields.ignore (fun _ _ => hlast) fun _ => hlast)
      fun _ => Yields.ignore (fun _ _ => hlast) fun _ => hlast
  refine Yields.act fun _ _ _ => ?_
  change Yields arch _ _ { w with
    mounts := (((w.mounts.makePrivate.bind (resolve w.cwd rootfs) (resolve w.cwd rootfs)).pivotRoot
      (resolve w.cwd rootfs) [".oldroot"]).detach).mountFs "proc" (resolve [] "/proc")
    cwd := [] }
  have hproc : resolve [] "/proc" = ["proc"] := by decide
  rw [hproc]
  suffices hdev : Yields arch _ mountDev _ from Yields.ignore (fun _ _ => hdev) fun _ => hdev
  exact (mountDev_yields rfl).mono fun _ _ hw' => ⟨hroot, hw'⟩

/-! ### What the paths of the container lead to -/

/-- Above the root file system. -/
lemma own_rebind (m : Mounts) {root : Path} (hroot : root ≠ []) (p : Path) :
    ((m.makePrivate.bind root root).own (root ++ p)).loc = (m.own (root ++ p)).loc := by
  rw [Mounts.bind, Mounts.own_attach (Mounts.private_makePrivate m root),
    if_pos ⟨hroot, List.prefix_append root p⟩, List.drop_left, Mounts.subtree, Spot.loc_copied]
  rfl

/-- Below the new root lies what was below the directory; the old root is gone. -/
lemma own_pivot_detach (m : Mounts) (root p : Path) :
    ((m.pivotRoot root [".oldroot"]).detach).own p = m.own (root ++ p) := by
  show (if [".oldroot"] <+: p then m.own (root ++ p)
    else if [".oldroot"] <+: p then m.own (p.drop 1) else m.own (root ++ p)) = m.own (root ++ p)
  by_cases hp : [".oldroot"] <+: p
  · rw [if_pos hp]
  · rw [if_neg hp, if_neg hp]

lemma private_changed (m : Mounts) (root : Path) :
    (((m.makePrivate.bind root root).pivotRoot root [".oldroot"]).detach).own.Private := fun p => by
  rw [own_pivot_detach]
  exact Mounts.private_bind root root (Mounts.private_makePrivate m) _

/-- **The paths of the container**: `/dev` and `/proc` lead to what was mounted there, every other path where
the path below its root file system led before the change of root.

**Proof sketch.** The namespace is private by then, so that a mount shows at its mount point only; `/dev`
was mounted last, `/proc` before it, and below both lies the directory that became the root. -/
lemma own_rooted (m : Mounts) {root : Path} (hroot : root ≠ []) (dev : String) :
    ∃ j k, ∀ p,
      if ["dev"] <+: p then ((rooted m root dev).own p).loc = (.mounted dev j, p.drop 1)
      else if ["proc"] <+: p then ((rooted m root dev).own p).loc = (.made "proc" k, p.drop 1)
      else ((rooted m root dev).own p).loc = (m.own (root ++ p)).loc := by
  have hpriv := private_changed m root
  have hproc := Mounts.private_mountFs "proc" ["proc"] hpriv
  let changed := ((m.makePrivate.bind root root).pivotRoot root [".oldroot"]).detach
  refine ⟨(changed.mountFs "proc" ["proc"]).made, changed.made, fun p => ?_⟩
  by_cases hdev : ["dev"] <+: p
  · rw [if_pos hdev]
    exact Mounts.loc_mountFs (hproc ["dev"]) (List.cons_ne_nil _ _) dev hdev
  · rw [if_neg hdev, rooted, Mounts.own_mountFs_of_not_prefix (hproc ["dev"]) dev hdev]
    by_cases hp : ["proc"] <+: p
    · rw [if_pos hp]
      exact Mounts.loc_mountFs (hpriv ["proc"]) (List.cons_ne_nil _ _) "proc" hp
    · rw [if_neg hp, Mounts.own_mountFs_of_not_prefix (hpriv ["proc"]) "proc" hp, own_pivot_detach]
      exact own_rebind m hroot p

/-! ### The descriptors, the capabilities and the filter -/

/-- The descriptor `fd` was opened anew, and nothing else was left open. -/
structure Redirected (w : Inside) (path : String) (flags : List OFlag) (fd : ℕ) (w' : Inside) :
    Prop where
  same : w' = { w with fds := w'.fds }
  target : w'.fds fd = some ⟨w.mounts.own (resolve w.cwd path), flags⟩
  kept : ∀ k, k ≠ fd → w.fds k ≠ none → w'.fds k = w.fds k
  above : ∀ k, 2 < k → w'.fds k = w.fds k

/-- **A standard descriptor is opened anew.**

**Proof sketch.** The file is opened as the first free descriptor. If that is not one of the standard
ones it is closed again after it was duplicated; if it is, it is either the one meant, or one that was
not open before. -/
lemma redirect_yields {Q : β → Inside → Prop} {path : String} {flags : List OFlag} {fd : ℕ}
    {e₁ e₂ : String → RuntimeError} {k : SysM β} (hfd : fd ≤ 2)
    (h : ∀ w', Redirected w path flags fd w' → Yields arch Q k w') :
    Yields arch Q (do
      let f ← act (.open path flags) e₁
      let _ ← act (.dup2 f fd) e₂
      closeAbove f
      k) w := by
  refine Yields.act fun f hf _ => ?_
  obtain ⟨hfree, -⟩ := hf
  refine Yields.act fun n _ _ => ?_
  set file : OpenFile := ⟨w.mounts.own (resolve w.cwd path), flags⟩ with hfile
  set w₂ := (w.after (.open path flags) f).after (.dup2 f fd) n with hw₂
  have hfds : ∀ k, w₂.fds k = if k = fd then some file else if k = f then some file else w.fds k := by
    intro k
    show (if k = fd then (if f = f then some file else w.fds f)
      else if k = f then some file else w.fds k) = _
    rw [if_pos rfl]
  unfold closeAbove
  by_cases hf2 : 2 < f
  · rw [if_pos hf2]
    refine Yields.ignore (fun n _ => ?_) fun hrefuse => ?_
    · refine h _ ⟨rfl, ?_, ?_, ?_⟩
      · show (if fd = f then none else w₂.fds fd) = some file
        rw [if_neg (by omega), hfds, if_pos rfl]
      · intro k hk hopen
        show (if k = f then none else w₂.fds k) = w.fds k
        have hkf : k ≠ f := by
          rintro rfl
          exact hopen hfree
        rw [if_neg hkf, hfds, if_neg hk, if_neg hkf]
      · intro k hk
        show (if k = f then none else w₂.fds k) = w.fds k
        by_cases hkf : k = f
        · rw [if_pos hkf, hkf, hfree]
        · rw [if_neg hkf, hfds, if_neg (by omega), if_neg hkf]
    · exfalso
      rcases hrefuse with hnone | hpass
      · have hopen : w₂.fds f = some file := by
          rw [hfds]
          by_cases hff : f = fd
          · rw [if_pos hff]
          · rw [if_neg hff, if_pos rfl]
        have hclosed : w₂.fds f = none := hnone
        rw [hopen] at hclosed
        cases hclosed
      · exact hpass fun c hc => by cases hc
  · rw [if_neg hf2]
    refine h w₂ ⟨rfl, ?_, ?_, ?_⟩
    · rw [hfds, if_pos rfl]
    · intro k hk hopen
      have hkf : k ≠ f := by
        rintro rfl
        exact hopen hfree
      rw [hfds, if_neg hk, if_neg hkf]
    · intro k hk
      rw [hfds, if_neg (by omega), if_neg (by omega)]

/-- The last descriptor to be opened anew. -/
lemma redirect_last_yields {Q : Unit → Inside → Prop} {path : String} {flags : List OFlag} {fd : ℕ}
    {e₁ e₂ : String → RuntimeError} (hfd : fd ≤ 2)
    (h : ∀ w', Redirected w path flags fd w' → Q () w') :
    Yields arch Q (do
      let f ← act (.open path flags) e₁
      let _ ← act (.dup2 f fd) e₂
      closeAbove f) w := by
  suffices hlast : Yields arch Q (do
      let f ← act (.open path flags) e₁
      let _ ← act (.dup2 f fd) e₂
      closeAbove f
      (pure () : SysM Unit)) w by
    simpa only [bind_pure_unit] using hlast
  exact redirect_yields hfd fun w' h' => Yields.pure (h w' h')

/-- The descriptors after the redirection: the standard ones lead to `/dev/null` and to the logs, and the
others are as before. -/
def stdio (w : Inside) : ℕ → Option OpenFile
  | 0 => some ⟨w.mounts.own (resolve w.cwd "/dev/null"), [.rdwr]⟩
  | 1 => some ⟨w.mounts.own (resolve w.cwd "/.mcio/stdout"), [.wronly, .creat, .append]⟩
  | 2 => some ⟨w.mounts.own (resolve w.cwd "/.mcio/stderr"), [.wronly, .creat, .append]⟩
  | k => w.fds k

/-- **The standard descriptors** and no others are changed, whatever was open before.

**Proof sketch.** Each of the three is opened anew and stays as it is when the next one is. -/
lemma redirectStdio_yields :
    Yields arch (fun _ w' => w' = { w with fds := stdio w }) redirectStdio w := by
  have hout : logText "stdout" = "/.mcio/stdout" := by decide
  have herr : logText "stderr" = "/.mcio/stderr" := by decide
  unfold redirectStdio redirectTo
  rw [hout, herr]
  simp only [bind_assoc]
  refine redirect_yields (by omega) fun w₁ h₁ => ?_
  refine redirect_yields (by omega) fun w₂ h₂ => ?_
  refine redirect_last_yields (by omega) fun w₃ h₃ => ?_
  have hm₁ : w₁.mounts = w.mounts := by
    have h := congrArg Inside.mounts h₁.same
    exact h
  have hc₁ : w₁.cwd = w.cwd := by
    have h := congrArg Inside.cwd h₁.same
    exact h
  have hm₂ : w₂.mounts = w.mounts := by
    have h := congrArg Inside.mounts h₂.same
    exact h.trans hm₁
  have hc₂ : w₂.cwd = w.cwd := by
    have h := congrArg Inside.cwd h₂.same
    exact h.trans hc₁
  have hfds : w₃.fds = stdio w := by
    funext k
    match k with
    | 0 =>
      have h0 := h₁.target
      have h0₂ := h₂.kept 0 (by omega) (by rw [h0]; exact Option.some_ne_none _)
      rw [h0] at h0₂
      have h0₃ := h₃.kept 0 (by omega) (by rw [h0₂]; exact Option.some_ne_none _)
      rw [h0₃, h0₂]
      rfl
    | 1 =>
      have h1 := h₂.target
      have h1₃ := h₃.kept 1 (by omega) (by rw [h1]; exact Option.some_ne_none _)
      rw [h1₃, h1, hm₁, hc₁]
      rfl
    | 2 =>
      rw [h₃.target, hm₂, hc₂]
      rfl
    | k + 3 =>
      rw [h₃.above _ (by omega), h₂.above _ (by omega), h₁.above _ (by omega)]
      rfl
  rw [h₃.same, hfds, h₂.same, h₁.same]

/-- The credentials after dropping capabilities: they leave the bounding set only if the process may
change it, which is not checked. -/
def dropped (c : Credentials) : Credentials :=
  { c with
    inheritable := ∅
    ambient := ∅
    bounding := if .setpcap ∈ c.effective then c.bounding \ dangerous.toFinset else c.bounding }

/-- **Dropping one after the other.**

**Proof sketch.** Induction on the capabilities. Each leaves the bounding set if the process may change it,
and is kept in it otherwise; the outcome for the ambient set does not matter. -/
lemma dropEach_yields (caps : List Capability) :
    Yields arch (fun _ w' => ∃ ambient, w' = { w with creds := { w.creds with
        bounding := if .setpcap ∈ w.creds.effective then w.creds.bounding \ caps.toFinset
          else w.creds.bounding
        ambient := ambient } }) (dropEach caps) w := by
  induction caps generalizing w with
  | nil =>
    refine Yields.pure ⟨w.creds.ambient, ?_⟩
    rw [List.toFinset_nil, Finset.sdiff_empty, ite_self]
  | cons cap caps ih =>
    have hrest (w₁ : Inside) (b a : Finset Capability)
        (hw₁ : w₁ = { w with creds := { w.creds with bounding := b, ambient := a } })
        (hb : b = if .setpcap ∈ w.creds.effective then w.creds.bounding.erase cap else w.creds.bounding) :
        Yields arch (fun _ w' => ∃ ambient, w' = { w with creds := { w.creds with
          bounding := if .setpcap ∈ w.creds.effective then w.creds.bounding \ (cap :: caps).toFinset
            else w.creds.bounding
          ambient := ambient } }) (dropEach caps) w₁ := by
      refine ih.mono fun _ w' hw' => ?_
      obtain ⟨ambient, hw'⟩ := hw'
      refine ⟨ambient, ?_⟩
      subst hw₁ hb
      rw [hw']
      by_cases hcap : .setpcap ∈ w.creds.effective
      · simp only [hcap, if_true, List.toFinset_cons, Finset.sdiff_insert, Finset.erase_sdiff_comm]
      · simp only [hcap, if_false]
    unfold dropEach
    refine Yields.ignore (fun _ hcap => ?_) fun hcap => ?_
    · have hcap' : .setpcap ∈ w.creds.effective := hcap
      refine Yields.ignore (fun _ _ => ?_) fun _ => ?_
      · exact hrest _ (w.creds.bounding.erase cap) (w.creds.ambient.erase cap) rfl (if_pos hcap').symm
      · exact hrest _ (w.creds.bounding.erase cap) w.creds.ambient rfl (if_pos hcap').symm
    · have hcap' : .setpcap ∉ w.creds.effective := by
        rcases hcap with hcap | hpass
        · exact hcap
        · exact absurd (fun c hc => by cases hc) hpass
      refine Yields.ignore (fun _ _ => ?_) fun _ => ?_
      · exact hrest _ w.creds.bounding (w.creds.ambient.erase cap) rfl (if_neg hcap').symm
      · exact hrest _ w.creds.bounding w.creds.ambient rfl (if_neg hcap').symm

lemma dropDangerous_yields :
    Yields arch (fun _ w' => w' = { w with creds := dropped w.creds }) dropDangerous w := by
  unfold dropDangerous
  refine (dropEach_yields dangerous).bind fun _ w₁ hw₁ => ?_
  obtain ⟨ambient, rfl⟩ := hw₁
  refine Yields.act fun _ _ _ => Yields.pure ?_
  show { w with creds := Credentials.capset _ w.creds.permitted w.creds.effective ∅ } = _
  unfold Credentials.capset dropped
  rw [Finset.inter_empty, Finset.inter_empty]

/-- The process with the filter. -/
def filtered (arch : TargetArch) (w : Inside) : Inside :=
  { w with
    filters := (seccompFilter arch).verdict :: w.filters
    creds := { w.creds with noNewPrivs := true } }

lemma applySeccomp_yields : Yields arch (fun _ w' => w' = filtered arch w) (applySeccomp arch) w := by
  unfold applySeccomp
  exact Yields.act fun _ _ _ => Yields.pure rfl

/-! ### All of it -/

/-- A step that is left out where a condition does not hold. -/
lemma Yields.branch {b : Bool} {x : SysM Unit} {f : Inside → Inside} {k : Unit → SysM β}
    {Q : β → Inside → Prop} (hx : Yields arch (fun _ w' => w' = f w) x w)
    (hk : Yields arch Q (k ()) (if b then f w else w)) :
    Yields arch Q (if b then x >>= k else k ()) w := by
  cases b with
  | false => exact hk
  | true =>
    refine hx.bind fun _ w₁ hw₁ => ?_
    subst hw₁
    exact hk

/-- The process once its root is changed. -/
def entered (cfg : ContainerConfig) (io : Option String) (dev : String) (w : Inside) : Inside :=
  { w with
    leader := io.isSome || w.leader
    hostname := cfg.hostname
    mounts := rooted (w.mounts.bindAll (binds w.cwd cfg io)) (resolve w.cwd cfg.rootfs) dev
    cwd := [] }

/-- The process with its descriptors, its capabilities and its filter. -/
def hardened (arch : TargetArch) (cfg : ContainerConfig) (io : Option String) (w : Inside) : Inside :=
  let w := if io.isSome then { w with fds := stdio w } else w
  let w := if cfg.dropCaps then { w with creds := dropped w.creds } else w
  if cfg.seccomp then filtered arch w else w

@[simp] lemma mounts_hardened (arch : TargetArch) (cfg : ContainerConfig) (io : Option String)
    (w : Inside) : (hardened arch cfg io w).mounts = w.mounts := by
  cases hs : cfg.seccomp <;> cases hd : cfg.dropCaps <;> cases io <;> (unfold hardened; rw [hs, hd]; rfl)

lemma fds_hardened (arch : TargetArch) (cfg : ContainerConfig) (dir : String) (w : Inside) :
    (hardened arch cfg (some dir) w).fds = stdio w := by
  cases hs : cfg.seccomp <;> cases hd : cfg.dropCaps <;> (unfold hardened; rw [hs, hd]; rfl)

/-- The steps after the change of root. -/
lemma harden_yields (cfg : ContainerConfig) (io : Option String) (hcwd : w.cwd = []) :
    Yields arch (fun _ w' => w' = hardened arch cfg io w) (do
      let _ ← act (.chdir ["/"]) (.syscall "chdir(/)")
      harden arch cfg io) w := by
  refine Yields.act fun n _ _ => ?_
  have hchdir : w.after (.chdir ["/"]) n = w := by
    show { w with cwd := resolve w.cwd "/" } = w
    rw [resolve_slash, ← hcwd]
  rw [hchdir]
  unfold harden
  dsimp only
  refine Yields.branch (f := fun w => { w with fds := stdio w }) redirectStdio_yields ?_
  refine Yields.branch (f := fun w => { w with creds := dropped w.creds }) dropDangerous_yields ?_
  cases hs : cfg.seccomp with
  | false =>
    refine Yields.pure ?_
    unfold hardened
    rw [hs]
    rfl
  | true =>
    refine applySeccomp_yields.mono fun _ w' hw' => ?_
    rw [hw']
    unfold hardened
    rw [hs]
    rfl

/-- **The process after its setup.**

**Proof sketch.** The steps one after the other. Each is resolved from the working directory it is left
with by the one before; nothing before the change of root changes it. -/
theorem setup_yields (cfg : ContainerConfig) (io : Option String) :
    Yields arch (fun _ w' => resolve w.cwd cfg.rootfs ≠ [] ∧
        ∃ dev, (dev = "devtmpfs" ∨ dev = "tmpfs") ∧ w' = hardened arch cfg io (entered cfg io dev w))
      (setup arch cfg io) w := by
  have hrest (w₁ : Inside) (hw₁ : w₁ = { w with
      leader := io.isSome || w.leader
      hostname := cfg.hostname }) :
      Yields arch (fun _ w' => resolve w.cwd cfg.rootfs ≠ [] ∧
        ∃ dev, (dev = "devtmpfs" ∨ dev = "tmpfs") ∧ w' = hardened arch cfg io (entered cfg io dev w)) (do
          bindDirectories cfg io
          setupRootfs cfg.rootfs
          let _ ← act (.chdir ["/"]) (.syscall "chdir(/)")
          harden arch cfg io) w₁ := by
    subst hw₁
    refine (bindDirectories_yields cfg io).bind fun _ w₂ hw₂ => ?_
    subst hw₂
    refine (setupRootfs_yields cfg.rootfs).bind fun _ w₃ hw₃ => ?_
    obtain ⟨hroot, dev, hdev, rfl⟩ := hw₃
    exact (harden_yields cfg io rfl).mono fun _ w' hw' => ⟨hroot, dev, hdev, hw'⟩
  unfold setup
  cases io with
  | none => exact Yields.act fun _ _ _ => hrest _ rfl
  | some dir => exact Yields.act fun _ _ _ => Yields.act fun _ _ _ => hrest _ rfl

end Setup

end Mincontainer
