import Mathlib.Data.List.Infix
import Mincontainer.Files.Path

set_option relaxedAutoImplicit false
set_option autoImplicit false

/-!
# Symbolic links

The links of a file system as a finite map from their places to where they lead, and the way a path
takes through them. A place lies at no link but its last name; what a link leads to is where the
kernel ends when it has followed it, so it lies at no link at all. A link that never leads anywhere is
none of them.

## Main definitions

* `Files.Links` — the links.
* `Files.Links.lead` — where a path leads when all links on it are followed.
* `Files.Links.entry` — where it leads when its last name is taken as it is.
* `Files.Links.Real` — paths with no link on the way.

## Main results

* `Files.Links.lead_append_of_entry`, `Files.Links.lead_below` — what lies below a directory is reached
  through it.
-/

namespace Files

/-- The links, each with its place and with where it leads. -/
abbrev Links := List (Path × Path)

namespace Links

variable (t : Links)

/-- Go on along the names from a place. -/
def walk : Path → List String → Path
  | here, [] => here
  | here, n :: rest =>
    match t.lookup (here ++ [n]) with
    | some target => walk target rest
    | none => walk (here ++ [n]) rest

/-- Where the path leads. -/
def lead (p : Path) : Path := t.walk [] p

/-- Where the path leads when its last name is taken as it is. -/
def entry (p : Path) : Path := t.lead p.dropLast ++ p.drop (p.length - 1)

/-- No link lies at the path or above it. -/
def Real (f : Path) : Prop := ∀ l ∈ t, ¬ l.1 <+: f

instance (f : Path) : Decidable (t.Real f) := inferInstanceAs (Decidable (∀ l ∈ t, ¬ l.1 <+: f))

variable {t} {here p q f : Path}

lemma lookup_eq_none (h : ∀ l ∈ t, l.1 ≠ p) : t.lookup p = none := by
  rw [List.lookup_eq_none_iff]
  exact fun l hl => bne_iff_ne.mpr fun heq => h l hl heq.symm

/-- A walk that meets no link goes where its names say. -/
lemma walk_of_real (h : ∀ l ∈ t, here <+: l.1 → l.1 ≠ here → ¬ l.1 <+: here ++ p) :
    t.walk here p = here ++ p := by
  induction p generalizing here with
  | nil => exact (List.append_nil here).symm
  | cons n rest ih =>
    have hsplit : here ++ n :: rest = here ++ [n] ++ rest := by simp
    have hnone : t.lookup (here ++ [n]) = none := lookup_eq_none fun l hl heq =>
      h l hl (heq ▸ List.prefix_append _ _) (by simp [heq]) (by
        rw [hsplit, heq]
        exact List.prefix_append _ _)
    rw [walk, hnone, ih fun l hl hpre _ hon => h l hl ((List.prefix_append _ _).trans hpre) ?_ ?_,
      hsplit]
    · rintro heq
      have := hpre.length_le
      simp only [heq, List.length_append, List.length_singleton] at this
      omega
    · rw [hsplit]
      exact hon

lemma walk_append : t.walk here (p ++ q) = t.walk (t.walk here p) q := by
  induction p generalizing here with
  | nil => rfl
  | cons n rest ih =>
    rw [List.cons_append, walk, walk]
    split <;> exact ih

lemma lead_append : t.lead (p ++ q) = t.walk (t.lead p) q := walk_append

/-- A real path leads to itself. -/
lemma Real.lead (h : t.Real f) : t.lead f = f :=
  walk_of_real fun l hl _ _ => h l hl

lemma Real.of_prefix (h : t.Real f) (hp : p <+: f) : t.Real p := fun l hl hlp => h l hl (hlp.trans hp)

lemma dropLast_append_drop (p : Path) : p.dropLast ++ p.drop (p.length - 1) = p := by
  rw [List.dropLast_eq_take, List.take_append_drop]

/-- So does its entry. -/
lemma Real.entry (h : t.Real f) : t.entry f = f := by
  rw [Links.entry, (h.of_prefix (List.dropLast_prefix f)).lead, dropLast_append_drop]

/-- A real path below the entry is where a path below the path itself leads. -/
lemma lead_append_of_entry (hreal : t.Real f) (h : f = t.entry p ++ q) : t.lead (p ++ q) = f := by
  subst h
  have hsplit : p ++ q = p.dropLast ++ (p.drop (p.length - 1) ++ q) := by
    rw [← List.append_assoc, dropLast_append_drop]
  rw [entry, List.append_assoc] at hreal ⊢
  rw [hsplit, lead_append]
  exact walk_of_real fun l hl _ _ => hreal l hl

lemma exists_of_entry (hreal : t.Real f) (h : t.entry p <+: f) : ∃ q, p <+: q ∧ t.lead q = f := by
  obtain ⟨q, hq⟩ := h
  exact ⟨p ++ q, List.prefix_append _ _, lead_append_of_entry hreal hq.symm⟩

/-- So is the entry itself. -/
lemma lead_of_entry (hreal : t.Real f) (h : f = t.entry p) : t.lead p = f := by
  have hlead := lead_append_of_entry (q := []) hreal (by rwa [List.append_nil])
  rwa [List.append_nil] at hlead

/-- The same for where the path itself leads. -/
lemma lead_append_of_lead (hreal : t.Real f) (h : f = t.lead p ++ q) : t.lead (p ++ q) = f := by
  subst h
  rw [lead_append]
  exact walk_of_real fun l hl _ _ => hreal l hl

/-- Where neither a directory is a link nor one lies below it, its files are where its entry is. -/
lemma lead_below (h : ∀ l ∈ t, ¬ t.entry p <+: l.1) : t.lead (p ++ q) = t.entry p ++ q := by
  have hsplit : p ++ q = p.dropLast ++ p.drop (p.length - 1) ++ q := by rw [dropLast_append_drop]
  rw [hsplit, lead_append, lead_append]
  cases hlast : p.drop (p.length - 1) with
  | nil =>
    have hentry : t.entry p = t.lead p.dropLast := by rw [entry, hlast, List.append_nil]
    rw [hentry] at h ⊢
    exact walk_of_real fun l hl hpre => (h l hl hpre).elim
  | cons n rest =>
    obtain rfl : rest = [] := by
      have := congrArg List.length hlast
      simp only [List.length_drop, List.length_cons] at this
      exact List.eq_nil_of_length_eq_zero (by omega)
    have hentry : t.entry p = t.lead p.dropLast ++ [n] := by rw [entry, hlast]
    rw [hentry] at h ⊢
    have hnone : t.lookup (t.lead p.dropLast ++ [n]) = none :=
      lookup_eq_none fun l hl heq => h l hl (heq ▸ List.prefix_rfl)
    rw [walk, hnone, walk]
    exact walk_of_real fun l hl hpre => (h l hl hpre).elim

end Links

end Files
