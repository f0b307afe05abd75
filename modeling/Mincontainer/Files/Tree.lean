import Mathlib.Data.List.Infix
import Mincontainer.Files.Path

set_option relaxedAutoImplicit false
set_option autoImplicit false

/-!
# File trees

A finite map from paths to directories and files with contents in `C`, with the operations the
kernel offers on it. Each operation comes with one lemma that says what every path holds
afterwards; nothing else unfolds the representation.

## Main definitions

* `Files.Node`, `Files.Tree` — the tree and its nodes.
* `Files.Tree.set`, `Files.Tree.remove`, `Files.Tree.removeAll`, `Files.Tree.mkdirAll` — its
  updates.

## Main results

* `Files.Tree.get_set`, `Files.Tree.get_remove`, `Files.Tree.get_removeAll`,
  `Files.Tree.get_mkdirAll` — what a path holds after an update.
-/

namespace Files

variable {C : Type}

/-- A directory, or a file with its content. -/
inductive Node (C : Type) where
  /-- A directory. -/
  | dir
  /-- A regular file. -/
  | file (content : C)
deriving DecidableEq, Repr

/-- A file tree: the paths that exist, with their nodes. -/
structure Tree (C : Type) where
  /-- The nodes by path; the first occurrence of a path counts. -/
  nodes : List (Path × Node C)
deriving DecidableEq, Repr

namespace Tree

/-- What a path holds. -/
def get (t : Tree C) (p : Path) : Option (Node C) :=
  (t.nodes.find? fun e => e.1 = p).map Prod.snd

/-- Keep only the paths that satisfy `P`. -/
def keep (t : Tree C) (P : Path → Bool) : Tree C := ⟨t.nodes.filter fun e => P e.1⟩

/-- Put a node at a path. -/
def set (t : Tree C) (p : Path) (n : Node C) : Tree C :=
  ⟨(p, n) :: (t.keep fun q => q ≠ p).nodes⟩

/-- Remove the node at a path. -/
def remove (t : Tree C) (p : Path) : Tree C := t.keep fun q => q ≠ p

/-- Remove a path and everything below it. -/
def removeAll (t : Tree C) (p : Path) : Tree C := t.keep fun q => !p.isPrefixOf q

/-- Create the missing directories on the way to a path, and the path itself. -/
def mkdirAll (t : Tree C) (p : Path) : Tree C :=
  ⟨(p.inits.filter fun q => (t.get q).isNone).map (fun q => (q, .dir)) ++ t.nodes⟩

/-- The regular files directly in a directory, by name. -/
def childFiles (t : Tree C) (p : Path) : List (String × C) :=
  t.nodes.filterMap fun e =>
    match e with
    | (q, .file c) => if q.dropLast = p ∧ q ≠ [] then some (q.getLastD "", c) else none
    | (_, .dir) => none

/-- The directories directly in a directory, by name. -/
def childDirs (t : Tree C) (p : Path) : List String :=
  t.nodes.filterMap fun e =>
    match e with
    | (q, .dir) => if q.dropLast = p ∧ q ≠ [] then some (q.getLastD "") else none
    | (_, .file _) => none

/-- Nothing lies strictly below a path. -/
def emptyBelow (t : Tree C) (p : Path) : Bool :=
  t.nodes.all fun e => !(p.isPrefixOf e.1 && e.1 ≠ p)

lemma find?_filter_key (l : List (Path × Node C)) (P : Path → Bool) (q : Path) :
    ((l.filter fun e => P e.1).find? fun e => e.1 = q) =
      if P q then l.find? fun e => e.1 = q else none := by
  induction l with
  | nil => simp
  | cons e l ih =>
    by_cases he : P e.1
    · by_cases hq : e.1 = q
      · subst hq; simp [he]
      · simp [he, hq, ih]
    · by_cases hq : e.1 = q
      · subst hq; simp [he, ih]
      · simp [he, hq, ih]

lemma get_keep (t : Tree C) (P : Path → Bool) (q : Path) :
    (t.keep P).get q = if P q then t.get q else none := by
  simp only [get, keep, find?_filter_key]
  split <;> rfl

/-- After a write, the path holds the node; every other path is unchanged. -/
lemma get_set (t : Tree C) (p q : Path) (n : Node C) :
    (t.set p n).get q = if q = p then some n else t.get q := by
  by_cases h : q = p
  · subst h; simp [get, set]
  · have hp : ¬ p = q := fun h' => h h'.symm
    have := get_keep t (fun q => q ≠ p) q
    simp only [get, set, List.find?_cons, hp, decide_false, h, if_false, keep] at this ⊢
    simpa [h] using this

@[simp] lemma get_set_self (t : Tree C) (p : Path) (n : Node C) : (t.set p n).get p = some n := by
  simp [get_set]

lemma get_set_of_ne (t : Tree C) {p q : Path} (n : Node C) (h : q ≠ p) :
    (t.set p n).get q = t.get q := by
  simp [get_set, h]

/-- After a removal, the path holds nothing; every other path is unchanged. -/
lemma get_remove (t : Tree C) (p q : Path) :
    (t.remove p).get q = if q = p then none else t.get q := by
  rw [remove, get_keep]
  by_cases h : q = p <;> simp [h]

/-- After a recursive removal, nothing at or below the path exists; the rest is unchanged. -/
lemma get_removeAll (t : Tree C) (p q : Path) :
    (t.removeAll p).get q = if p <+: q then none else t.get q := by
  rw [removeAll, get_keep]
  by_cases h : p <+: q
  · simp [h, List.isPrefixOf_iff_prefix.mpr h]
  · have : p.isPrefixOf q = false := by
      rw [Bool.eq_false_iff]; exact fun h' => h (List.isPrefixOf_iff_prefix.mp h')
    simp [h, this]

lemma find?_map_dir (l : List Path) (q : Path) :
    ((l.map fun q => ((q, .dir) : Path × Node C)).find? fun e => e.1 = q) =
      if q ∈ l then some (q, .dir) else none := by
  induction l with
  | nil => simp
  | cons a l ih =>
    by_cases h : a = q
    · subst h; simp
    · have : q ≠ a := fun h' => h h'.symm
      simp [h, this, ih]

/-- Creating directories fills the missing prefixes of the path and changes nothing that
exists. -/
lemma get_mkdirAll (t : Tree C) (p q : Path) :
    (t.mkdirAll p).get q = if q <+: p ∧ t.get q = none then some .dir else t.get q := by
  have hmem : q ∈ p.inits.filter (fun q => (t.get q).isNone) ↔ q <+: p ∧ t.get q = none := by
    simp [List.mem_inits]
  simp only [mkdirAll]
  rw [get, List.find?_append, find?_map_dir]
  by_cases h : q <+: p ∧ t.get q = none
  · rw [if_pos (hmem.mpr h), if_pos h]; rfl
  · rw [if_neg fun h' => h (hmem.mp h'), if_neg h]; rfl

/-- Creating directories never removes or changes an existing node. -/
lemma get_mkdirAll_of_some (t : Tree C) (p : Path) {q : Path} {n : Node C}
    (h : t.get q = some n) : (t.mkdirAll p).get q = some n := by
  simp [get_mkdirAll, h]

/-- A created directory is there, unless a file was in its place. -/
lemma get_mkdirAll_self (t : Tree C) (p : Path) (h : ∀ c, t.get p ≠ some (.file c)) :
    (t.mkdirAll p).get p = some .dir := by
  rw [get_mkdirAll]
  cases hp : t.get p with
  | none => simp
  | some n =>
    cases n with
    | dir => simp
    | file c => exact absurd hp (h c)

/-- A node of the list is visible at its path. -/
lemma get_ne_none {t : Tree C} {e : Path × Node C} (he : e ∈ t.nodes) : t.get e.1 ≠ none := by
  simp only [get, ne_eq, Option.map_eq_none_iff, List.find?_eq_none, decide_eq_true_eq, not_forall]
  exact ⟨e, he, fun h => h rfl⟩

/-- A directory is empty when the paths below it hold nothing. -/
lemma emptyBelow_iff {t : Tree C} {p : Path} :
    t.emptyBelow p = true ↔ ∀ q, p <+: q → q ≠ p → t.get q = none := by
  constructor
  · intro h q hpq hne
    simp only [get, Option.map_eq_none_iff, List.find?_eq_none, decide_eq_true_eq]
    rintro e he rfl
    have := List.all_eq_true.mp h e he
    simp [List.isPrefixOf_iff_prefix.mpr hpq, hne] at this
  · intro h
    refine List.all_eq_true.mpr fun e he => ?_
    by_contra hbelow
    have : p <+: e.1 ∧ e.1 ≠ p := by simpa using hbelow
    exact get_ne_none he (h e.1 this.1 this.2)

end Tree

end Files
