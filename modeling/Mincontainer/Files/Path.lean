import Mathlib.Data.List.TakeWhile
import Mathlib.Tactic.Lemma

set_option relaxedAutoImplicit false
set_option autoImplicit false

/-!
# Paths and their text

A path is the list of its components from the root; path text is split at slashes. Resolving
text against a directory is lexical: `..` drops the last component, which is what the kernel
does where no component is a symbolic link. Texts are characters, not bytes, and no bound is put on
the length of a name or of a path.

## Main definitions

* `Files.Path` — absolute paths, as component lists.
* `Files.components` — the components of a path text.
* `Files.resolve` — the path that a text denotes from a given directory.
* `Files.Clean` — the paths whose components are names.
* `Files.PathBuf` — a path text with the directory it is taken from.

## Main results

* `Files.resolve_normal` — a text made of normal components only is appended to the directory.
* `Files.resolve_display` — the text of a clean path denotes it, wherever it is resolved from.
* `Files.clean_resolve` — resolving from a clean path gives a clean path.
* `Files.PathBuf.withExtension_ne` — a changed extension with a dot in it changes the path.
-/

namespace Files

/-- An absolute path: its components from the root. -/
abbrev Path := List String

/-- A component of a path text. -/
inductive Component where
  /-- The leading slash of an absolute path. -/
  | rootDir
  /-- A leading `.`; elsewhere a `.` is dropped. -/
  | curDir
  /-- A `..`. -/
  | parentDir
  /-- A name. -/
  | normal (name : String)
deriving DecidableEq, Repr

/-- The component is a name. -/
def Component.isNormal : Component → Bool
  | .normal _ => true
  | _ => false

/-- The pieces of a text between its slashes. -/
def splitSlash (text : String) : List String :=
  (text.toList.splitOn '/').map String.ofList

/-- The component a piece stands for; empty pieces and `.` stand for none. -/
def component? (piece : String) : Option Component :=
  if piece = "" ∨ piece = "." then none
  else if piece = ".." then some .parentDir
  else some (.normal piece)

/-- The components of a path text. -/
def components (text : String) : List Component :=
  let pieces := splitSlash text
  let body := pieces.filterMap component?
  if text.toList.head? = some '/' then .rootDir :: body
  else if pieces.head? = some "." then .curDir :: body
  else body

/-- Follow one component from a directory. -/
def follow (dir : Path) : Component → Path
  | .rootDir => []
  | .curDir => dir
  | .parentDir => dir.dropLast
  | .normal name => dir ++ [name]

/-- The path that `text` denotes from the directory `dir`; an absolute text ignores `dir`. -/
def resolve (dir : Path) (text : String) : Path := (components text).foldl follow dir

/-- The text of a path. -/
def display (p : Path) : String := String.ofList ('/' :: List.intercalate ['/'] (p.map String.toList))

/-- A component that is a name of its own. -/
def IsName (n : String) : Prop := n ≠ "" ∧ n ≠ "." ∧ n ≠ ".." ∧ '/' ∉ n.toList

instance : DecidablePred IsName := fun _ => inferInstanceAs (Decidable (_ ∧ _))

/-- A path whose components are names. -/
def Clean (p : Path) : Prop := ∀ n ∈ p, IsName n

instance : DecidablePred Clean := fun p => inferInstanceAs (Decidable (∀ n ∈ p, IsName n))

/-- The normal components among `cs`, by name. -/
def names (cs : List Component) : List String :=
  cs.filterMap fun
    | .normal n => some n
    | _ => none

/-- **Normal components stay below.** Following only normal components appends their names.

**Proof sketch.** Induction on the components. -/
lemma foldl_follow_normal (cs : List Component) (dir : Path)
    (h : ∀ c ∈ cs, ∃ n, c = .normal n) : cs.foldl follow dir = dir ++ names cs := by
  induction cs generalizing dir with
  | nil => simp [names]
  | cons c cs ih =>
    obtain ⟨n, rfl⟩ := h c List.mem_cons_self
    rw [List.foldl_cons, ih _ fun c hc => h c (List.mem_cons_of_mem _ hc)]
    simp [follow, names]

/-- A text made of normal components only is appended to the directory it is resolved from. -/
lemma resolve_normal (dir : Path) (text : String)
    (h : ∀ c ∈ components text, ∃ n, c = .normal n) :
    resolve dir text = dir ++ names (components text) :=
  foldl_follow_normal _ dir h

example : resolve ["a", "b"] "c//./d" = ["a", "b", "c", "d"] := by decide
example : resolve ["a", "b"] "../x" = ["a", "x"] := by decide
example : resolve ["a", "b"] "/etc" = ["etc"] := by decide

/-! ### Clean paths -/

@[simp] lemma component?_of_isName {n : String} (h : IsName n) :
    component? n = some (.normal n) := by
  simp [component?, h.1, h.2.1, h.2.2.1]

lemma filterMap_component?_of_clean {p : Path} (h : Clean p) :
    p.filterMap component? = p.map .normal := by
  induction p with
  | nil => rfl
  | cons n p ih =>
    rw [List.filterMap_cons_some (component?_of_isName (h n List.mem_cons_self)),
      ih fun m hm => h m (List.mem_cons_of_mem _ hm), List.map_cons]

/-- The names of normal components. -/
lemma names_map_normal (p : Path) : names (p.map .normal) = p := by
  simp only [names, List.filterMap_map]
  exact List.filterMap_some

/-- The pieces of the text of a clean path: an empty one before the first slash, then its
components. -/
lemma splitSlash_display {p : Path} (h : Clean p) (hp : p ≠ []) :
    splitSlash (display p) = "" :: p := by
  have hslash : ∀ l ∈ ([] :: p.map String.toList : List (List Char)), '/' ∉ l := by
    simp only [List.mem_cons, List.mem_map, forall_eq_or_imp, List.not_mem_nil,
      not_false_eq_true, true_and, forall_exists_index, and_imp, forall_apply_eq_imp_iff₂]
    exact fun n hn => (h n hn).2.2.2
  have hinter : '/' :: List.intercalate ['/'] (p.map String.toList)
      = List.intercalate ['/'] ([] :: p.map String.toList) := by
    cases p with
    | nil => exact absurd rfl hp
    | cons n p => simp [List.intercalate]
  rw [splitSlash, display, String.toList_ofList, hinter, List.splitOn_intercalate _ hslash (by simp)]
  simp

/-- The components of the text of a clean path: the leading slash, then its names.

**Proof sketch.** The pieces of the text are the components of the path, all of them names. -/
lemma components_display {p : Path} (h : Clean p) :
    components (display p) = .rootDir :: p.map .normal := by
  by_cases hp : p = []
  · subst hp
    decide
  have hhead : (display p).toList.head? = some '/' := by simp [display]
  have hbody : (splitSlash (display p)).filterMap component? = p.map .normal := by
    rw [splitSlash_display h hp, List.filterMap_cons_none (by decide),
      filterMap_component?_of_clean h]
  simp only [components, hhead, if_true, hbody]

/-- The text of a clean path denotes it, wherever it is resolved from: the leading slash starts at the
root. -/
lemma resolve_display {p : Path} (h : Clean p) (dir : Path) : resolve dir (display p) = p := by
  rw [resolve, components_display h, List.foldl_cons, foldl_follow_normal _ _ (by simp),
    names_map_normal]
  rfl

/-- No piece of a split text contains the separator.

**Proof sketch.** Induction on the text: a separator starts an empty piece, any other character is
put in front of the first piece. -/
lemma not_mem_of_mem_splitOn {x : Char} {l : List Char} (cs : List Char) (hl : l ∈ cs.splitOn x) :
    x ∉ l := by
  induction cs generalizing l with
  | nil =>
    rw [List.splitOn_nil, List.mem_singleton] at hl
    simp [hl]
  | cons c cs ih =>
    rw [List.splitOn_cons_eq_if_modifyHead] at hl
    split at hl
    · rcases List.mem_cons.mp hl with rfl | hl
      · simp
      · exact ih hl
    · rename_i hc
      obtain ⟨p, ps, hps⟩ := List.exists_cons_of_ne_nil (List.splitOn_ne_nil x cs)
      rw [hps, List.modifyHead_cons] at hl
      rcases List.mem_cons.mp hl with rfl | hl
      · have hp : x ∉ p := ih (by simp [hps])
        have hne : x ≠ c := by rintro rfl; simp at hc
        simp [hp, hne]
      · exact ih (by simp [hps, hl])

/-- A name that the components of a text mention is a name. -/
lemma isName_of_mem_components {text n : String} (h : .normal n ∈ components text) : IsName n := by
  have hmem : .normal n ∈ (splitSlash text).filterMap component? := by
    simp only [components] at h
    split at h
    · simpa using h
    · split at h
      · simpa using h
      · exact h
  obtain ⟨piece, hpiece, hc⟩ := List.mem_filterMap.mp hmem
  simp only [component?] at hc
  split at hc
  · cases hc
  split at hc
  · cases hc
  obtain rfl : piece = n := by simpa using hc
  rename_i hdot hdots
  obtain ⟨l, hl, rfl⟩ := List.mem_map.mp hpiece
  refine ⟨fun h => hdot (.inl h), fun h => hdot (.inr h), hdots, ?_⟩
  rw [String.toList_ofList]
  exact not_mem_of_mem_splitOn _ hl

/-- A text whose pieces are names has these names as its components. -/
lemma components_of_clean {text : String} (h : Clean (splitSlash text)) :
    components text = (splitSlash text).map .normal := by
  obtain ⟨piece, pieces, hp⟩ := List.exists_cons_of_ne_nil
    (show splitSlash text ≠ [] by simp [splitSlash])
  have hpiece : IsName piece := h piece (by simp [hp])
  have hhead : text.toList.head? ≠ some '/' := by
    intro hslash
    obtain ⟨cs, hcs⟩ : ∃ cs, text.toList = '/' :: cs := by
      cases htext : text.toList with
      | nil => simp [htext] at hslash
      | cons c cs => exact ⟨cs, by simpa [htext] using hslash⟩
    rw [splitSlash, hcs, List.splitOn_cons_eq_if_modifyHead] at hp
    simp only [beq_self_eq_true, if_true, List.map_cons, List.cons.injEq] at hp
    exact hpiece.1 hp.1.symm
  have hdot : (splitSlash text).head? ≠ some "." := by
    rw [hp]
    exact fun heq => hpiece.2.1 (Option.some.inj heq)
  simp only [components, hhead, hdot, if_false, filterMap_component?_of_clean h]

/-- A name denotes the entry of that name. -/
lemma resolve_of_isName {dir : Path} {n : String} (hn : IsName n) : resolve dir n = dir ++ [n] := by
  have hpieces : splitSlash n = [n] := by
    rw [splitSlash, List.splitOn_eq_singleton hn.2.2.2, List.map_singleton, String.ofList_toList]
  have hclean : Clean (splitSlash n) := by
    rw [hpieces]
    intro m hm
    rwa [List.mem_singleton.mp hm]
  rw [resolve, components_of_clean hclean, hpieces]
  rfl

/-- A name in a directory, as a text. -/
lemma resolve_pair {dir : Path} {d n : String} (hd : IsName d) (hn : IsName n) :
    resolve dir (d ++ "/" ++ n) = dir ++ [d, n] := by
  have hpieces : splitSlash (d ++ "/" ++ n) = [d, n] := by
    have hinter : (d ++ "/" ++ n).toList = List.intercalate ['/'] [d.toList, n.toList] := by
      simp [List.intercalate]
    rw [splitSlash, hinter, List.splitOn_intercalate _ _ (by simp)]
    · simp
    · intro l hl
      obtain rfl | rfl : l = d.toList ∨ l = n.toList := by simpa using hl
      · exact hd.2.2.2
      · exact hn.2.2.2
  have hclean : Clean (splitSlash (d ++ "/" ++ n)) := by
    rw [hpieces]
    intro m hm
    obtain rfl | rfl : m = d ∨ m = n := by simpa using hm
    · exact hd
    · exact hn
  rw [resolve, components_of_clean hclean, hpieces]
  show (dir ++ [d]) ++ [n] = _
  rw [List.append_assoc]
  rfl

lemma Clean.append {p q : Path} (hp : Clean p) (hq : Clean q) : Clean (p ++ q) := by
  intro n hn
  rcases List.mem_append.mp hn with hn | hn
  · exact hp n hn
  · exact hq n hn

/-- Resolving from a clean path gives a clean path. -/
lemma clean_resolve {dir : Path} (h : Clean dir) (text : String) : Clean (resolve dir text) := by
  have hstep : ∀ cs : List Component, (∀ n, .normal n ∈ cs → IsName n) →
      ∀ dir, Clean dir → Clean (cs.foldl follow dir) := by
    intro cs
    induction cs with
    | nil => exact fun _ dir hdir => hdir
    | cons c cs ih =>
      intro hcs dir hdir
      refine ih (fun n hn => hcs n (List.mem_cons_of_mem _ hn)) _ ?_
      cases c with
      | rootDir => exact fun n hn => nomatch hn
      | curDir => exact hdir
      | parentDir => exact fun n hn => hdir n (List.dropLast_subset _ hn)
      | normal name =>
        refine hdir.append fun n hn => ?_
        obtain rfl := List.mem_singleton.mp hn
        exact hcs n List.mem_cons_self
  exact hstep _ (fun n hn => isName_of_mem_components hn) dir h

/-- An absolute text denotes the same path from everywhere. -/
lemma resolve_absolute {text : String} (h : text.toList.head? = some '/') (dir dir' : Path) :
    resolve dir text = resolve dir' text := by
  simp only [resolve, components, h, if_true, List.foldl_cons, follow]

/-! ### Path texts -/

/-- A path text, with the directory it is taken from. -/
structure PathBuf where
  text : String
  cwd : Path
deriving DecidableEq, Repr

/-- A piece without slashes at the end of a text is the end of its last piece. -/
lemma splitOn_append {cs ds : List Char} (hds : '/' ∉ ds) :
    ∃ pieces last, cs.splitOn '/' = pieces ++ [last] ∧
      (cs ++ ds).splitOn '/' = pieces ++ [last ++ ds] := by
  induction cs with
  | nil => exact ⟨[], [], by simp, by simp [List.splitOn_eq_singleton hds]⟩
  | cons c cs ih =>
    obtain ⟨pieces, last, hcs, hall⟩ := ih
    rw [List.cons_append, List.splitOn_cons_eq_if_modifyHead, List.splitOn_cons_eq_if_modifyHead,
      hcs, hall]
    by_cases hc : c = '/'
    · exact ⟨[] :: pieces, last, by simp [hc], by simp [hc]⟩
    · rcases pieces with _ | ⟨p, pieces⟩
      · exact ⟨[], c :: last, by simp [hc], by simp [hc]⟩
      · exact ⟨(c :: p) :: pieces, last, by simp [hc], by simp [hc]⟩

namespace PathBuf

/-- The path that is meant. -/
def path (b : PathBuf) : Path := resolve b.cwd b.text

/-- The absolute text of a path. -/
def ofPath (p : Path) : PathBuf := ⟨display p, []⟩

/-- The path without its last component. -/
def parent (b : PathBuf) : Option Path :=
  match components b.text with
  | [] => none
  | [.rootDir] => none
  | cs => some (cs.dropLast.foldl follow b.cwd)

/-- The last component, if it is a name. -/
def fileName (b : PathBuf) : Option String :=
  match (components b.text).getLast? with
  | some (.normal n) => some n
  | _ => none

/-- A file name up to its last dot; a dot in front does not count. -/
def fileStem (name : String) : String :=
  match name.toList.reverse.dropWhile (· ≠ '.') with
  | '.' :: c :: cs => String.ofList (c :: cs).reverse
  | _ => name

/-- The path with the extension of its last component replaced. The old extension is cut off the text before
the new one is put there; what is left of a name such as `..img` is the parent directory, which gets none. -/
def withExtension (b : PathBuf) (ext : String) : Path :=
  match b.fileName with
  | some n =>
    if fileStem n = "." ∧ n.toList <:+ b.text.toList then b.path.dropLast.dropLast
    else b.path.dropLast ++ [fileStem n ++ "." ++ ext]
  | none => b.path

/-- The parent of the text of a clean path is the path without its last component. -/
lemma parent_ofPath {p d : Path} (h : Clean p) (hd : (ofPath p).parent = some d) : d = p.dropLast := by
  simp only [parent, ofPath, components_display h] at hd
  cases p with
  | nil => cases hd
  | cons n p =>
    have hup : (Component.rootDir :: (n :: p).map .normal).dropLast =
        .rootDir :: (n :: p).dropLast.map .normal := by
      rw [List.map_dropLast]
      rfl
    have hnormal : ∀ c ∈ (n :: p).dropLast.map Component.normal, ∃ m, c = .normal m := by
      intro c hc
      obtain ⟨m, -, rfl⟩ := List.mem_map.mp hc
      exact ⟨m, rfl⟩
    rw [List.map_cons] at hd
    rw [← Option.some.inj hd, ← List.map_cons, hup, List.foldl_cons,
      foldl_follow_normal _ _ hnormal, names_map_normal]
    rfl

/-- A changed extension stays in the directory, or on the way to it. -/
lemma withExtension_beside (b : PathBuf) (ext : String) :
    b.path.dropLast <+: b.withExtension ext ∨ b.withExtension ext <+: b.path.dropLast := by
  rw [withExtension]
  split
  · split
    · exact .inr (List.dropLast_prefix _)
    · exact .inl (List.prefix_append _ _)
  · exact .inl (List.dropLast_prefix _)

/-- A text that ends in a name denotes a path that does. -/
lemma path_of_fileName {b : PathBuf} {n : String} (h : b.fileName = some n) :
    b.path = b.path.dropLast ++ [n] := by
  have hlast : (components b.text).getLast? = some (.normal n) := by
    simp only [fileName] at h
    split at h
    · rename_i m hm; rw [hm]; simpa using h
    · cases h
  obtain ⟨cs, hcs⟩ := List.getLast?_eq_some_iff.mp hlast
  simp [path, resolve, hcs, follow]

/-- The name of a path with an extension: the last piece of its text, and the extension. The piece does
not depend on the extension. -/
lemma exists_fileName (text : String) : ∃ piece : String, ∀ ext cwd, '/' ∉ ext.toList →
    2 < ext.length → (⟨text ++ ext, cwd⟩ : PathBuf).fileName = some (piece ++ ext) := by
  obtain ⟨pieces, last, hlast⟩ : ∃ pieces last, text.toList.splitOn '/' = pieces ++ [last] := by
    obtain ⟨pieces, last, h, -⟩ := @splitOn_append text.toList [] (by simp)
    exact ⟨pieces, last, h⟩
  refine ⟨String.ofList last, fun ext cwd hext hlong => ?_⟩
  obtain ⟨pieces', last', hlast', hall⟩ := @splitOn_append text.toList _ hext
  obtain ⟨rfl, hl⟩ := List.append_inj' (hlast.symm.trans hlast') rfl
  obtain rfl : last = last' := by simpa using hl
  have hne : ∀ s : String, s.length ≤ 2 → String.ofList last ++ ext ≠ s := by
    rintro s hs rfl
    simp at hs
    omega
  have hcomp : component? (String.ofList last ++ ext) =
      some (.normal (String.ofList last ++ ext)) := by
    rw [component?, if_neg, if_neg]
    · exact hne ".." (by decide)
    · rintro (h | h)
      · exact hne "" (by decide) h
      · exact hne "." (by decide) h
  have hbody : ((splitSlash (text ++ ext)).filterMap component?).getLast? =
      some (.normal (String.ofList last ++ ext)) := by
    rw [splitSlash, String.toList_append, hall]
    simp [List.filterMap_append, hcomp]
  rw [fileName, show (components (text ++ ext)).getLast? = some (.normal (String.ofList last ++ ext))
    from ?_]
  rw [components]
  split_ifs <;> simp [List.getLast?_cons, hbody]

/-- **A new extension is a new path.** Replacing an extension by one with a dot in it gives another
path.

**Proof sketch.** Were the name its own stem with `.ext` after it, its last dot would lie in `ext`,
and the stem, which ends before the last dot, would be longer than it is. -/
lemma withExtension_ne {b : PathBuf} {n : String} (h : b.fileName = some n) {ext : String}
    (hdot : '.' ∈ ext.toList) : b.withExtension ext ≠ b.path := by
  intro heq
  simp only [withExtension, h] at heq
  split at heq
  · have hlen := congrArg List.length heq
    rw [path_of_fileName h] at hlen
    simp at hlen
  rw [path_of_fileName h] at heq
  have hname : fileStem n ++ "." ++ ext = n := by
    have := congrArg List.getLast? heq
    simpa using this
  set stem := fileStem n with hstem
  have hrev : n.toList.reverse = ext.toList.reverse ++ '.' :: stem.toList.reverse := by
    rw [← hname]
    simp
  obtain ⟨t, ht⟩ : ∃ t, ext.toList.reverse.dropWhile (· ≠ '.') = '.' :: t := by
    have hne : ext.toList.reverse.dropWhile (· ≠ '.') ≠ [] := by
      rw [Ne, List.dropWhile_eq_nil_iff]
      intro hall
      simpa using hall '.' (by simpa using hdot)
    obtain ⟨c, t, hct⟩ := List.exists_cons_of_ne_nil hne
    have hc : c = '.' := by
      have := List.head_dropWhile_not (fun c : Char => decide (c ≠ '.')) hne
      simp only [hct, List.head_cons] at this
      simpa using this
    exact ⟨t, by rw [hct, hc]⟩
  have hdrop : n.toList.reverse.dropWhile (· ≠ '.') = '.' :: (t ++ '.' :: stem.toList.reverse) := by
    rw [hrev, List.dropWhile_append, ht]
    rfl
  have hlong : stem = String.ofList (t ++ '.' :: stem.toList.reverse).reverse := by
    refine hstem.trans ?_
    rw [fileStem, hdrop]
    cases t <;> rfl
  have := congrArg (fun s : String => s.toList.length) hlong
  simp at this

end PathBuf

end Files
