import Mincontainer.Host.Leftovers

set_option relaxedAutoImplicit false
set_option autoImplicit false

/-!
# Directories made one after the other

`fs::create_dir_all` makes the missing directories on the way to a path. A program that makes several
paths so, one after the other, stops at the first that fails, and that one may have been made in part.
What it can leave behind is the same whatever else happens: some missing directories are there now,
and nothing that was there has changed.

## Main definitions

* `Mincontainer.Host.Grown` — a host with some more directories.
* `Mincontainer.makeDirs` — make the directories of a list.
* `Mincontainer.Host.Attains` — how far making the directories of a list can get.

## Main results

* `Mincontainer.makeDirs_grown`, `Mincontainer.makeDirs_ok` — what a run can leave.
* `Mincontainer.exists_makeDirs` — it does leave every directory it can get to.
-/

namespace Mincontainer

open Effects Files

namespace Host

/-! ### More directories -/

/-- The files of `h'` are those of `h`, with the directories `ds` and the missing ones above them. -/
def Grown (ds : List Path) (h h' : Host) : Prop :=
  ∀ q, h'.fs.get q = if (∃ d ∈ ds, q <+: d) ∧ h.fs.get q = none then some .dir else h.fs.get q

namespace Grown

variable {ds es : List Path} {h h' h'' : Host} {q : Path}

lemma of_fs (hfs : h'.fs = h.fs) : Grown [] h h' := fun q => by simp [hfs]

lemma mkdirAll (h : Host) (p : Path) : Grown [p] h { h with fs := h.fs.mkdirAll p } := fun q => by
  simp [Tree.get_mkdirAll]

/-- **Growing twice.** What is there after the first time stays, so only what is still missing is
added the second time. -/
lemma trans (h₁ : Grown ds h h') (h₂ : Grown es h' h'') : Grown (ds ++ es) h h'' := by
  intro q
  have hiff : (∃ d ∈ ds ++ es, q <+: d) ↔ (∃ d ∈ ds, q <+: d) ∨ ∃ d ∈ es, q <+: d := by
    simp only [List.mem_append, or_and_right, exists_or]
  simp only [h₂ q, h₁ q, hiff]
  by_cases hds : ∃ d ∈ ds, q <+: d
  · by_cases hq : h.fs.get q = none <;> simp [hds, hq]
  · simp only [hds, false_and, if_false, false_or]

lemma kind (hg : Grown ds h h') (q : Path) :
    h'.kind q = if (∃ d ∈ ds, q <+: d) ∧ h.kind q = none then some .dir else h.kind q := by
  simp only [Host.kind, Option.map_eq_none_iff]
  rw [hg q]
  split <;> rfl

lemma file (hg : Grown ds h h') (q : Path) : h'.file q = h.file q := by
  simp only [Host.file, hg q]
  by_cases hq : (∃ d ∈ ds, q <+: d) ∧ h.fs.get q = none
  · rw [if_pos hq, hq.2]
  · rw [if_neg hq]

lemma kind_of_some (hg : Grown ds h h') {k : Kind} (hq : h.kind q = some k) : h'.kind q = some k := by
  rw [hg.kind, if_neg (by simp [hq]), hq]

lemma kind_eq_file_iff (hg : Grown ds h h') : h'.kind q = some .file ↔ h.kind q = some .file := by
  rw [hg.kind]
  split
  · rename_i hq
    simp [hq.2]
  · rfl

/-- More directories block no way and open none. -/
lemma clearWay (hg : Grown ds h h') (q : Path) : h'.clearWay q = h.clearWay q := by
  simp only [Host.clearWay, ne_eq, hg.kind_eq_file_iff]

/-- A new directory was missing, and lies on the way to one of those that were made. -/
lemma new_dir (hg : Grown ds h h') (hq : h'.kind q = some .dir) (hold : h.kind q ≠ some .dir) :
    h.kind q = none ∧ ∃ d ∈ ds, q <+: d := by
  rw [hg.kind] at hq
  split at hq
  · rename_i hmiss
    exact ⟨hmiss.2, hmiss.1⟩
  · exact absurd hq hold

end Grown

/-- Nothing in the way of a path is a file, so nothing in the way of a path above it is. -/
lemma clearWay_of_prefix {h : Host} {p q : Path} (hqp : q <+: p) (hp : h.clearWay p = true) :
    h.clearWay q = true := by
  simp only [Host.clearWay, List.all_eq_true, List.mem_inits] at hp ⊢
  exact fun s hs => hp s (hs.trans hqp)

/-- A directory on a clear way is there once it was made. -/
lemma Grown.dir_of_mem {ds : List Path} {h h' : Host} {d : Path} (hg : Grown ds h h') (hd : d ∈ ds)
    (hclear : h.clearWay d = true) : h'.kind d = some .dir := by
  have hfile : h.kind d ≠ some .file := by
    simp only [Host.clearWay, List.all_eq_true, List.mem_inits, decide_eq_true_eq] at hclear
    exact hclear d List.prefix_rfl
  rw [hg.kind]
  split
  · rfl
  · rename_i hmiss
    cases hk : h.kind d with
    | none => exact absurd ⟨⟨d, hd, List.prefix_rfl⟩, hk⟩ hmiss
    | some k =>
      cases k with
      | dir => rfl
      | file => exact absurd hk hfile

/-! ### Making a list of directories -/

/-- Making the directories of a list, one after the other, can get as far as the path `q`: it lies on
the way to one of them, nothing blocks it, and nothing blocks the directories before. -/
def Attains (h : Host) : List Path → Path → Prop
  | [], _ => False
  | d :: ds, q => (q <+: d ∧ h.clearWay q = true) ∨ (h.clearWay d = true ∧ Attains h ds q)

lemma Attains.clearWay {h : Host} {ds : List Path} {q : Path} (hq : h.Attains ds q) :
    h.clearWay q = true := by
  induction ds with
  | nil => exact hq.elim
  | cons d ds ih => exact hq.elim And.right fun hrest => ih hrest.2

lemma Attains.of_prefix {h : Host} {ds : List Path} {p q : Path} (hqp : q <+: p)
    (hp : h.Attains ds p) : h.Attains ds q := by
  induction ds with
  | nil => exact hp
  | cons d ds ih => exact hp.imp (fun h => ⟨hqp.trans h.1, clearWay_of_prefix hqp h.2⟩) fun h => ⟨h.1, ih h.2⟩

lemma Grown.attains_iff {ds es : List Path} {h h' : Host} {q : Path} (hg : Grown es h h') :
    h'.Attains ds q ↔ h.Attains ds q := by
  induction ds with
  | nil => rfl
  | cons d ds ih => simp only [Attains, hg.clearWay, ih]

end Host

/-- Make the directories of a list, with the missing ones above them; the first failure ends it. -/
def makeDirs : List (Path × (String → RuntimeError)) → HostM Unit
  | [] => pure ()
  | d :: ds => do
    mkdirAll d.1 d.2
    makeDirs ds

section Runs

variable {h h' : Host} {tr : List HostSig.Event}

/-- Trees that end on their own leave the files alone. -/
lemma exits_fs (hR : Relation.ReflTransGen Host.Exits h h') : h'.fs = h.fs := by
  induction hR with
  | refl => rfl
  | tail _ hstep ih =>
    obtain ⟨pid, rfl⟩ := hstep
    exact ih

lemma exits_grown (hR : Relation.ReflTransGen Host.Exits h h') : Host.Grown [] h h' :=
  .of_fs (exits_fs hR)

/-- **One path.** Made, it was not blocked; failed or cut, at most a part of the way was made. -/
lemma mkdirAll_inv {p : Path} {f : String → RuntimeError} {out : Option (Except RuntimeError Unit)}
    (hrun : Runs Host.Exits (mkdirAll p f) h tr out h') :
    (h.clearWay p = true ∧ Host.Grown [p] h h') ∨
      (out ≠ some (.ok ()) ∧
        (Host.Grown [] h h' ∨ ∃ q, q <+: p ∧ h.clearWay q = true ∧ Host.Grown [q] h h')) := by
  obtain ⟨h₁, hR, ⟨rfl, rfl, rfl⟩ | ⟨r, tr₁, hr, rfl, hrun₁⟩⟩ := Exec.call_inv hrun
  · exact .inr ⟨by rintro ⟨⟩, .inl (exits_grown hR)⟩
  have hsame : ∀ q, h₁.clearWay q = h.clearWay q := (exits_grown hR).clearWay
  rcases r with ⟨k, e⟩ | u
  · obtain ⟨rfl, hR', hout⟩ := Exec.ret_inv hrun₁
    have hk : h₁.clearWay (p.take k) = true := (Bool.and_eq_true_iff.mp hr).2
    have hgrown : Host.Grown [p.take k] h h' := by
      have hmk := Host.Grown.mkdirAll h₁ (p.take k)
      simpa using ((exits_grown hR).trans hmk).trans (exits_grown hR')
    refine .inr ⟨?_, .inr ⟨p.take k, List.take_prefix k p, (hsame _).symm.trans hk, hgrown⟩⟩
    rintro rfl
    rcases hout with hout | hout <;> cases hout
  · obtain ⟨rfl, hR', -⟩ := Exec.ret_inv hrun₁
    have hmk := Host.Grown.mkdirAll h₁ p
    refine .inl ⟨(hsame p).symm.trans hr, ?_⟩
    simpa using ((exits_grown hR).trans hmk).trans (exits_grown hR')

/-- **Making directories.** However it ends, some directories have been made that it can get to.

**Proof sketch.** Induction on the list: a directory that was made was not blocked, so what the rest
can get to counts. -/
lemma makeDirs_grown (ds : List (Path × (String → RuntimeError)))
    {out : Option (Except RuntimeError Unit)} (hrun : Runs Host.Exits (makeDirs ds) h tr out h') :
    ∃ es, Host.Grown es h h' ∧ ∀ e ∈ es, h.Attains (ds.map Prod.fst) e := by
  induction ds generalizing h tr with
  | nil =>
    obtain ⟨-, hR, -⟩ := Exec.ret_inv hrun
    exact ⟨[], exits_grown hR, by simp⟩
  | cons d ds ih =>
    have hfirst : ∀ {out' tr' g}, Runs Host.Exits (mkdirAll d.1 d.2) h tr' out' g →
        ∃ es, Host.Grown es h g ∧ ∀ e ∈ es, e <+: d.1 ∧ h.clearWay e = true := by
      intro out' tr' g hrun₁
      rcases mkdirAll_inv hrun₁ with ⟨hclear, hg⟩ | ⟨-, hg | ⟨q, hq, hclear, hg⟩⟩
      · exact ⟨[d.1], hg, by simp [hclear]⟩
      · exact ⟨[], hg, by simp⟩
      · exact ⟨[q], hg, by simp [hq, hclear]⟩
    rcases Exec.fallible_bind_inv hrun with ⟨-, hrun₁⟩ | ⟨e, -, hrun₁⟩ |
      ⟨u, tr₁, tr₂, g, rfl, hrun₁, hrun₂⟩
    · obtain ⟨es, hg, hes⟩ := hfirst hrun₁
      exact ⟨es, hg, fun e he => .inl (hes e he)⟩
    · obtain ⟨es, hg, hes⟩ := hfirst hrun₁
      exact ⟨es, hg, fun e he => .inl (hes e he)⟩
    · obtain ⟨hclear, hg₁⟩ : h.clearWay d.1 = true ∧ Host.Grown [d.1] h g := by
        rcases mkdirAll_inv hrun₁ with hmade | ⟨hout, -⟩
        · exact hmade
        · exact absurd rfl hout
      obtain ⟨es, hg₂, hes⟩ := ih hrun₂
      refine ⟨[d.1] ++ es, hg₁.trans hg₂, fun e he => ?_⟩
      rcases List.mem_append.mp he with he | he
      · obtain rfl := List.mem_singleton.mp he
        exact .inl ⟨List.prefix_rfl, hclear⟩
      · exact .inr ⟨hclear, hg₁.attains_iff.mp (hes e he)⟩

/-- When all of them were made, none was blocked. -/
lemma makeDirs_ok (ds : List (Path × (String → RuntimeError))) {u : Unit}
    (hrun : Runs Host.Exits (makeDirs ds) h tr (some (.ok u)) h') :
    (∀ d ∈ ds.map Prod.fst, h.clearWay d = true) ∧ Host.Grown (ds.map Prod.fst) h h' := by
  induction ds generalizing h tr with
  | nil =>
    obtain ⟨-, hR, -⟩ := Exec.ret_inv hrun
    exact ⟨by simp, exits_grown hR⟩
  | cons d ds ih =>
    obtain ⟨u', tr₁, tr₂, g, rfl, hrun₁, hrun₂⟩ := Exec.fallible_bind_ok hrun
    obtain ⟨hclear, hg₁⟩ : h.clearWay d.1 = true ∧ Host.Grown [d.1] h g := by
      rcases mkdirAll_inv hrun₁ with hmade | ⟨hout, -⟩
      · exact hmade
      · exact absurd rfl hout
    obtain ⟨hall, hg₂⟩ := ih hrun₂
    refine ⟨?_, hg₁.trans hg₂⟩
    rw [List.map_cons, List.forall_mem_cons]
    exact ⟨hclear, fun e he => (hg₁.clearWay e).symm.trans (hall e he)⟩

/-- One path that nothing blocks can be made. -/
lemma exists_mkdirAll {p : Path} (f : String → RuntimeError) (hp : h.clearWay p = true) :
    ∃ tr g, Runs Host.Exits (mkdirAll p f) h tr (some (.ok ())) g ∧ Host.Grown [p] h g := by
  have hen : machine.Enabled h (.mkdirAll p) (.ok () : Except (Nat × String) Unit) := hp
  exact ⟨_, _, Exec.call hen (.ret _ _), Host.Grown.mkdirAll h p⟩

/-- The call that makes a path can fail at any component that nothing blocks. -/
lemma exists_mkdirAll_error {p q : Path} (f : String → RuntimeError) (hqp : q <+: p)
    (hlen : q.length < p.length) (hq : h.clearWay q = true) :
    ∃ tr e g, Runs Host.Exits (mkdirAll p f) h tr (some (.error e)) g ∧ Host.Grown [q] h g := by
  have htake : p.take q.length = q := (List.prefix_iff_eq_take.mp hqp).symm
  have hen : machine.Enabled h (.mkdirAll p) (.error (q.length, "") : Except (Nat × String) Unit) :=
    Host.enabled_mkdirAll_error.mpr ⟨hlen, by rw [htake, hq]⟩
  have hnext : h.next (.mkdirAll p) (.error (q.length, "") : Except (Nat × String) Unit) =
      { h with fs := h.fs.mkdirAll q } := by
    simp only [Host.next, htake]
  refine ⟨_, f "", h.next (.mkdirAll p) (.error (q.length, "") : Except (Nat × String) Unit),
    Exec.call hen (.ret _ _), ?_⟩
  rw [hnext]
  exact Host.Grown.mkdirAll h q

/-- Making directories can come to an end. -/
lemma exists_makeDirs_return (ds : List (Path × (String → RuntimeError)))
    (hroot : h.clearWay [] = true) :
    ∃ tr res g, Runs Host.Exits (makeDirs ds) h tr (some res) g := by
  induction ds generalizing h with
  | nil => exact ⟨[], .ok (), h, .ret _ _⟩
  | cons d ds ih =>
    by_cases hd : h.clearWay d.1 = true
    · obtain ⟨tr₁, g₁, hrun₁, hg₁⟩ := exists_mkdirAll d.2 hd
      obtain ⟨tr₂, res, g₂, hrun₂⟩ := ih ((hg₁.clearWay []).trans hroot)
      exact ⟨tr₁ ++ tr₂, res, g₂, Exec.fallible_bind hrun₁ hrun₂⟩
    · have hlen : ([] : Path).length < d.1.length := by
        refine List.length_pos_of_ne_nil fun hnil => hd ?_
        rw [hnil]
        exact hroot
      obtain ⟨tr, e, g, hrun, -⟩ := exists_mkdirAll_error d.2 List.nil_prefix hlen hroot
      exact ⟨tr, .error e, g, Exec.fallible_bind_error hrun⟩

/-- All of them can be made when nothing blocks any of them. -/
lemma exists_makeDirs_ok (ds : List (Path × (String → RuntimeError)))
    (hds : ∀ d ∈ ds.map Prod.fst, h.clearWay d = true) :
    ∃ tr g, Runs Host.Exits (makeDirs ds) h tr (some (.ok ())) g ∧
      Host.Grown (ds.map Prod.fst) h g := by
  induction ds generalizing h with
  | nil => exact ⟨[], h, .ret _ _, .of_fs rfl⟩
  | cons d ds ih =>
    rw [List.map_cons, List.forall_mem_cons] at hds
    obtain ⟨tr₁, g₁, hrun₁, hg₁⟩ := exists_mkdirAll d.2 hds.1
    obtain ⟨tr₂, g₂, hrun₂, hg₂⟩ := ih fun e he => (hg₁.clearWay e).trans (hds.2 e he)
    exact ⟨tr₁ ++ tr₂, g₂, Exec.fallible_bind hrun₁ hrun₂, hg₁.trans hg₂⟩

/-- **What can be left behind is.** Every path that making the directories can get to is there at the
end of some run that returns.

**Proof sketch.** Induction on the list. A path strictly on the way to the first directory is made by a
call that fails there; the first directory itself by the call that succeeds, whatever follows. -/
lemma exists_makeDirs (ds : List (Path × (String → RuntimeError))) {q : Path}
    (hq : h.Attains (ds.map Prod.fst) q) :
    ∃ tr res g es, Runs Host.Exits (makeDirs ds) h tr (some res) g ∧ Host.Grown es h g ∧ q ∈ es := by
  induction ds generalizing h with
  | nil => exact hq.elim
  | cons d ds ih =>
    rcases hq with ⟨hqd, hclear⟩ | ⟨hclear, hq⟩
    · by_cases hlen : q.length < d.1.length
      · obtain ⟨tr, e, g, hrun, hg⟩ := exists_mkdirAll_error d.2 hqd hlen hclear
        exact ⟨tr, .error e, g, [q], Exec.fallible_bind_error hrun, hg, List.mem_singleton_self q⟩
      · obtain rfl : q = d.1 := hqd.eq_of_length_le (Nat.le_of_not_lt hlen)
        obtain ⟨tr₁, g₁, hrun₁, hg₁⟩ := exists_mkdirAll d.2 hclear
        have hroot : g₁.clearWay [] = true :=
          (hg₁.clearWay []).trans (Host.clearWay_of_prefix List.nil_prefix hclear)
        obtain ⟨tr₂, res, g₂, hrun₂⟩ := exists_makeDirs_return ds hroot
        obtain ⟨es, hg₂, -⟩ := makeDirs_grown ds hrun₂
        exact ⟨tr₁ ++ tr₂, res, g₂, [d.1] ++ es, Exec.fallible_bind hrun₁ hrun₂, hg₁.trans hg₂,
          List.mem_append_left _ (List.mem_singleton_self _)⟩
    · obtain ⟨tr₁, g₁, hrun₁, hg₁⟩ := exists_mkdirAll d.2 hclear
      obtain ⟨tr₂, res, g₂, es, hrun₂, hg₂, hmem⟩ := ih (hg₁.attains_iff.mpr hq)
      exact ⟨tr₁ ++ tr₂, res, g₂, [d.1] ++ es, Exec.fallible_bind hrun₁ hrun₂, hg₁.trans hg₂,
        List.mem_append_right _ hmem⟩

end Runs

end Mincontainer
