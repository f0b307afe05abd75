import Mincontainer.Engine.Checkpoint

set_option relaxedAutoImplicit false
set_option autoImplicit false

/-!
# The command line of the engine

`criu.rs` again: the arguments a dump and a restore are run with. The engine reads them as options, of
which some take the next argument for their value.

## Main definitions

* `Mincontainer.Criu.dumpArgs`, `Mincontainer.Criu.restoreArgs` — the arguments.
* `Mincontainer.Criu.options` — how the engine reads them.
* `Mincontainer.Criu.Declares` — a dump declares a mount under a key.
* `Mincontainer.Criu.mapped` — what a restore supplies for a key.

## Main results

* `Mincontainer.Criu.declares_iff` — a dump declares the mounts of its layout.
* `Mincontainer.Criu.mapped_restoreArgs` — a restore maps every key of its layout, once.
* `Mincontainer.Checkpoint.layoutFor_keys_nodup` — the keys of a layout are different.
-/

namespace Mincontainer

open Files

namespace Criu

/-! ### The arguments -/

/-- How much the engine logs. -/
def verbosity : String := "-v4"

/-- The arguments that describe the shape of the container. -/
def layoutArgs (layout : Layout) (dumping : Bool) : List String :=
  (match layout.root with
    | some root => ["--root", root]
    | none => []) ++
  (layout.externalMounts.flatMap fun m =>
    if dumping then ["--external", s!"mnt[{m.containerPath}]:{m.key}"]
    else ["--ext-mount-map", s!"{m.key}:{m.hostPath}"]) ++
  (if layout.emptyNetNs then ["--empty-ns", "net"] else [])

/-- The arguments of a dump. -/
def dumpArgs (opts : DumpOptions) : List String :=
  ["dump", "--tree", toString opts.pid, "--images-dir", display opts.imagesDir, "--log-file",
    "dump.log", verbosity, "--manage-cgroups=ignore", "--file-locks", "--link-remap"] ++
  (if opts.leaveRunning then ["--leave-running"] else []) ++
  (if opts.tcpEstablished then ["--tcp-established"] else []) ++
  layoutArgs opts.layout true

/-- The arguments of a restore. -/
def restoreArgs (opts : RestoreOptions) : List String :=
  ["restore", "--images-dir", display opts.imagesDir, "--log-file", "restore.log", verbosity,
    "--restore-detached", "--pidfile", display opts.pidfile, "--manage-cgroups=ignore",
    "--file-locks", "--link-remap"] ++
  (if opts.tcpEstablished then ["--tcp-established"] else []) ++
  layoutArgs opts.layout false

/-! ### The options -/

/-- The options that take the next argument for their value. -/
def valued : List String :=
  ["--tree", "--images-dir", "--log-file", "--root", "--external", "--ext-mount-map", "--empty-ns",
    "--pidfile"]

/-- The options on a command line, each with its value. -/
def options : List String → List (String × Option String)
  | [] => []
  | [a] => [(a, none)]
  | a :: v :: rest =>
    if a ∈ valued then (a, some v) :: options rest else (a, none) :: options (v :: rest)

lemma options_valued {a v : String} {rest : List String} (ha : a ∈ valued) :
    options (a :: v :: rest) = (a, some v) :: options rest := by
  rw [options, if_pos ha]

lemma options_flag {a : String} {rest : List String} (ha : a ∉ valued) :
    options (a :: rest) = (a, none) :: options rest := by
  cases rest with
  | nil => rfl
  | cons v rest => rw [options, if_neg ha]

/-- Options with values, one after the other. -/
lemma options_flatMap {α : Type} {a : String} (ha : a ∈ valued) (f : α → String) (xs : List α)
    (rest : List String) :
    options ((xs.flatMap fun x => [a, f x]) ++ rest) =
      (xs.map fun x => (a, some (f x))) ++ options rest := by
  induction xs with
  | nil => rfl
  | cons x xs ih =>
    rw [List.flatMap_cons, List.append_assoc, List.cons_append, List.cons_append, List.nil_append,
      options_valued ha, ih, List.map_cons, List.cons_append]

/-- What the engine reads of a layout. -/
def layoutOptions (layout : Layout) (dumping : Bool) : List (String × Option String) :=
  (match layout.root with
    | some root => [("--root", some root)]
    | none => []) ++
  (layout.externalMounts.map fun m =>
    if dumping then ("--external", some s!"mnt[{m.containerPath}]:{m.key}")
    else ("--ext-mount-map", some s!"{m.key}:{m.hostPath}")) ++
  (if layout.emptyNetNs then [("--empty-ns", some "net")] else [])

lemma options_layoutArgs (layout : Layout) (dumping : Bool) :
    options (layoutArgs layout dumping) = layoutOptions layout dumping := by
  have hnet : options (if layout.emptyNetNs then ["--empty-ns", "net"] else []) =
      if layout.emptyNetNs then [("--empty-ns", some "net")] else [] := by
    split
    · exact options_valued (by decide)
    · rfl
  have hmounts : options ((layout.externalMounts.flatMap fun m =>
      if dumping then ["--external", s!"mnt[{m.containerPath}]:{m.key}"]
      else ["--ext-mount-map", s!"{m.key}:{m.hostPath}"]) ++
        (if layout.emptyNetNs then ["--empty-ns", "net"] else [])) =
      (layout.externalMounts.map fun m =>
        if dumping then ("--external", some s!"mnt[{m.containerPath}]:{m.key}")
        else ("--ext-mount-map", some s!"{m.key}:{m.hostPath}")) ++
        if layout.emptyNetNs then [("--empty-ns", some "net")] else [] := by
    rw [← hnet]
    cases dumping with
    | true => exact options_flatMap (by decide) (fun m : ExternalMount => s!"mnt[{m.containerPath}]:{m.key}") _ _
    | false => exact options_flatMap (by decide) (fun m : ExternalMount => s!"{m.key}:{m.hostPath}") _ _
  rw [layoutArgs, layoutOptions, List.append_assoc, List.append_assoc]
  cases layout.root with
  | none => exact hmounts
  | some root =>
    rw [List.cons_append, List.cons_append, List.nil_append, options_valued (by decide), hmounts]
    rfl

/-- An option without a value that is there or not. -/
lemma options_ite {b : Bool} {a : String} (ha : a ∉ valued) (rest : List String) :
    options ((if b then [a] else []) ++ rest) =
      (if b then [(a, none)] else []) ++ options rest := by
  cases b with
  | true => exact options_flag ha
  | false => rfl

/-- The options of a dump. -/
lemma options_dumpArgs (opts : DumpOptions) : options (dumpArgs opts) =
    [("dump", none), ("--tree", some (toString opts.pid)),
      ("--images-dir", some (display opts.imagesDir)), ("--log-file", some "dump.log"),
      (verbosity, none), ("--manage-cgroups=ignore", none), ("--file-locks", none),
      ("--link-remap", none)] ++
    ((if opts.leaveRunning then [("--leave-running", none)] else []) ++
      ((if opts.tcpEstablished then [("--tcp-established", none)] else []) ++
        layoutOptions opts.layout true)) := by
  rw [← options_layoutArgs, ← options_ite (by decide), ← options_ite (by decide), dumpArgs,
    List.append_assoc, List.append_assoc]
  simp only [List.cons_append, List.nil_append]
  rw [options_flag (by decide), options_valued (by decide), options_valued (by decide),
    options_valued (by decide), options_flag (by decide), options_flag (by decide),
    options_flag (by decide), options_flag (by decide)]

/-- The options of a restore. -/
lemma options_restoreArgs (opts : RestoreOptions) : options (restoreArgs opts) =
    [("restore", none), ("--images-dir", some (display opts.imagesDir)),
      ("--log-file", some "restore.log"), (verbosity, none), ("--restore-detached", none),
      ("--pidfile", some (display opts.pidfile)), ("--manage-cgroups=ignore", none),
      ("--file-locks", none), ("--link-remap", none)] ++
    ((if opts.tcpEstablished then [("--tcp-established", none)] else []) ++
      layoutOptions opts.layout false) := by
  rw [← options_layoutArgs, ← options_ite (by decide), restoreArgs, List.append_assoc]
  simp only [List.cons_append, List.nil_append]
  rw [options_flag (by decide), options_valued (by decide), options_valued (by decide),
    options_flag (by decide), options_flag (by decide), options_valued (by decide),
    options_flag (by decide), options_flag (by decide), options_flag (by decide)]

/-! ### What the options say -/

/-- Established connections are dumped exactly when they are asked for. -/
lemma tcp_mem_dumpArgs {opts : DumpOptions} :
    ("--tcp-established", none) ∈ options (dumpArgs opts) ↔ opts.tcpEstablished = true := by
  rw [options_dumpArgs]
  cases hroot : opts.layout.root <;> simp [layoutOptions, verbosity, hroot]

/-- Established connections are restored exactly when they are asked for. -/
lemma tcp_mem_restoreArgs {opts : RestoreOptions} :
    ("--tcp-established", none) ∈ options (restoreArgs opts) ↔ opts.tcpEstablished = true := by
  rw [options_restoreArgs]
  cases hroot : opts.layout.root <;> simp [layoutOptions, verbosity, hroot]

/-- A dump leaves the network namespace out exactly when its layout says so. -/
lemma net_mem_dumpArgs {opts : DumpOptions} :
    ("--empty-ns", some "net") ∈ options (dumpArgs opts) ↔ opts.layout.emptyNetNs = true := by
  rw [options_dumpArgs]
  cases hroot : opts.layout.root <;> simp [layoutOptions, verbosity, hroot]

/-- A restore makes an empty network namespace exactly when its layout says so. -/
lemma net_mem_restoreArgs {opts : RestoreOptions} :
    ("--empty-ns", some "net") ∈ options (restoreArgs opts) ↔ opts.layout.emptyNetNs = true := by
  rw [options_restoreArgs]
  cases hroot : opts.layout.root <;> simp [layoutOptions, verbosity, hroot]

/-- **External mounts.** A dump declares the mounts of its layout, and no other. -/
lemma mem_options_dumpArgs_external {opts : DumpOptions} {t : String} :
    ("--external", some t) ∈ options (dumpArgs opts) ↔
      ∃ m ∈ opts.layout.externalMounts, s!"mnt[{m.containerPath}]:{m.key}" = t := by
  rw [options_dumpArgs]
  cases hroot : opts.layout.root <;> simp [layoutOptions, verbosity, hroot]

/-! ### Keys -/

/-- A key is a word of its own: the engine reads it up to a colon, or from the last one. -/
def IsKey (key : String) : Prop := ':' ∉ key.toList

instance (key : String) : Decidable (IsKey key) :=
  inferInstanceAs (Decidable (':' ∉ key.toList))

/-- A dump declares the mount at `p` as external, under this key. -/
def Declares (args : List String) (p key : String) : Prop :=
  IsKey key ∧ ("--external", some s!"mnt[{p}]:{key}") ∈ options args

/-- What an option supplies for a key. -/
def supplied (key : String) (o : String × Option String) : Option String :=
  if o.1 = "--ext-mount-map" then
    o.2.bind fun t =>
      if (key.toList ++ [':']) <+: t.toList then
        some (String.ofList (t.toList.drop (key.toList.length + 1)))
      else none
  else none

/-- Everything a restore supplies for a key. -/
def mapped (args : List String) (key : String) : List String :=
  (options args).filterMap (supplied key)

/-- The text before the first colon. -/
lemma split_first {x y k l : List Char} (hk : ':' ∉ k) (hl : ':' ∉ l)
    (h : k ++ ':' :: x = l ++ ':' :: y) : k = l ∧ x = y := by
  have hkey : k = l := by
    have htake := congrArg (List.takeWhile (· != ':')) h
    rwa [List.takeWhile_append_of_pos, List.takeWhile_append_of_pos, List.takeWhile_cons_of_neg,
      List.takeWhile_cons_of_neg, List.append_nil, List.append_nil] at htake
    all_goals grind
  rw [hkey] at h
  exact ⟨hkey, (List.cons.inj (List.append_cancel_left h)).2⟩

/-- The text after the last colon. -/
lemma split_last {x y k l : List Char} (hk : ':' ∉ k) (hl : ':' ∉ l)
    (h : x ++ ':' :: k = y ++ ':' :: l) : x = y ∧ k = l := by
  have hrev : k.reverse ++ ':' :: x.reverse = l.reverse ++ ':' :: y.reverse := by
    simpa using congrArg List.reverse h
  obtain ⟨hkey, hbefore⟩ := split_first (by simpa using hk) (by simpa using hl) hrev
  exact ⟨List.reverse_inj.mp hbefore, List.reverse_inj.mp hkey⟩

/-- A declaration is read in one way. -/
lemma external_inj {p q k l : String} (hk : IsKey k) (hl : IsKey l)
    (h : s!"mnt[{p}]:{k}" = s!"mnt[{q}]:{l}") : p = q ∧ k = l := by
  have hlist := congrArg String.toList h
  simp only [String.toList_append, toString] at hlist
  have hclose : "]:".toList = [']', ':'] := by decide
  rw [hclose, List.append_assoc, List.append_assoc, List.append_assoc, List.append_assoc] at hlist
  have hrest := List.append_cancel_left hlist
  have hsplit : (p.toList ++ [']']) ++ ':' :: k.toList = (q.toList ++ [']']) ++ ':' :: l.toList := by
    simpa using hrest
  obtain ⟨hpath, hkey⟩ := split_last hk hl hsplit
  exact ⟨String.toList_inj.mp (List.append_cancel_right hpath), String.toList_inj.mp hkey⟩

/-- **Declarations.** A dump declares each mount of its layout under its key, and nothing else. -/
lemma declares_iff {opts : DumpOptions} (hkeys : ∀ m ∈ opts.layout.externalMounts, IsKey m.key)
    {p key : String} : Declares (dumpArgs opts) p key ↔
      ∃ m ∈ opts.layout.externalMounts, m.containerPath = p ∧ m.key = key := by
  constructor
  · rintro ⟨hkey, hmem⟩
    obtain ⟨m, hm, htext⟩ := mem_options_dumpArgs_external.mp hmem
    exact ⟨m, hm, external_inj (hkeys m hm) hkey htext⟩
  · rintro ⟨m, hm, rfl, rfl⟩
    exact ⟨hkeys m hm, mem_options_dumpArgs_external.mpr ⟨m, hm, rfl⟩⟩

/-- An element that no other shares its value with is alone in having it. -/
lemma filter_eq_singleton {α : Type} {f : α → String} {l : List α} {x : α} (hl : (l.map f).Nodup)
    (hx : x ∈ l) : (l.filter fun y => f y = f x) = [x] := by
  induction l with
  | nil => cases hx
  | cons y l ih =>
    rw [List.map_cons, List.nodup_cons] at hl
    rcases List.mem_cons.mp hx with rfl | hx
    · have hnone : (l.filter fun y => f y = f x) = [] :=
        List.filter_eq_nil_iff.mpr fun z hz hfz =>
          hl.1 (List.mem_map.mpr ⟨z, hz, of_decide_eq_true hfz⟩)
      rw [List.filter_cons_of_pos (by simp), hnone]
    · have hne : f y ≠ f x := fun h => hl.1 (List.mem_map.mpr ⟨x, hx, h.symm⟩)
      rw [List.filter_cons_of_neg (by simpa using hne), ih hl.2 hx]

/-- What a mapping supplies: its host path, for its own key. -/
lemma supplied_mapping {key : String} {m : ExternalMount} (hkey : IsKey key) (hm : IsKey m.key) :
    supplied key ("--ext-mount-map", some s!"{m.key}:{m.hostPath}") =
      if m.key = key then some m.hostPath else none := by
  have htext : (s!"{m.key}:{m.hostPath}").toList = m.key.toList ++ ':' :: m.hostPath.toList := by
    simp [toString]
  rw [supplied, if_pos rfl, Option.bind_some, htext]
  by_cases h : m.key = key
  · subst h
    have hown : m.key.toList ++ [':'] <+: m.key.toList ++ ':' :: m.hostPath.toList :=
      ⟨m.hostPath.toList, by simp⟩
    rw [if_pos rfl, if_pos hown]
    simp
  · rw [if_neg h, if_neg]
    rintro ⟨rest, hrest⟩
    rw [List.append_assoc, List.singleton_append] at hrest
    exact h (String.toList_inj.mp (split_first hkey hm hrest).1.symm)

lemma supplied_other {key : String} {o : String × Option String} (ho : o.1 ≠ "--ext-mount-map") :
    supplied key o = none := if_neg ho

/-- What the mounts of a layout supply for a key. -/
lemma supplied_mounts {key : String} {ms : List ExternalMount} (hkey : IsKey key)
    (hms : ∀ m ∈ ms, IsKey m.key) :
    (ms.map fun m => ("--ext-mount-map", some s!"{m.key}:{m.hostPath}")).filterMap (supplied key) =
      (ms.filter fun m => m.key = key).map ExternalMount.hostPath := by
  induction ms with
  | nil => rfl
  | cons m ms ih =>
    rw [List.map_cons, List.filterMap_cons, supplied_mapping hkey (hms m List.mem_cons_self),
      ih fun x hx => hms x (List.mem_cons_of_mem _ hx), List.filter_cons]
    by_cases h : m.key = key
    · simp [h]
    · simp [h]

/-- **The mappings of a restore.** What is supplied for a key is the host path of every mount that
has it. -/
lemma mapped_restoreArgs {opts : RestoreOptions} {key : String} (hkey : IsKey key)
    (hkeys : ∀ m ∈ opts.layout.externalMounts, IsKey m.key) :
    mapped (restoreArgs opts) key =
      (opts.layout.externalMounts.filter fun m => m.key = key).map ExternalMount.hostPath := by
  have hsilent : ∀ l : List (String × Option String), (∀ o ∈ l, o.1 ≠ "--ext-mount-map") →
      l.filterMap (supplied key) = [] := fun l hl =>
    List.filterMap_eq_nil_iff.mpr fun o ho => supplied_other (hl o ho)
  rw [mapped, options_restoreArgs, layoutOptions, List.filterMap_append, List.filterMap_append,
    List.filterMap_append, List.filterMap_append, hsilent _ (by simp [verbosity]),
    hsilent _ (by cases opts.tcpEstablished <;> simp),
    hsilent _ (by cases opts.layout.root <;> simp), List.nil_append, List.nil_append,
    List.nil_append]
  refine (congrArg (_ ++ ·) (hsilent _ ?_)).trans ((List.append_nil _).trans (supplied_mounts hkey hkeys))
  cases opts.layout.emptyNetNs <;> simp

end Criu

/-! ### The keys of a layout -/

namespace Checkpoint

/-- The key of the volume with this number. -/
def volumeKey (i : ℕ) : String := s!"mcvol{i}"

lemma toList_volumeKey (i : ℕ) : (volumeKey i).toList = "mcvol".toList ++ Nat.toDigits 10 i := by
  rw [volumeKey, String.toList_append, Nat.toString_eq_repr, Nat.toList_repr]
  rfl

lemma volumeKey_injective : Function.Injective volumeKey := by
  intro i j h
  have hlist := congrArg String.toList h
  rw [toList_volumeKey, toList_volumeKey] at hlist
  have hnumbers := congrArg (fun cs => Nat.ofDigitChars 10 cs 0) (List.append_cancel_left hlist)
  simpa only [Nat.ofDigitChars_ten_toDigits] using hnumbers

lemma volumeKey_isKey (i : ℕ) : Criu.IsKey (volumeKey i) := by
  rw [Criu.IsKey, toList_volumeKey, List.mem_append]
  rintro (h | h)
  · exact absurd h (by decide)
  · exact absurd (Nat.isDigit_of_mem_toDigits (by decide) (by decide) h) (by decide)

lemma volumeKey_ne (i : ℕ) : volumeKey i ≠ "mcio" := by
  intro h
  have hlist := congrArg String.toList h
  rw [toList_volumeKey] at hlist
  exact absurd (congrArg (fun cs => cs[2]?) hlist) (by simp)

variable {cfg : ContainerConfig} {dir : ContainerStateDir}

/-- The keys of a layout, in order. -/
lemma map_key_layoutFor : (layoutFor cfg dir).externalMounts.map ExternalMount.key =
    "mcio" :: (List.range cfg.volumes.length).map volumeKey := by
  rw [layoutFor, List.map_cons]
  congr 1
  refine List.ext_getElem (by simp) fun i h₁ h₂ => ?_
  simp [volumeKey]

/-- **The keys of a layout** are different. -/
lemma layoutFor_keys_nodup : ((layoutFor cfg dir).externalMounts.map ExternalMount.key).Nodup := by
  rw [map_key_layoutFor, List.nodup_cons]
  refine ⟨fun h => ?_, List.nodup_range.map volumeKey_injective⟩
  obtain ⟨i, -, hi⟩ := List.mem_map.mp h
  exact volumeKey_ne i hi

lemma isKey_of_layoutFor {m : ExternalMount} (hm : m ∈ (layoutFor cfg dir).externalMounts) :
    Criu.IsKey m.key := by
  have hkey := List.mem_map_of_mem (f := ExternalMount.key) hm
  rw [map_key_layoutFor, List.mem_cons] at hkey
  rcases hkey with h | h
  · rw [h]
    decide
  · obtain ⟨i, -, hi⟩ := List.mem_map.mp h
    rw [← hi]
    exact volumeKey_isKey i

end Checkpoint

end Mincontainer
