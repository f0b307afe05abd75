import Mincontainer.Bytes.Text
import Mincontainer.State.Carried
import Mincontainer.State.Text

set_option relaxedAutoImplicit false
set_option autoImplicit false

/-!
# Whether a process is alive

`pid_alive` reads the stat file of a process as text and takes the first word behind the last closing
parenthesis for its state. The name of the process stands before that parenthesis and may hold any
bytes; where they are not valid UTF-8 the file is not read as text at all, and the process is taken
for dead. A reconciliation and a restore go by the answer.

## Main definitions

* `Mincontainer.pidAlive` — the answer, given the stat file.
* `Mincontainer.StatLine` — a process as the kernel prints it; `Mincontainer.StatLine.bytes` is the
  line.
* `Mincontainer.StatLine.Sees` — what a run is told agrees with the process and with the record.
* `Mincontainer.StatLine.ToldAlive` — liveness is told by the state alone, and heeded.

## Main results

* `Mincontainer.StatLine.pidAlive_bytes` — the answer for every name that is valid UTF-8.
* `Mincontainer.StatLine.toldAlive_iff` — when liveness is told by the state alone.
-/

namespace Mincontainer

open Effects Files Bytes

/-! ### The answer -/

/-- White space, as Unicode has it. -/
def isWhite (c : Char) : Bool :=
  let n := c.toNat
  (9 ≤ n && n ≤ 13) || n == 0x20 || n == 0x85 || n == 0xA0 || n == 0x1680 ||
    (0x2000 ≤ n && n ≤ 0x200A) || n == 0x2028 || n == 0x2029 || n == 0x202F || n == 0x205F ||
    n == 0x3000

/-- The first word of a text. -/
def firstWord (text : List Char) : Option (List Char) :=
  match text.dropWhile isWhite with
  | [] => none
  | rest => some (rest.takeWhile fun c => !isWhite c)

/-- Whether a process is still running, given the bytes of `/proc/<pid>/stat`, if it can be read. A
zombie does not count. -/
def pidAlive (stat : Option Bytes) : Bool :=
  match stat.bind fun b => String.fromUTF8? ⟨b.toArray⟩ with
  | none => false
  | some text =>
    match rsplitOnce ')' text.toList with
    | none => false
    | some (_, after) =>
      match firstWord after with
      | none => false
      | some word => word != ['Z'] && word != ['X']

/-- A process as the kernel prints it: a name of at most fifteen bytes, none of them zero, a letter
for the state, and further fields without a parenthesis. -/
structure StatLine where
  pid : ℕ
  name : Bytes
  state : Char
  fields : String
  name_short : name.length ≤ 15
  name_plain : 0 ∉ name
  state_letter : state.isAlpha = true
  fields_plain : ')' ∉ fields.toList

namespace StatLine

/-- The stat file of a process. -/
def bytes (l : StatLine) : Bytes :=
  utf8 (toString l.pid ++ " (") ++ l.name ++
    utf8 (String.ofList (')' :: ' ' :: l.state :: ' ' :: l.fields.toList))

/-- The process is neither a zombie nor dead. -/
def Live (l : StatLine) : Prop := l.state ≠ 'Z' ∧ l.state ≠ 'X'

instance (l : StatLine) : Decidable l.Live := inferInstanceAs (Decidable (_ ∧ _))

/-- A letter is no white space and no parenthesis. -/
lemma plain_of_isAlpha {c : Char} (h : c.isAlpha = true) : isWhite c = false ∧ c ≠ ')' := by
  have hrange : 65 ≤ c.toNat ∧ c.toNat ≤ 122 := by
    change (decide (c.val ≥ 65 ∧ c.val ≤ 90) ||
      (decide (c.val ≥ 97) && decide (c.val ≤ 122))) = true at h
    simp only [Bool.or_eq_true, Bool.and_eq_true, decide_eq_true_eq, ge_iff_le,
      UInt32.le_iff_toNat_le] at h
    change (65 ≤ c.toNat ∧ c.toNat ≤ 90) ∨ (97 ≤ c.toNat ∧ c.toNat ≤ 122) at h
    omega
  constructor
  · unfold isWhite
    simp only [Bool.or_eq_false_iff, Bool.and_eq_false_iff, decide_eq_false_iff_not, beq_eq_false_iff_ne]
    omega
  · rintro rfl
    exact absurd hrange.1 (by decide)

/-- The first word behind the name is the state. -/
lemma firstWord_state {c : Char} (h : isWhite c = false) (rest : List Char) :
    firstWord (' ' :: c :: ' ' :: rest) = some [c] := by
  have hblank : isWhite ' ' = true := by decide
  unfold firstWord
  rw [List.dropWhile_cons_of_pos hblank, List.dropWhile_cons_of_neg (by simp [h])]
  simp [h, hblank]

/-- **The answer** for a name that is valid UTF-8 is the state.

**Proof sketch.** The line is text. Neither the state nor the fields contain a parenthesis, so that
the last one is the one behind the name, whatever the name contains; the word behind it is the
state. -/
lemma pidAlive_bytes {l : StatLine} (h : IsUtf8 l.name) : pidAlive (some l.bytes) = decide l.Live := by
  obtain ⟨hwhite, hparen⟩ := plain_of_isAlpha l.state_letter
  obtain ⟨name, hname⟩ := exists_utf8 h
  have hline : l.bytes = utf8 (toString l.pid ++ " (" ++ name ++
      String.ofList (')' :: ' ' :: l.state :: ' ' :: l.fields.toList)) := by
    unfold bytes
    rw [← hname, utf8_append (toString l.pid ++ " (" ++ name), utf8_append (toString l.pid ++ " (")]
  have hlast : ')' ∉ ' ' :: l.state :: ' ' :: l.fields.toList := by
    intro hmem
    rcases List.mem_cons.mp hmem with hblank | hmem
    · exact absurd hblank (by decide)
    rcases List.mem_cons.mp hmem with hstate | hmem
    · exact hparen hstate.symm
    rcases List.mem_cons.mp hmem with hblank | hmem
    · exact absurd hblank (by decide)
    · exact l.fields_plain hmem
  unfold pidAlive
  rw [hline, Option.bind_some, fromUTF8?_utf8]
  dsimp only
  rw [String.toList_append, String.toList_ofList, rsplitOnce_append _ hlast]
  dsimp only
  rw [firstWord_state hwhite]
  unfold Live
  by_cases hz : l.state = 'Z' <;> by_cases hx : l.state = 'X' <;> simp [hz, hx]

/-- A line with any other name is not read. -/
lemma pidAlive_of_not_isUtf8 {l : StatLine} (h : ¬ IsUtf8 l.name) : pidAlive (some l.bytes) = false := by
  have hbytes : ¬ IsUtf8 l.bytes := mt (isUtf8_between _ _ _).mp h
  unfold pidAlive
  rw [Option.bind_some, fromUTF8?_of_not_isUtf8 hbytes]

/-! ### Who goes by the answer -/

/-- What a run is told agrees with the process and with the record: the stat file of the process is
this line, and the record of the container, when it is read, says that the container runs as that
process. -/
def Sees (l : StatLine) (env : Env) (id : String) (e : HostSig.Event) : Prop :=
  (∀ b : Bool, e = ⟨.pidAlive l.pid, b⟩ → b = pidAlive (some l.bytes)) ∧
    ∀ (text : Bytes) (st : ContainerState),
      e = ⟨.readFile (ContainerStateDir.forId env id).stateFile,
        (.ok (.doc text (.state st)) : Except String Content)⟩ →
      st.status = Status.running.asStr ∧ st.pid = some (l.pid : ℤ)

/-- Whether the process is alive is told by its state alone; and as long as it is, no reconciliation
of a container that runs as this process does more than read, and no restore of it succeeds or does
more than read. The runs are those on any machine, in any environment. -/
structure ToldAlive (l : StatLine) : Prop where
  answer : pidAlive (some l.bytes) = true ↔ l.Live
  reconcile : l.Live → ∀ (env : Env) (id : String) (W : Type) (M : Machine HostSig W)
    (R : W → W → Prop) (w w' : W) (tr : List HostSig.Event) (out : Option (Except RuntimeError Unit)),
    Exec M R (Restore.reconcile env id).run w tr out w' → (∀ e ∈ tr, l.Sees env id e) →
      ∀ e ∈ tr, e.1.reads = true
  restore : l.Live → ∀ (env : Env) (codec : Codec Manifest) (id : String) (opts : Restore.Options)
    (W : Type) (M : Machine HostSig W) (R : W → W → Prop) (w w' : W) (tr : List HostSig.Event)
    (out : Option (Except RuntimeError Restore.Report)),
    Exec M R (Restore.restore env codec id opts).run w tr out w' → (∀ e ∈ tr, l.Sees env id e) →
      (∀ e ∈ tr, e.1.reads = true) ∧ ∀ report, out ≠ some (.ok report)

variable {l : StatLine} {env : Env} {id : String}

/-- A live process is found alive. -/
lemma sys_pidAlive_relies (halive : pidAlive (some l.bytes) = true) :
    Fallible.Relies (l.Sees env id) (fun o => o.reads = true) (fun b : Bool => b = true)
      (sys (.pidAlive l.pid) : HostM Bool) := by
  refine ⟨rfl, fun b hb a ha => ?_⟩
  cases ha
  rw [hb.1 b rfl, halive]

/-- The record that is loaded says that the container runs as the process. -/
lemma loadState_running : Fallible.Relies (l.Sees env id) (fun o => o.reads = true)
    (fun st => st.status = Status.running.asStr ∧ st.pid = some (l.pid : ℤ))
    (ContainerStateDir.forId env id).loadState :=
  loadState_relies rfl fun text st hr => hr.2 text st rfl

/-- **Reconciliation** finds nothing stale.

**Proof sketch.** The record that is read says *running*, and the process it names is found alive. -/
lemma reconcile_relies (halive : pidAlive (some l.bytes) = true) :
    Fallible.Relies (l.Sees env id) (fun o => o.reads = true) (fun _ => True)
      (Restore.reconcile env id) := by
  refine Fallible.Relies.bind (.of_within (pathExists_reads _)) fun found _ => ?_
  split
  · exact Fallible.Relies.pure trivial
  refine Fallible.Relies.bind loadState_running fun st hst => ?_
  refine Fallible.Relies.bind (Q := fun stale => stale = false) ?_ fun stale hstale => ?_
  · have hstatus : st.status = "running" := hst.1
    unfold Restore.isStale
    rw [if_neg (by rw [hstatus]; decide), if_neg (by rw [hstatus]; decide), if_pos hstatus, hst.2]
    refine Fallible.Relies.bind (sys_pidAlive_relies halive) fun live hlive => ?_
    exact Fallible.Relies.pure (by rw [hlive]; rfl)
  · rw [hstale]
    exact Fallible.Relies.pure trivial

/-- **A restore** refuses a container that runs.

**Proof sketch.** After the reconciliation, which only reads, the record is read again, and the
process it names is found alive again. -/
lemma restore_relies (halive : pidAlive (some l.bytes) = true) (codec : Codec Manifest)
    (opts : Restore.Options) :
    Fallible.Relies (l.Sees env id) (fun o => o.reads = true) (fun _ => False)
      (Restore.restore env codec id opts) := by
  refine Fallible.Relies.bind (Q := fun _ => False) ?_ fun _ h => h.elim
  refine Fallible.Relies.bind (reconcile_relies halive) fun _ _ => ?_
  refine Fallible.Relies.bind (Q := fun _ => False) ?_ fun _ h => h.elim
  refine Fallible.Relies.bind (.of_within (pathExists_reads _)) fun found _ => ?_
  split
  · exact Fallible.Relies.throw _
  refine Fallible.Relies.bind loadState_running fun st hst => ?_
  have hrunning : st.is .running = true := (st.is_iff .running).mpr hst.1
  rw [hrunning, hst.2]
  refine Fallible.Relies.bind (sys_pidAlive_relies halive) fun live hlive => ?_
  rw [hlive]
  exact Fallible.Relies.throw _

/-- **Liveness is told by the state** exactly where the name is valid UTF-8, or the process is a
zombie or dead.

**Proof sketch.** A line that is not read makes the process count as dead, which is right for one
that is. Otherwise the answer is the state, and a process that is found alive is neither reconciled
away nor restored a second time. -/
theorem toldAlive_iff (l : StatLine) : l.ToldAlive ↔ IsUtf8 l.name ∨ ¬ l.Live := by
  constructor
  · intro htold
    by_contra hcond
    rw [not_or, not_not] at hcond
    have halive := htold.answer.mpr hcond.2
    rw [pidAlive_of_not_isUtf8 hcond.1] at halive
    cases halive
  · intro hcond
    have hanswer : pidAlive (some l.bytes) = true ↔ l.Live := by
      by_cases hname : IsUtf8 l.name
      · rw [pidAlive_bytes hname, decide_eq_true_iff]
      · rw [pidAlive_of_not_isUtf8 hname]
        exact iff_of_false Bool.false_ne_true (hcond.resolve_left hname)
    refine ⟨hanswer, ?_, ?_⟩
    · intro hlive env id W M R w w' tr out hrun hsees
      exact (Exec.of_relies (reconcile_relies (hanswer.mpr hlive)) hrun hsees).1
    · intro hlive env codec id opts W M R w w' tr out hrun hsees
      obtain ⟨hreads, hout⟩ :=
        Exec.of_relies (restore_relies (hanswer.mpr hlive) codec opts) hrun hsees
      exact ⟨hreads, fun report hreport => hout _ hreport report rfl⟩

/-- A sleeping process whose name is the single byte 255. -/
def unnamed : StatLine where
  pid := 42
  name := [255]
  state := 'S'
  fields := "1 42 42 0"
  name_short := by decide
  name_plain := by decide
  state_letter := by decide
  fields_plain := by decide

/-- A sleeping process is taken for dead because of its name. -/
theorem unnamed_not_toldAlive : unnamed.Live ∧ ¬ unnamed.ToldAlive := by
  refine ⟨by decide, fun htold => ?_⟩
  have halive := htold.answer.mpr (by decide)
  rw [pidAlive_of_not_isUtf8 (by decide +kernel)] at halive
  cases halive

end StatLine

end Mincontainer
