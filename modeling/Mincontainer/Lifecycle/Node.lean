import Mincontainer.Effects.Background
import Mincontainer.Lifecycle.Commands

set_option relaxedAutoImplicit false
set_option autoImplicit false

/-!
# A node

A host together with the supervisors that run on it. A command that forks a supervisor starts it in
the background; from then on it goes through its own calls, whatever other commands do meanwhile.

## Main definitions

* `Mincontainer.Node` — a host with its supervisors.
* `Mincontainer.nodeMachine` — the machine of a node.
* `Mincontainer.Background` — what happens between the calls of a command: a tree exits, or a
  supervisor performs a call.
-/

namespace Mincontainer

open Effects Files

/-- A host with the supervisors that run on it. -/
abbrev Node := Crowd HostSig Host (Except RuntimeError Unit)

/-- The supervisor that a fork starts. -/
def forked (env : Env) : HostSig.Event → Option (Program HostSig (Except RuntimeError Unit))
  | ⟨.fork id cfg, r⟩ =>
    match (r : Except String Int) with
    | .ok self => some (supervise env id cfg self).run
    | .error _ => none
  | _ => none

/-- The machine of a node. -/
def nodeMachine (env : Env) : Machine HostSig Node := machine.crowd (forked env)

/-- What happens between the calls of a command. -/
abbrev Background (env : Env) : Node → Node → Prop := Crowd.Moves machine (forked env) Host.Exits

/-- The event forked a supervisor. -/
def forks : HostSig.Event → Bool
  | ⟨.fork _ _, r⟩ => (r : Except String Int).isOk
  | _ => false

lemma forked_eq_none {env : Env} {e : HostSig.Event} (h : forks e = false) : forked env e = none := by
  obtain ⟨o, r⟩ := e
  cases o with
  | fork id cfg =>
    rcases r with e | pid
    · rfl
    · cases h
  | _ => rfl

end Mincontainer
