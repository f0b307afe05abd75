import Mincontainer.Host.Calls

set_option relaxedAutoImplicit false
set_option autoImplicit false

/-!
# Container networking

`network.rs`, and the short id of `config.rs` it names interfaces by. A byte slice that does not
end on a character boundary is a panic, which ends the process without a result.
-/

namespace Mincontainer

open Effects Files

/-- The first characters that fill exactly `n` bytes, or all of them when there are fewer. -/
def takeBytes : Nat → List Char → Option (List Char)
  | 0, _ => some []
  | _, [] => some []
  | n, c :: cs =>
    if c.utf8Size ≤ n then (takeBytes (n - c.utf8Size) cs).map (c :: ·) else none

/-- `&s[..s.len().min(n)]`, or nothing where that slice is not on a character boundary. -/
def slice (n : Nat) (s : String) : Option String := (takeBytes n s.toList).map String.ofList

/-- Up to the first 12 bytes of the id, used for veth naming. -/
def ContainerConfig.shortId (cfg : ContainerConfig) : String := (slice 12 cfg.id).getD cfg.id

/-- Per-container network handle. -/
structure Network where
  hostVeth : String
  containerIp : String
deriving DecidableEq, Repr

namespace Network

def bridge : String := "mc0"
def bridgeAddr : String := "10.66.0.1"
def subnet : String := "10.66.0.0/24"

/-- Run one command. -/
def run (c : NetCommand) : HostM Unit := do
  orErr (← sys (.net c)) .network

/-- Create the shared bridge if it does not already exist, and enable NAT. -/
def ensureBridge : HostM Unit := do
  let found ← (Fallible.attempt (run (.linkShow bridge)) : HostM _)
  match found with
  | .ok _ => pure ()
  | .error _ =>
    run (.linkAddBridge bridge)
    run (.addrAdd s!"{bridgeAddr}/24" bridge)
    run (.linkSetUp bridge)
    -- forwarding and masquerading are best effort
    let rule := ["POSTROUTING", "-s", subnet, "!", "-o", bridge, "-j", "MASQUERADE"]
    match ← (Fallible.attempt (run (.iptables (["-t", "nat", "-C"] ++ rule))) : HostM _) with
    | .ok _ => pure ()
    | .error _ =>
      let _ ← (Fallible.attempt (run (.iptables (["-t", "nat", "-A"] ++ rule))) : HostM _)
      pure ()

/-- The host-side veth name a given container would have used; interface names have at most 15
bytes. -/
def hostVethName (shortId : String) : Option String := slice 15 ("mch" ++ shortId)

/-- Attach the host end of a veth pair to the bridge, move the peer end into the network namespace
of a container and configure it there. -/
def attach (hostVeth peer containerIp : String) (pid : Int) : HostM Unit := do
  run (.linkSetMaster hostVeth bridge)
  run (.linkSetUp hostVeth)
  run (.linkSetNetns peer pid)
  run (.nsenter pid ["ip", "link", "set", peer, "name", "eth0"])
  run (.nsenter pid ["ip", "addr", "add", s!"{containerIp}/24", "dev", "eth0"])
  run (.nsenter pid ["ip", "link", "set", "eth0", "up"])
  run (.nsenter pid ["ip", "link", "set", "lo", "up"])
  run (.nsenter pid ["ip", "route", "add", "default", "via", bridgeAddr])

/-- Wire a container, identified by its host-visible pid, into the bridge. -/
def setup (shortId : String) (pid : Int) (index : UInt8) : HostM Network := do
  ensureBridge
  let some hostVeth := hostVethName shortId | abort
  let some peer := slice 15 ("mcp" ++ shortId) | abort
  let containerIp := s!"10.66.0.{1 + index.toNat + 1}"
  run (.linkAddVeth hostVeth peer)
  attach hostVeth peer containerIp pid
  pure ⟨hostVeth, containerIp⟩

/-- Tear down the host-side veth. -/
def cleanup (net : Network) : HostM Unit := do
  let _ ← (Fallible.attempt (run (.linkDelete net.hostVeth)) : HostM _)
  pure ()

/-- Delete a container's veth without holding a `Network`. -/
def cleanupById (shortId : String) : HostM Unit := do
  let some hostVeth := hostVethName shortId | abort
  let _ ← (Fallible.attempt (run (.linkDelete hostVeth)) : HostM _)
  pure ()

end Network

end Mincontainer
