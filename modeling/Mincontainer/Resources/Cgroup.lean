import Mincontainer.Host.Calls

set_option relaxedAutoImplicit false
set_option autoImplicit false

/-!
# Cgroup leaves

`cgroups.rs`: a cgroup v2 leaf that limits and measures one container.
-/

namespace Mincontainer

open Effects Files

/-- A cgroup v2 leaf. -/
structure Cgroup where
  path : Path
deriving DecidableEq, Repr

namespace Cgroup

/-- The mount point of the cgroup hierarchy. -/
def cgroupRoot : Path := ["sys", "fs", "cgroup"]

/-- Reference an existing leaf without creating it or touching delegation. -/
def «open» (id : String) : Cgroup := ⟨resolve cgroupRoot id⟩

/-- Create the leaf and enable the controllers we need. -/
def create (id : String) : HostM Cgroup := do
  orErr (← sys .delegate) .cgroup
  let path := resolve cgroupRoot id
  mkdirAll path fun e => .cgroup s!"mkdir {display path}: {e}"
  pure ⟨path⟩

def write (c : Cgroup) (file value : String) : HostM Unit := do
  orErr (← sys (.cgroupWrite c.path file value)) fun e =>
    .cgroup s!"write {display (c.path ++ [file])}=\"{value}\": {e}"

/-- Apply the configured resource limits. -/
def apply (c : Cgroup) (r : Resources) : HostM Unit := do
  when (r.memoryMax > 0) do
    c.write "memory.max" (toString r.memoryMax)
    -- no swap, so that the memory ceiling is a true ceiling
    let _ ← (Fallible.attempt (c.write "memory.swap.max" "0") : HostM _)
    pure ()
  when (r.cpuQuota > 0) (c.write "cpu.max" s!"{r.cpuQuota} {r.cpuPeriod}")
  when (r.pidsMax > 0) (c.write "pids.max" (toString r.pidsMax))

/-- The file of a leaf that processes are moved through. -/
def procsFile (c : Cgroup) : Path := c.path ++ ["cgroup.procs"]

/-- Move a process, and thus its future children, into this cgroup. -/
def addProcess (c : Cgroup) (pid : Int) : HostM Unit := do
  orErr (← sys (.cgroupAdd c.path pid)) fun e =>
    .cgroup s!"write {display c.procsFile}=\"{pid}\": {e}"

/-- Remove the cgroup, if it is empty. -/
def cleanup (c : Cgroup) : HostM Unit := do
  let _ ← sys (.removeDir c.path)
  pure ()

end Cgroup

end Mincontainer
