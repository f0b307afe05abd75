import Mathlib.Data.List.Sort
import Mincontainer.State.Store

set_option relaxedAutoImplicit false
set_option autoImplicit false

/-!
# The checkpoint engine

`criu.rs`: the engine is driven as a subprocess. Its failures are values here, as the callers
match on them.
-/

namespace Mincontainer

open Effects Files

namespace Criu

def binary : String := "criu"

/-- Check that the engine is present and usable, returning its version string. -/
def version : HostM String := do
  orErr (← sys .criuVersion) fun e =>
    .checkpoint s!"cannot run `criu`: {e}. Install CRIU (the dev image ships it)."

/-- Freeze and dump the process tree rooted at `opts.pid`. -/
def dump (opts : DumpOptions) : HostM (Except String Unit) := do
  let _ ← sys (.mkdirAll opts.imagesDir)
  match ← sys (.criuDump opts) with
  | .ok _ => pure (.ok ())
  | .error f => pure (.error f.msg)

/-- Rebuild the process tree of `owner` from an image set, detached from this process, and read
the restored root pid back. -/
def restore (owner : String) (opts : RestoreOptions) : HostM (Except String Int) := do
  sys (.removeFile opts.pidfile)
  match (← sys (.criuRestore owner opts) : EngineRestore) with
  | .failed msg => pure (.error msg)
  | .up _ readback => pure readback

/-- Every file the engine wrote into an image directory, sorted for a stable layout. -/
def imageFiles (dir : Path) : HostM (List String) := do
  let files ← orErr (← sys (.listDir dir)) fun e =>
    .checkpoint s!"read image dir {display dir}: {e}"
  pure (files.insertionSort (· ≤ ·))

end Criu

end Mincontainer
