import Mincontainer.Bytes.Codec
import Mincontainer.Bytes.Endian
import Mincontainer.Host.Calls
import Mincontainer.Snapshot.Crc32
import Mincontainer.State.Text

set_option relaxedAutoImplicit false
set_option autoImplicit false

/-!
# Writing a snapshot

The writing half of `snapshot.rs`. The payload is streamed to a scratch file beside the
destination while the entry table is collected; `finish` then writes the real file with the
complete manifest in front.

Buffered writes are calls of their own here: what a buffer holds back when the process is killed
is one of the prefixes that an interrupted call can leave, and a failed flush is the failure of
the last call before it.

## Main definitions

* `Mincontainer.SnapshotWriter` — the writer, with `addFile`, `addBytes` and `finish`.
* `Mincontainer.SnapshotWriter.scope` — the life of a writer: its scratch file is removed on every
  way out.
-/

namespace Mincontainer

open Effects Files Bytes

namespace Snapshot

def magic : Bytes := utf8 "MCSNAP\x00\x01"

def trailer : Bytes := utf8 "MCSNAPED"

def formatVersion : Nat := 1

/-- Larger manifests are refused. -/
def maxManifest : Nat := 8 * 1024 * 1024

/-- The size of a copy buffer. -/
def bufSize : Nat := 256 * 1024

end Snapshot

open Snapshot

/-- A file writer that checksums everything passing through it. -/
structure CrcWriter where
  path : Path
  crc : Crc32

namespace CrcWriter

def new (path : Path) : CrcWriter := ⟨path, Crc32.new⟩

def writeAll (w : CrcWriter) (data : Bytes) (f : String → RuntimeError) : HostM CrcWriter := do
  appendTo w.path data f
  pure { w with crc := w.crc.update data }

/-- Copy a stream that is read in buffers. -/
def copy (w : CrcWriter) (chunks : List Bytes) (f : String → RuntimeError) : HostM CrcWriter := do
  copyChunks w.path f chunks
  pure { w with crc := chunks.foldl Crc32.update w.crc }

end CrcWriter

/-- What a read loop over a stream saw: its buffers, and the error that ended it early. -/
abbrev ReadLoop := List Bytes × Option String

/-- A buffer in memory, read in pieces of at most `n` bytes. -/
def blocks (n : Nat) (data : Bytes) : List Bytes :=
  if _h : n = 0 ∨ data = [] then [] else data.take n :: blocks n (data.drop n)
termination_by data.length
decreasing_by
  have := List.length_pos_iff.mpr (not_or.mp _h).2
  have := (not_or.mp _h).1
  simp only [List.length_drop]
  omega

/-- Builds a snapshot file. -/
structure SnapshotWriter where
  scratchPath : Path
  entries : List EntryMeta

namespace SnapshotWriter

/-- Create the directory the destination lies in. -/
def makeParent (dest : PathBuf) : HostM Unit :=
  match dest.parent with
  | none => pure ()
  | some parent => mkdirAll parent fun e => .snapshot s!"mkdir {display parent}: {e}"

def new (dest : PathBuf) : HostM SnapshotWriter := do
  let scratchPath := dest.withExtension "mcsnap.part"
  makeParent dest
  match dest.fileName with
  -- no file can be created at a text that does not end in a name
  | none => throw (.snapshot s!"create {dest.text}: Is a directory (os error 21)")
  | some _ =>
    createFile scratchPath fun e => .snapshot s!"create {display scratchPath}: {e}"
    pure ⟨scratchPath, []⟩

/-- Append one entry of declared length `len`, read by `src`. -/
def writeEntry (w : SnapshotWriter) (name : String) (len : Nat) (src : HostM ReadLoop) :
    HostM SnapshotWriter := do
  if w.entries.any fun e => e.name = name then
    throw (.snapshot s!"duplicate entry {name}")
  else
    let nameBytes := utf8 name
    appendTo w.scratchPath (toLE 4 nameBytes.length ++ nameBytes ++ toLE 8 len) fun e =>
      .snapshot s!"write entry header {name}: {e}"
    let read ← src
    copyChunks w.scratchPath (fun e => .snapshot s!"write {name}: {e}") read.1
    match read.2 with
    | some e => throw (.snapshot s!"read {name}: {e}")
    | none =>
      let copied := read.1.flatten.length
      -- the source changed under us: the frame would be unreadable
      if copied ≠ len then
        throw (.snapshot s!"{name}: declared {len} bytes but read {copied}")
      else
        let crc := (read.1.foldl Crc32.update Crc32.new).finish
        pure { w with entries := w.entries ++ [⟨name, len, crc⟩] }

/-- Append one entry, streaming from the file `src`. -/
def addFile (w : SnapshotWriter) (name : String) (src : Path) : HostM SnapshotWriter := do
  let len ← orErr (← sys (.openFile src)) fun e => .snapshot s!"open {display src}: {e}"
  w.writeEntry name len (sys (.readAll src))

/-- Append one entry from an in-memory buffer. -/
def addBytes (w : SnapshotWriter) (name : String) (data : Bytes) : HostM SnapshotWriter :=
  w.writeEntry name data.length (pure (blocks bufSize data, none))

/-- Write the final file: magic, manifest, payload, trailer. -/
def finish (w : SnapshotWriter) (codec : Codec Manifest) (dest : PathBuf)
    (buildManifest : List EntryMeta → HostM Manifest) : HostM Manifest := do
  let manifest ← buildManifest w.entries
  let manifestJson := codec.encode manifest
  -- the length is compared after a cast to 32 bits
  if manifestJson.length % 2 ^ 32 > maxManifest then
    throw (.snapshot s!"manifest too large: {manifestJson.length} bytes")
  else
    createFile dest.path fun e => .snapshot s!"create {dest.text}: {e}"
    let out ← (CrcWriter.new dest.path).writeAll
      (magic ++ toLE 4 manifestJson.length ++ manifestJson) fun e => .snapshot s!"write header: {e}"
    let scratch ← sys (.readAll w.scratchPath)
    let out ← out.copy scratch.1 fun e => .snapshot s!"copy payload: {e}"
    match scratch.2 with
    | some e => throw (.snapshot s!"copy payload: {e}")
    | none =>
      let out ← out.writeAll trailer fun e => .snapshot s!"write trailer: {e}"
      let crc := out.crc.finish
      let _ ← out.writeAll (toLE 4 crc.toNat) fun e => .snapshot s!"write crc: {e}"
      sys (.removeFile w.scratchPath)
      pure manifest

/-- Use a writer for `dest`. It is dropped on every way out, and its scratch file with it. -/
def scope {α : Type} (dest : PathBuf) (body : SnapshotWriter → HostM α) : HostM α := do
  let w ← SnapshotWriter.new dest
  let r ← (Fallible.attempt (body w) : HostM (Except RuntimeError α))
  sys (.removeFile w.scratchPath)
  ofExcept r

end SnapshotWriter

end Mincontainer
