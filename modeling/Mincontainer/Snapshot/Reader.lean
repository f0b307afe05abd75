import Mincontainer.Snapshot.Writer

set_option relaxedAutoImplicit false
set_option autoImplicit false

/-!
# Reading a snapshot

The reading half of `snapshot.rs`. Nobody writes a snapshot while it is open, so a reader keeps
the bytes of the file: what `open` finds in them is a pure function, and the calls of a reader
only decide in which pieces the bytes arrive and whether a read fails.

## Main definitions

* `Mincontainer.SnapshotReader.openBytes` — the checks of `open` on the bytes of a file.
* `Mincontainer.SnapshotReader.open`, `Mincontainer.SnapshotReader.verify`,
  `Mincontainer.SnapshotReader.extractAll` — the reader.
* `Mincontainer.safeJoin` — entry names are kept below the directory they are unpacked into.
-/

namespace Mincontainer

open Effects Files Bytes Snapshot

/-- A number as `0x` and eight hexadecimal digits. -/
def hex8 (n : UInt32) : String :=
  let digits := Nat.toDigits 16 n.toNat
  "0x" ++ String.ofList (List.replicate (8 - digits.length) '0' ++ digits)

/-- An open snapshot, its header parsed. -/
structure SnapshotReader where
  path : Path
  /-- The bytes of the file. -/
  file : Bytes
  manifest : Manifest
  /-- Offset of the first entry frame. -/
  payloadStart : Nat
  /-- Offset of the trailer. -/
  payloadEnd : Nat
  storedCrc : UInt32

/-- Join `name` under `dir`, refusing anything that could escape it. -/
def safeJoin (dir : Path) (name : String) : Except RuntimeError Path :=
  if name.toList.head? = some '/' then
    .error (.snapshot s!"absolute entry name {name}")
  else if (components name).any fun c => !c.isNormal then
    .error (.snapshot s!"entry name {name} escapes the snapshot root")
  else
    .ok (resolve dir name)

namespace SnapshotReader

/-- What `open` makes of the bytes of a file that is shown as `shown`. -/
def openBytes (codec : Codec Manifest) (path : Path) (shown : String) (file : Bytes) :
    Except RuntimeError SnapshotReader :=
  let total := file.length
  if total < magic.length + 4 + trailer.length + 4 then
    .error (.snapshot s!"{shown}: too small to be a snapshot ({total} bytes)")
  else
    let m := file.take 8
    if m.take 6 ≠ utf8 "MCSNAP" then
      .error (.snapshot s!"{shown}: not a mincontainer snapshot (bad magic)")
    else if m ≠ magic then
      .error (.snapshot
        s!"{shown}: snapshot format v{m.getD 7 0}, this build reads v{formatVersion}")
    else
      let mlen := ofLE ((file.drop 8).take 4)
      if mlen > maxManifest ∨ mlen > total then
        .error (.snapshot
          s!"implausible manifest length {mlen} (file is {total} bytes) — snapshot is corrupt")
      else if total < 12 + mlen then
        .error (.snapshot "read manifest: failed to fill whole buffer")
      else
        match codec.decode ((file.drop 12).take mlen) with
        | .error e =>
          .error (.snapshot s!"manifest is not valid JSON — snapshot is corrupt: {e}")
        | .ok manifest =>
          let payloadStart := magic.length + 4 + mlen
          let payloadEnd := total - (trailer.length + 4)
          if payloadEnd < payloadStart then
            .error (.snapshot "truncated snapshot: payload ends before it begins")
          else if (file.drop payloadEnd).take 8 ≠ trailer then
            .error (.snapshot "missing trailer — snapshot is truncated or corrupt")
          else
            .ok ⟨path, file, manifest, payloadStart, payloadEnd,
              UInt32.ofNat (ofLE ((file.drop (payloadEnd + 8)).take 4))⟩

def «open» (codec : Codec Manifest) (path : Path) : HostM SnapshotReader := do
  let content ← orErr (← sys (.readFile path)) fun e => .snapshot s!"open {display path}: {e}"
  ofExcept (openBytes codec path (display path) content.raw)

/-- Whole-file integrity check. -/
def verify (r : SnapshotReader) : HostM Unit := do
  let remaining := r.payloadEnd + trailer.length
  let read ← sys (.readSpan r.path (r.file.take remaining))
  match (read : ReadLoop) with
  | (_, some e) => throw (.snapshot s!"read: {e}")
  | (chunks, none) =>
    if chunks.flatten.length < remaining then
      throw (.snapshot "truncated snapshot")
    else
      let got := (chunks.foldl Crc32.update Crc32.new).finish
      if got ≠ r.storedCrc then
        throw (.snapshot
          s!"checksum mismatch: file says {hex8 r.storedCrc}, computed {hex8 got} — snapshot is corrupt")
      else
        pure ()

/-- The name and the length of the entry that begins `rest`, and what follows its header. -/
def readEntryHeader (rest : Bytes) : Except RuntimeError (String × Nat × Bytes) :=
  if rest.length < 4 then
    .error (.snapshot "read entry name length: failed to fill whole buffer")
  else
    let nlen := ofLE (rest.take 4)
    let rest := rest.drop 4
    if nlen = 0 ∨ nlen > 4096 then
      .error (.snapshot s!"implausible entry name length {nlen} — snapshot is corrupt")
    else if rest.length < nlen then
      .error (.snapshot "read entry name: failed to fill whole buffer")
    else
      match String.fromUTF8? ⟨(rest.take nlen).toArray⟩ with
      | none => .error (.snapshot "entry name is not UTF-8")
      | some name =>
        let rest := rest.drop nlen
        if rest.length < 8 then
          .error (.snapshot "read entry length: failed to fill whole buffer")
        else
          .ok (name, ofLE (rest.take 8), rest.drop 8)

/-- A file can be created under a name that does not end in a slash or a dot. -/
def creatable (name : String) : Bool :=
  match (splitSlash name).getLast? with
  | some piece => piece ≠ "" && piece ≠ "."
  | none => false

/-- The longest name of a file, in bytes. -/
def nameMax : Nat := 255

/-- The longest path that a call takes, in bytes, with the zero at its end. -/
def pathMax : Nat := 4096

/-- The kernel takes the path of an entry below the directory: it has no zero in it, and neither a
name nor the whole of it is too long. -/
def Fits (dir : Path) (name : String) : Prop :=
  (∀ n ∈ names (components name), '\x00' ∉ n.toList ∧ n.utf8ByteSize ≤ nameMax) ∧
    (display dir).utf8ByteSize + 1 + name.utf8ByteSize < pathMax

instance (dir : Path) (name : String) : Decidable (Fits dir name) :=
  inferInstanceAs (Decidable (_ ∧ _))

/-- What creating a file says when it is refused for its name. -/
def refusal (dir : Path) (name : String) : String :=
  if (names (components name)).any fun n => '\x00' ∈ n.toList then
    "file name contained an unexpected NUL byte"
  else if Fits dir name then "Is a directory (os error 21)"
  else "File name too long (os error 36)"

/-- Create the file of an entry, and the directories above it. -/
def createEntry (dir : Path) (name : String) (dest : Path) : HostM Unit := do
  mkdirAll dest.dropLast fun e => .snapshot s!"mkdir {display dest.dropLast}: {e}"
  -- a directory that the kernel does not take is refused above already, with the same reason
  if Fits dir name ∧ creatable name then
    createFile dest fun e => .snapshot s!"create {display dest}: {e}"
  else
    throw (.snapshot s!"create {display dest}: {refusal dir name}")

/-- Copy the data of an entry, the first `len` bytes of `rest`, into its file. -/
def copyEntry (r : SnapshotReader) (name : String) (len : Nat) (crc32 : UInt32) (dest : Path)
    (rest : Bytes) : HostM Unit := do
  let read ← sys (.readSpan r.path (rest.take len))
  copyChunks dest (fun e => .snapshot s!"write {display dest}: {e}") (read : ReadLoop).1
  match (read : ReadLoop) with
  | (_, some e) => throw (.snapshot s!"read {name}: {e}")
  | (chunks, none) =>
    if chunks.flatten.length < len then
      throw (.snapshot s!"truncated entry {name}")
    else
      let got := (chunks.foldl Crc32.update Crc32.new).finish
      if got ≠ crc32 then
        throw (.snapshot
          s!"entry {name}: checksum mismatch ({hex8 got} != {hex8 crc32}) — snapshot is corrupt")
      else
        pure ()

/-- Unpack the entry that begins `rest`; the result is what follows it. -/
def extractEntry (r : SnapshotReader) (dir : Path) (expected : EntryMeta) (rest : Bytes) :
    HostM Bytes := do
  -- the header arrives in a buffer of its own
  let buffered ← sys (.readSpan r.path (rest.take 4108))
  match (buffered : ReadLoop).2 with
  | some e => throw (.snapshot e)
  | none =>
    let header ← ofExcept (readEntryHeader rest)
    let name := header.1
    let len := header.2.1
    let rest := header.2.2
    if name ≠ expected.name ∨ len ≠ expected.len then
      throw (.snapshot (s!"manifest/payload disagree: expected {expected.name} " ++
        s!"({expected.len} bytes), found {name} ({len} bytes)"))
    else
      let dest ← ofExcept (safeJoin dir name)
      createEntry dir name dest
      copyEntry r name len expected.crc32 dest rest
      pure (rest.drop len)

/-- Unpack the expected entries, one after the other. -/
def extractEntries (r : SnapshotReader) (dir : Path) : List EntryMeta → Bytes → HostM Unit
  | [], _ => pure ()
  | expected :: es, rest => do
    let rest ← extractEntry r dir expected rest
    extractEntries r dir es rest

/-- Unpack every entry beneath `dir`, checking each entry's checksum as it lands. -/
def extractAll (r : SnapshotReader) (dir : Path) : HostM Unit := do
  mkdirAll dir fun e => .snapshot s!"mkdir {display dir}: {e}"
  extractEntries r dir r.manifest.entries (r.file.drop r.payloadStart)

end SnapshotReader

end Mincontainer
