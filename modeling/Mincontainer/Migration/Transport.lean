import Mincontainer.Engine.Restore
import Mincontainer.Migration.Frames

set_option relaxedAutoImplicit false
set_option autoImplicit false

/-!
# Moving a snapshot to another node

The sender and the receiver of `transport.rs`. The sender announces the snapshot, streams it in
chunks, and waits for the receiver's answer; the receiver writes the chunks into its inbox, and
adopts and restores the container when the checksum clears.

The buffered writers write through: what a flush adds is one more chance to fail. Timings are left
out.

## Main definitions

* `Mincontainer.Transport.sendSnapshot` — the sender.
* `Mincontainer.Transport.handleOne` — the receiver, for one connection.
-/

namespace Mincontainer

open Effects Files Bytes

namespace Transport

/-! ### The sender -/

/-- What a transfer brought back. -/
structure Transfer where
  result : MigrateResult
  bytes : Nat
deriving DecidableEq, Repr

/-- Look up a target; the port has a default. -/
def resolveTarget (target : String) : HostM String := do
  let withPort := if target.toList.contains ':' then target else s!"{target}:{defaultPort}"
  match ← sys (.resolveAddr withPort) with
  | .error e => throw (.migration s!"resolve {target}: {e}")
  | .ok false => throw (.migration s!"{target} resolved to no addresses")
  | .ok true => pure withPort

/-- Read a file to its end. -/
def readWhole (path : PathBuf) (openErr readErr : String → RuntimeError) : HostM (List Bytes) := do
  let _ ← orErr (← sys (.openFile path.path)) openErr
  match ← sys (.readAll path.path) with
  | (_, some e) => throw (readErr e)
  | (chunks, none) => pure chunks

def crcOfFile (path : PathBuf) : HostM UInt32 := do
  let chunks ← readWhole path (fun e => .migration s!"open {path.text}: {e}")
    fun e => .migration s!"read {path.text}: {e}"
  pure (chunks.foldl Crc32.update Crc32.new).finish

/-- Cut bytes into pieces of at most `n`. -/
def cut (n : Nat) : Nat → Bytes → List Bytes
  | 0, _ => []
  | k + 1, b => if b = [] then [] else b.take n :: cut n k (b.drop n)

/-- The pieces in which reads into the chunk buffer return the bytes. -/
def pieces (chunks : List Bytes) : List Bytes := chunks.flatMap fun b => cut chunkSize b.length b

/-- Announce the snapshot. -/
def sayHello (env : Env) (proto : Protocol) (id token : String) (fileLen : Nat) (crc : UInt32) :
    HostM Unit := do
  let here : String ← sys .hostname
  let hello : Hello := {
    protoVersion := protoVersion
    producer := "mincontainer/0.1.0"
    containerId := id
    sourceHost := here
    sourceArch := env.arch
    snapshotBytes := fileLen
    snapshotCrc32 := crc
    token := token }
  writeJson .hello proto.hello hello
  flush "flush hello"

/-- The receiver takes the snapshot. -/
def awaitAck (env : Env) (proto : Protocol) (target : String) : HostM Unit := do
  let ack ← readJson proto .helloAck proto.helloAck
  if !ack.accept then
    throw (.migration s!"{target} refused the migration: {ack.reason}")
  else if ack.receiverArch ≠ env.arch then
    throw (.migration (s!"{target} is {ack.receiverArch} but this host is {env.arch} — " ++
      "process images cannot cross architectures"))
  else
    pure ()

/-- Send the chunks, one frame each. -/
def sendChunks : List Bytes → HostM Unit
  | [] => pure ()
  | b :: bs => do
    writeFrame .chunk b
    sendChunks bs

/-- Stream the snapshot. -/
def stream (proto : Protocol) (snapshot : PathBuf) (fileLen : Nat) (crc : UInt32) :
    HostM Unit := do
  let _ ← orErr (← sys (.openFile snapshot.path)) fun e => .migration s!"open {snapshot.text}: {e}"
  let read ← sys (.readAll snapshot.path)
  sendChunks (pieces (read : ReadLoop).1)
  match (read : ReadLoop) with
  | (_, some e) => throw (.migration s!"read snapshot: {e}")
  | (chunks, none) =>
    let sent := chunks.flatten.length
    if sent ≠ fileLen then
      throw (.migration
        s!"snapshot changed size mid-transfer ({sent} sent, {fileLen} expected)")
    else do
      writeJson .eof proto.eof ⟨sent, crc⟩
      flush "flush"

/-- Wait for the receiver to restore the container. -/
def awaitResult (proto : Protocol) (target : String) : HostM MigrateResult := do
  let result ← readJson proto .result proto.result
  if !result.ok then
    throw (.migration s!"{target} failed to restore the container: {result.message}")
  else
    pure result

/-- Ship an existing snapshot to `target` and have it restored there. -/
def sendSnapshot (env : Env) (proto : Protocol) (id : String) (snapshot : PathBuf)
    (target token : String) : HostM Transfer := do
  let addr ← resolveTarget target
  let fileLen ← orErr (← sys (.openFile snapshot.path)) fun e =>
    .migration s!"stat {snapshot.text}: {e}"
  let crc ← crcOfFile snapshot
  let _ ← orErr (← sys (.connect addr)) fun e => .migration s!"connect to {target}: {e}"
  sayHello env proto id token fileLen crc
  awaitAck env proto target
  stream proto snapshot fileLen crc
  let result ← awaitResult proto target
  pure ⟨result, fileLen⟩

/-! ### The receiver -/

/-- Where incoming snapshots are staged before being adopted. -/
def inbox (env : Env) : Path := env.home ++ [".mincontainer", "inbox"]

/-- A path in the inbox, as `join` makes it: an absolute name replaces it. -/
def inboxFile (env : Env) (name : String) : PathBuf :=
  if name.toList.head? = some '/' then ⟨name, []⟩ else ⟨display (inbox env) ++ "/" ++ name, []⟩

/-- Answer the hello. -/
def answerHello (env : Env) (proto : Protocol) (accept : Bool) (reason : String) : HostM Unit := do
  let here : String ← sys .hostname
  writeJson .helloAck proto.helloAck ⟨protoVersion, accept, here, env.arch, reason⟩

/-- Refuse a transfer. -/
def refuse {α : Type} (env : Env) (proto : Protocol) (reason : String) : HostM α := do
  answerHello env proto false reason
  let _ ← sys .flush
  throw (.migration reason)

/-- The handshake. -/
def greet (env : Env) (proto : Protocol) (token : String) : HostM Hello := do
  let hello ← readJson proto .hello proto.hello
  if hello.protoVersion ≠ protoVersion then
    refuse env proto (s!"protocol version {hello.protoVersion} not supported " ++
      s!"(this node speaks {protoVersion})")
  else if hello.token ≠ token then
    refuse env proto "authentication token mismatch"
  else if hello.sourceArch ≠ env.arch then
    refuse env proto s!"snapshot is {hello.sourceArch} but this host is {env.arch}"
  else do
    answerHello env proto true ""
    flush "flush ack"
    pure hello

/-- The end of the snapshot has come: compare what arrived with what was announced. -/
def checkEof (proto : Protocol) (part : PathBuf) (hello : Hello) (received : Nat) (crc : Crc32)
    (len : Nat) : HostM Unit := do
  let body ← readPayload len
  let eof ← (match proto.eof.decode body with
    | .ok eof => pure eof
    | .error e => throw (.json e) : HostM Eof)
  appendTo part.path [] fun e => .migration s!"flush {part.text}: {e}"
  let got := crc.finish
  if eof.bytes ≠ received ∨ eof.crc32 ≠ got ∨ got ≠ hello.snapshotCrc32 then do
    sys (.removeFile part.path)
    let msg := s!"transfer corrupted: {received} bytes crc {hex8 got}, sender said " ++
      s!"{eof.bytes} bytes crc {hex8 eof.crc32}"
    writeJson .error proto.errorMsg ⟨msg⟩
    let _ ← sys .flush
    throw (.migration msg)
  else
    pure ()

/-- Receive the snapshot into the file `part`, a frame a round. -/
def receive (proto : Protocol) (part : PathBuf) (hello : Hello) : Nat → Nat → Crc32 → HostM Unit
  | 0, _, _ => do
    let r ← sys .spin
    nomatch (r : Empty)
  | fuel + 1, received, crc => do
    let (t, len) ← readHeader
    match t with
    | .chunk =>
      let body ← readPayload len
      appendTo part.path body fun e => .migration s!"write {part.text}: {e}"
      if received + body.length > hello.snapshotBytes then do
        sys (.removeFile part.path)
        throw (.migration s!"sender exceeded the {hello.snapshotBytes} bytes it announced")
      else
        receive proto part hello fuel (received + body.length) (crc.update body)
    | .eof => checkEof proto part hello received crc len
    | other => do
      sys (.removeFile part.path)
      throw (.migration s!"protocol error: expected CHUNK or EOF, got {other.debug}")

/-- Receive the snapshot; it keeps the name of a partial file until its checksum clears. -/
def receiveFile (env : Env) (proto : Protocol) (fuel : Nat) (hello : Hello) : HostM PathBuf := do
  let dir := inbox env
  mkdirAll dir fun e => .migration s!"mkdir inbox: {e}"
  let part := inboxFile env (hello.containerId ++ ".mcsnap.part")
  let final := inboxFile env (hello.containerId ++ ".mcsnap")
  createFile part.path fun e => .migration s!"create {part.text}: {e}"
  receive proto part hello fuel 0 Crc32.new
  orErr (← sys (.rename part.path final.path)) fun e => .migration s!"commit snapshot: {e}"
  pure final

/-- Adopt the snapshot that arrived, and restore its container. -/
def adoptAndRestore (env : Env) (codec : Codec Manifest) (final : PathBuf) (index : UInt8) :
    HostM Restore.Report := do
  let (id, _) ← Restore.adoptSnapshot env codec final
  Restore.restore env codec id ⟨some final.text, index, false⟩

/-- Tell the sender how it ended. -/
def answer (proto : Protocol) (hello : Hello) : Except RuntimeError Restore.Report → HostM String
  | .ok rep => do
    let here : String ← sys .hostname
    writeJson .result proto.result
      ⟨true, rep.id, rep.pid, rep.generation, rep.containerIp, s!"restored on {here}"⟩
    let _ ← sys .flush
    pure rep.id
  | .error e => do
    writeJson .result proto.result ⟨false, hello.containerId, 0, 0, none, e.display⟩
    let _ ← sys .flush
    throw e

/-- Serve one migration. -/
def handleOne (env : Env) (codec : Codec Manifest) (proto : Protocol) (fuel : Nat) (token : String)
    (index : UInt8) : HostM String := do
  let hello ← greet env proto token
  let final ← receiveFile env proto fuel hello
  let outcome ← (Fallible.attempt (adoptAndRestore env codec final index) :
    HostM (Except RuntimeError Restore.Report))
  answer proto hello outcome

end Transport

end Mincontainer
