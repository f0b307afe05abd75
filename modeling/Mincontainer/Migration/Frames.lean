import Mincontainer.Bytes.Codec
import Mincontainer.Bytes.Endian
import Mincontainer.Host.Calls

set_option relaxedAutoImplicit false
set_option autoImplicit false

/-!
# Frames and messages of a migration

The framing of `transport.rs`: a type byte, a length of four bytes, most significant first, and a
payload. Control frames carry JSON messages, chunks carry the bytes of the snapshot.

Writing a frame is three writes into the socket; reading one reads its header and then its payload.

## Main definitions

* `Mincontainer.FrameType` — the types of frames.
* `Mincontainer.Protocol` — the serialiser of each message.
* `Mincontainer.writeFrame`, `Mincontainer.readHeader`, `Mincontainer.readPayload`,
  `Mincontainer.readJson` — one frame.
* `Mincontainer.frame` — the bytes of a frame.

## Main results

* `Mincontainer.parseHeader_frame` — the header of a frame tells its type and its length.
-/

namespace Mincontainer

open Effects Files Bytes

/-! ### Types -/

inductive FrameType where
  | hello
  | helloAck
  | chunk
  | eof
  | result
  | error
deriving DecidableEq, Repr

namespace FrameType

def toU8 : FrameType → UInt8
  | .hello => 0x01
  | .helloAck => 0x02
  | .chunk => 0x03
  | .eof => 0x04
  | .result => 0x05
  | .error => 0x06

def fromU8 (b : UInt8) : Option FrameType :=
  if b = 0x01 then some .hello
  else if b = 0x02 then some .helloAck
  else if b = 0x03 then some .chunk
  else if b = 0x04 then some .eof
  else if b = 0x05 then some .result
  else if b = 0x06 then some .error
  else none

/-- The form a type has in messages. -/
def debug : FrameType → String
  | .hello => "Hello"
  | .helloAck => "HelloAck"
  | .chunk => "Chunk"
  | .eof => "Eof"
  | .result => "Result"
  | .error => "Error"

@[simp] lemma fromU8_toU8 (t : FrameType) : fromU8 t.toU8 = some t := by
  cases t <;> rfl

end FrameType

def protoVersion : Nat := 1

def defaultPort : Nat := 7373

/-- Payload chunk size. -/
def chunkSize : Nat := 256 * 1024

/-- Cap on a control frame. -/
def maxControlFrame : Nat := 4 * 1024 * 1024

def maxChunkFrame : Nat := 4 * 1024 * 1024

/-- The longest payload of a frame. -/
def FrameType.cap (t : FrameType) : Nat := if t = .chunk then maxChunkFrame else maxControlFrame

/-! ### Messages -/

structure Hello where
  protoVersion : Nat
  producer : String
  containerId : String
  sourceHost : String
  sourceArch : String
  snapshotBytes : Nat
  /-- CRC32 of the snapshot file, so that the receiver can reject a mangled transfer. -/
  snapshotCrc32 : UInt32
  token : String
deriving DecidableEq, Repr

structure HelloAck where
  protoVersion : Nat
  accept : Bool
  receiverHost : String
  receiverArch : String
  reason : String
deriving DecidableEq, Repr

structure Eof where
  bytes : Nat
  crc32 : UInt32
deriving DecidableEq, Repr

/-- The receiver's answer; its timings are left out. -/
structure MigrateResult where
  ok : Bool
  containerId : String
  pid : Int
  generation : UInt32
  containerIp : Option String
  message : String
deriving DecidableEq, Repr

structure ErrorMsg where
  message : String
deriving DecidableEq, Repr

/-- The serialiser of each message. -/
structure Protocol where
  hello : Codec Hello
  helloAck : Codec HelloAck
  eof : Codec Eof
  result : Codec MigrateResult
  errorMsg : Codec ErrorMsg

/-! ### Writing -/

/-- Write bytes into the socket. -/
def writeAll (data : Bytes) : HostM Unit := do
  match ← sys (.send data) with
  | .ok _ => pure ()
  | .error (_, e) => throw (.migration s!"write frame: {e}")

def writeFrame (t : FrameType) (payload : Bytes) : HostM Unit :=
  if payload.length < 2 ^ 32 then do
    writeAll [t.toU8]
    writeAll (toBE 4 payload.length)
    writeAll payload
  else
    throw (.migration "frame payload exceeds 4 GiB")

def writeJson {α : Type} (t : FrameType) (c : Codec α) (v : α) : HostM Unit :=
  writeFrame t (c.encode v)

/-- Send what was written. -/
def flush (what : String) : HostM Unit := do
  orErr (← sys .flush) fun e => .migration s!"{what}: {e}"

/-! ### Reading -/

/-- A byte as `0x` and two hexadecimal digits. -/
def hex2 (b : UInt8) : String :=
  let digits := Nat.toDigits 16 b.toNat
  "0x" ++ String.ofList (List.replicate (2 - digits.length) '0' ++ digits)

/-- The type and the payload length in the five bytes of a header. -/
def parseHeader (hdr : Bytes) : Except RuntimeError (FrameType × Nat) :=
  match FrameType.fromU8 (hdr.headD 0) with
  | none => .error (.migration
      s!"unknown frame type {hex2 (hdr.headD 0)} — peer is not mincontainer")
  | some t =>
    let len := ofBE (hdr.drop 1)
    if len > t.cap then
      .error (.migration s!"frame of {len} bytes exceeds the {t.cap}-byte limit for {t.debug}")
    else
      .ok (t, len)

/-- Read one frame header. -/
def readHeader : HostM (FrameType × Nat) := do
  let hdr ← orErr (← sys (.recv 5)) fun e => .migration s!"read frame header: {e}"
  ofExcept (parseHeader hdr)

def readPayload (len : Nat) : HostM Bytes := do
  orErr (← sys (.recv len)) fun e => .migration s!"read frame payload: {e}"

/-- What a JSON frame of type `t` means to who expects `expect`. -/
def parseJson {α : Type} (proto : Protocol) (expect : FrameType) (c : Codec α) (t : FrameType)
    (body : Bytes) : Except RuntimeError α :=
  if t = .error then
    let message := match proto.errorMsg.decode body with
      | .ok e => e.message
      | .error _ => "peer sent an unreadable error"
    .error (.migration s!"peer refused: {message}")
  else if t ≠ expect then
    .error (.migration s!"protocol error: expected {expect.debug}, got {t.debug}")
  else
    match c.decode body with
    | .ok v => .ok v
    | .error e => .error (.json e)

def readJson {α : Type} (proto : Protocol) (expect : FrameType) (c : Codec α) : HostM α := do
  let (t, len) ← readHeader
  let body ← readPayload len
  ofExcept (parseJson proto expect c t body)

/-! ### The bytes of a frame -/

/-- The bytes of a frame. -/
def frame (t : FrameType) (payload : Bytes) : Bytes :=
  t.toU8 :: (toBE 4 payload.length ++ payload)

/-- The header of a frame that fits its limit tells its type and its length. -/
lemma parseHeader_frame {t : FrameType} {n : Nat} (h : n ≤ t.cap) :
    parseHeader (t.toU8 :: toBE 4 n) = .ok (t, n) := by
  have hcap : t.cap < 256 ^ 4 := by cases t <;> decide
  simp only [parseHeader, List.headD_cons, FrameType.fromU8_toU8, List.drop_succ_cons,
    List.drop_zero, ofBE_toBE_of_lt (lt_of_le_of_lt h hcap), gt_iff_lt, not_lt.mpr h, if_false]

example : frame .chunk [0x68, 0x69] = [3, 0, 0, 0, 2, 0x68, 0x69] := by decide

end Mincontainer
