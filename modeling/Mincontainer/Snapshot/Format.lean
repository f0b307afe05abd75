import Mincontainer.Snapshot.Reader

set_option relaxedAutoImplicit false
set_option autoImplicit false

/-!
# The snapshot format

The bytes of a well-formed snapshot, as one expression: header, entry frames, trailer, checksum.
The writer produces them and the reader takes them apart again.

## Main definitions

* `Mincontainer.Snapshot.Entry` — one entry: its name and its data.
* `Mincontainer.Snapshot.image` — the bytes of the snapshot of a manifest and its entries.

## Main results

* `Mincontainer.Snapshot.openBytes_sealed` — opening a sealed snapshot finds its manifest, and a stored
  checksum that is the one of the bytes `verify` reads.
* `Mincontainer.Snapshot.readEntryHeader_frame` — a frame is read back as its name, the length of
  its data, and the data followed by the rest.
-/

namespace Mincontainer

open Effects Files Bytes

namespace Snapshot

/-! ### The layout of the bytes -/

/-- One entry of a snapshot. -/
structure Entry where
  name : String
  data : Bytes
deriving DecidableEq, Repr

/-- What the entry table says about an entry. -/
def Entry.meta (e : Entry) : EntryMeta := ⟨e.name, e.data.length, crc32 e.data⟩

/-- The header of a frame. -/
def frameHeader (name : String) (len : Nat) : Bytes :=
  toLE 4 (utf8 name).length ++ utf8 name ++ toLE 8 len

/-- The frame of an entry. -/
def frame (e : Entry) : Bytes := frameHeader e.name e.data.length ++ e.data

/-- The frames of all entries. -/
def payload (es : List Entry) : Bytes := (es.map frame).flatten

/-- Everything before the payload. -/
def header (json : Bytes) : Bytes := magic ++ toLE 4 json.length ++ json

/-- Everything the final checksum covers. -/
def body (json : Bytes) (es : List Entry) : Bytes := header json ++ payload es ++ trailer

/-- The bytes of a snapshot. -/
def image (json : Bytes) (es : List Entry) : Bytes :=
  body json es ++ toLE 4 (crc32 (body json es)).toNat

/-- The bytes of a file that is framed as a snapshot, whatever its payload is. -/
def sealedBytes (json payload : Bytes) : Bytes :=
  header json ++ payload ++ trailer ++ toLE 4 (crc32 (header json ++ payload ++ trailer)).toNat

@[simp] lemma payload_nil : payload [] = [] := rfl

/-- A snapshot is framed as one, around its frames. -/
lemma image_eq_sealedBytes (json : Bytes) (es : List Entry) :
    image json es = sealedBytes json (payload es) := rfl

@[simp] lemma payload_cons (e : Entry) (es : List Entry) :
    payload (e :: es) = frame e ++ payload es := rfl

lemma payload_append (es es' : List Entry) : payload (es ++ es') = payload es ++ payload es' := by
  simp [payload]

@[simp] lemma length_magic : magic.length = 8 := by decide

lemma magic_take : magic.take 6 = utf8 "MCSNAP" := by decide

@[simp] lemma length_trailer : trailer.length = 8 := by decide

@[simp] lemma length_header (json : Bytes) : (header json).length = 12 + json.length := by
  simp [header]; omega

@[simp] lemma length_body (json : Bytes) (es : List Entry) :
    (body json es).length = 12 + json.length + (payload es).length + 8 := by
  simp [body]; omega

@[simp] lemma length_image (json : Bytes) (es : List Entry) :
    (image json es).length = 12 + json.length + (payload es).length + 12 := by
  simp [image]

/-! ### Reading it back -/

@[simp] lemma length_sealedBytes (json payload : Bytes) :
    (sealedBytes json payload).length = 12 + json.length + payload.length + 12 := by
  simp [sealedBytes]
  omega

/-- **Opening framed bytes.** The reader finds the manifest, the payload between the header and the
trailer, and the checksum of everything before it.

**Proof sketch.** Each field is a `take` of a `drop` of a concatenation whose parts have known
lengths; the length field is not truncated because the manifest is not larger than allowed. -/
lemma openBytes_sealed (codec : Codec Manifest) (path : Path) (shown : String) (m : Manifest)
    (payload : Bytes) (hcodec : codec.RoundTrips m) (hmax : (codec.encode m).length ≤ maxManifest) :
    SnapshotReader.openBytes codec path shown (sealedBytes (codec.encode m) payload) =
      .ok ⟨path, sealedBytes (codec.encode m) payload, m, 12 + (codec.encode m).length,
        12 + (codec.encode m).length + payload.length,
        crc32 (header (codec.encode m) ++ payload ++ trailer)⟩ := by
  set json := codec.encode m with hjson
  have hm : (sealedBytes json payload).take 8 = magic := by
    simp only [sealedBytes, header, List.append_assoc]
    exact List.take_left' length_magic
  have hmlen : ofLE (((sealedBytes json payload).drop 8).take 4) = json.length := by
    have hbytes : ((sealedBytes json payload).drop 8).take 4 = toLE 4 json.length := by
      simp only [sealedBytes, header, List.append_assoc]
      rw [List.drop_left' length_magic]
      exact List.take_left' (length_toLE _ _)
    rw [hbytes, ofLE_toLE_of_lt]
    exact lt_of_le_of_lt hmax (by decide)
  have hmanifest : ((sealedBytes json payload).drop 12).take json.length = json := by
    have hhead : (magic ++ toLE 4 json.length).length = 12 := by simp
    simp only [sealedBytes, header]
    rw [List.append_assoc, List.append_assoc, List.append_assoc, List.drop_left' hhead]
    exact List.take_left' rfl
  have hend : 12 + json.length + payload.length + 12 - (8 + 4) =
      12 + json.length + payload.length := by
    omega
  have hbefore : (header json ++ payload).length = 12 + json.length + payload.length := by
    simp
  have htrailer : ((sealedBytes json payload).drop (12 + json.length + payload.length)).take 8 =
      trailer := by
    simp only [sealedBytes]
    rw [List.append_assoc, List.drop_left' hbefore]
    exact List.take_left' length_trailer
  have hcrc : ((sealedBytes json payload).drop (12 + json.length + payload.length + 8)).take 4 =
      toLE 4 (crc32 (header json ++ payload ++ trailer)).toNat := by
    have hbody : (header json ++ payload ++ trailer).length = 12 + json.length + payload.length + 8 := by
      simp
      omega
    rw [sealedBytes, List.drop_left' hbody, List.take_of_length_le (by simp)]
  have hstored : UInt32.ofNat (ofLE (toLE 4 (crc32 (header json ++ payload ++ trailer)).toNat)) =
      crc32 (header json ++ payload ++ trailer) := by
    rw [ofLE_toLE_of_lt (UInt32.toNat_lt _)]
    exact UInt32.ofNat_toNat
  simp only [SnapshotReader.openBytes, hm, hmlen, hmanifest, magic_take, length_sealedBytes, length_magic,
    length_trailer, hend, htrailer, hcrc, hstored]
  rw [if_neg (by omega), if_neg (by simp), if_neg (by simp), if_neg (by omega), if_neg (by omega)]
  have hdecode : codec.decode json = .ok m := hcodec
  simp only [hdecode]
  rw [if_neg (by omega), if_neg (by simp)]

/-- The payload of framed bytes, with the trailer and the checksum behind it. -/
lemma drop_sealedBytes (json payload : Bytes) :
    (sealedBytes json payload).drop (12 + json.length) =
      payload ++ (trailer ++ toLE 4 (crc32 (header json ++ payload ++ trailer)).toNat) := by
  have hhead : (header json).length = 12 + json.length := by simp
  rw [sealedBytes]
  generalize toLE 4 (crc32 (header json ++ payload ++ trailer)).toNat = crc
  rw [List.append_assoc, List.append_assoc, List.drop_left' hhead]

/-- The payload of an image. -/
lemma drop_image (json : Bytes) (es : List Entry) :
    (image json es).drop (12 + json.length) =
      payload es ++ (trailer ++ toLE 4 (crc32 (body json es)).toNat) :=
  drop_sealedBytes json (payload es)

/-- **Reading a frame.** Its header is read back as the name and the length of the data. -/
lemma readEntryHeader_frame (e : Entry) (rest : Bytes) (hpos : 0 < (utf8 e.name).length)
    (hname : (utf8 e.name).length ≤ 4096) (hlen : e.data.length < 2 ^ 64) :
    SnapshotReader.readEntryHeader (frame e ++ rest) =
      .ok (e.name, e.data.length, e.data ++ rest) := by
  have hlong : 4 ≤ (frame e ++ rest).length := by simp [frame, frameHeader]
  have hnlen : ofLE ((frame e ++ rest).take 4) = (utf8 e.name).length := by
    have hbytes : (frame e ++ rest).take 4 = toLE 4 (utf8 e.name).length := by
      simp only [frame, frameHeader, List.append_assoc]
      exact List.take_left' (length_toLE _ _)
    rw [hbytes, ofLE_toLE_of_lt (by omega)]
  have hrest : (frame e ++ rest).drop 4 =
      utf8 e.name ++ (toLE 8 e.data.length ++ (e.data ++ rest)) := by
    simp only [frame, frameHeader, List.append_assoc]
    exact List.drop_left' (length_toLE _ _)
  have htake : (utf8 e.name ++ (toLE 8 e.data.length ++ (e.data ++ rest))).take
      (utf8 e.name).length = utf8 e.name := List.take_left' rfl
  have hdrop : (utf8 e.name ++ (toLE 8 e.data.length ++ (e.data ++ rest))).drop
      (utf8 e.name).length = toLE 8 e.data.length ++ (e.data ++ rest) := List.drop_left' rfl
  have hdlen : ofLE ((toLE 8 e.data.length ++ (e.data ++ rest)).take 8) = e.data.length := by
    rw [List.take_left' (length_toLE _ _), ofLE_toLE_of_lt (by simpa using hlen)]
  have hdata : (toLE 8 e.data.length ++ (e.data ++ rest)).drop 8 = e.data ++ rest :=
    List.drop_left' (length_toLE _ _)
  simp only [SnapshotReader.readEntryHeader, hnlen, hrest, htake, hdrop, hdlen, hdata,
    fromUTF8?_utf8]
  rw [if_neg (by omega), if_neg (by omega), if_neg (by simp), if_neg (by simp)]

end Snapshot

end Mincontainer
