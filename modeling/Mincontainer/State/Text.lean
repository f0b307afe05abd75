import Mincontainer.State.Record

set_option relaxedAutoImplicit false
set_option autoImplicit false

/-!
# Texts and their bytes

What is read as text is bytes that are valid UTF-8; text is written as its UTF-8 bytes. Bytes that
stand between two texts are read as text exactly when they are valid on their own.

## Main definitions

* `Mincontainer.utf8` — the bytes of a text.
* `Mincontainer.IsUtf8` — the bytes are those of some text.

## Main results

* `Mincontainer.fromUTF8?_utf8`, `Mincontainer.utf8_of_fromUTF8?` — reading inverts writing.
* `Mincontainer.isUtf8_between` — bytes between two texts.
-/

namespace Mincontainer

/-- The UTF-8 bytes of a text. -/
def utf8 (s : String) : Bytes := s.toUTF8.data.toList

/-- The bytes are those of some text. -/
def IsUtf8 (b : Bytes) : Prop := (⟨b.toArray⟩ : ByteArray).IsValidUTF8

instance : DecidablePred IsUtf8 := fun b =>
  inferInstanceAs (Decidable (⟨b.toArray⟩ : ByteArray).IsValidUTF8)

/-- The bytes of a text, as they are read. -/
lemma mk_utf8 (s : String) : (⟨(utf8 s).toArray⟩ : ByteArray) = s.toByteArray := by
  simp [utf8]

lemma fromUTF8?_utf8 (s : String) : String.fromUTF8? ⟨(utf8 s).toArray⟩ = some s := by
  rw [mk_utf8, String.fromUTF8?, dif_pos s.isValidUTF8]
  rfl

/-- Bytes that are read as UTF-8 are the UTF-8 bytes of the text. -/
lemma utf8_of_fromUTF8? {b : Bytes} {s : String} (h : String.fromUTF8? ⟨b.toArray⟩ = some s) :
    utf8 s = b := by
  rw [String.fromUTF8?] at h
  split at h
  · obtain rfl := Option.some.inj h
    exact List.toList_toArray
  · cases h

/-- Valid bytes are those of a text. -/
lemma exists_utf8 {b : Bytes} (h : IsUtf8 b) : ∃ s, utf8 s = b := by
  unfold IsUtf8 at h
  refine ⟨String.fromUTF8 _ h, utf8_of_fromUTF8? ?_⟩
  rw [String.fromUTF8?, dif_pos h]

/-- Bytes that are not valid are not read. -/
lemma fromUTF8?_of_not_isUtf8 {b : Bytes} (h : ¬ IsUtf8 b) :
    String.fromUTF8? ⟨b.toArray⟩ = none := by
  unfold IsUtf8 at h
  rw [String.fromUTF8?, dif_neg h]

lemma utf8_append (s t : String) : utf8 (s ++ t) = utf8 s ++ utf8 t := by
  simp [utf8]

/-- **Bytes before a text** are valid when they are so together with it.

**Proof sketch.** The text begins with a first byte, so that the place before it is a boundary
between characters. -/
lemma isValidUTF8_of_append {b : ByteArray} {t : String} (h : (b ++ t.toByteArray).IsValidUTF8) :
    b.IsValidUTF8 := by
  by_cases hempty : t.toByteArray.size = 0
  · have hnil : b ++ t.toByteArray = b := by
      rw [ByteArray.size_eq_zero_iff.mp hempty, ByteArray.append_empty]
    rwa [hnil] at h
  let s : String := ⟨b ++ t.toByteArray, h⟩
  have hvalid : (⟨b.size⟩ : String.Pos.Raw).IsValid s := by
    have hlt : (⟨b.size⟩ : String.Pos.Raw) < s.rawEndPos := by
      rw [String.Pos.Raw.lt_iff, String.byteIdx_rawEndPos, ← String.size_toByteArray]
      change b.size < (b ++ t.toByteArray).size
      rw [ByteArray.size_append]
      omega
    refine String.Pos.Raw.isValid_iff_isUTF8FirstByte.mpr (.inr ⟨hlt, ?_⟩)
    have hbyte : s.getUTF8Byte ⟨b.size⟩ hlt = t.toByteArray[0] := by
      change (b ++ t.toByteArray)[b.size] = _
      rw [ByteArray.getElem_append_right (by omega)]
      simp
    rw [hbyte]
    exact t.isValidUTF8.isUTF8FirstByte_getElem_zero _
  have hextract := hvalid.isValidUTF8_extract_zero
  rwa [show s.toByteArray = b ++ t.toByteArray from rfl, ByteArray.extract_append_eq_left rfl]
    at hextract

/-- **Bytes between two texts** are valid together with them exactly when they are so alone.

**Proof sketch.** The text before is taken off character by character, the one behind at its first
byte. -/
lemma isUtf8_between (s t : String) (b : Bytes) : IsUtf8 (utf8 s ++ b ++ utf8 t) ↔ IsUtf8 b := by
  have hbytes : (⟨(utf8 s ++ b ++ utf8 t).toArray⟩ : ByteArray) =
      s.toByteArray ++ (⟨b.toArray⟩ : ByteArray) ++ t.toByteArray := by
    rw [← mk_utf8 s, ← mk_utf8 t]
    ext1
    simp
  unfold IsUtf8
  rw [hbytes]
  constructor
  · intro h
    have hfront := isValidUTF8_of_append h
    rw [← String.utf8Encode_toList] at hfront
    generalize s.toList = l at hfront
    induction l with
    | nil => simpa using hfront
    | cons c l ih =>
      rw [List.utf8Encode_cons, ByteArray.append_assoc,
        ByteArray.isValidUTF8_utf8Encode_singleton_append_iff] at hfront
      exact ih hfront
  · intro h
    exact (s.isValidUTF8.append h).append t.isValidUTF8

end Mincontainer
