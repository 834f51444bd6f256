/-!
# Bytes

A buffer is a list of bytes. A text stands in a buffer as its UTF-8 encoding.

## Main definitions

* `Bytes.ofText`, `Bytes.toText?` — a text as bytes, and bytes as the text that they encode.
* `Bytes.hex` — two lowercase hexadecimal digits for each byte.

## Main results

* `Bytes.toText?_ofText` — the text whose bytes are given is found again.
-/

set_option autoImplicit false

namespace CopyTrial

/-- The content of a buffer or of a file. -/
abbrev Bytes := List UInt8

namespace Bytes

/-- The UTF-8 encoding of a text. -/
def ofText (s : String) : Bytes := s.toUTF8.data.toList

/-- The text that bytes encode, if they are valid UTF-8. -/
def toText? (bytes : Bytes) : Option String := String.fromUTF8? ⟨bytes.toArray⟩

/-- Two lowercase hexadecimal digits. -/
def byteHex (b : UInt8) : List Char :=
  [Nat.digitChar (b.toNat / 16), Nat.digitChar (b.toNat % 16)]

/-- Two lowercase hexadecimal digits for each byte. -/
def hex (bytes : Bytes) : String := String.ofList (bytes.flatMap byteHex)

/-- The bytes of a text are those of its characters. -/
theorem ofText_eq_flatMap (s : String) : ofText s = s.toList.flatMap String.utf8EncodeChar := by
  obtain ⟨cs, rfl⟩ : ∃ cs, s = String.ofList cs := ⟨s.toList, s.ofList_toList.symm⟩
  simp [ofText, List.utf8Encode]

/-- The bytes of two texts in a row are those of each. -/
@[simp] theorem ofText_append (s t : String) : ofText (s ++ t) = ofText s ++ ofText t := by
  simp [ofText, String.toByteArray_append]

/-- The text whose bytes are given is found again. -/
@[simp] theorem toText?_ofText (s : String) : toText? (ofText s) = some s := by
  have hbytes : (⟨(ofText s).toArray⟩ : ByteArray) = s.toByteArray := by
    simp [ofText]
  rw [toText?, hbytes, String.fromUTF8?, dif_pos s.isValidUTF8]
  rfl

/-- Different texts have different bytes. -/
theorem ofText_injective {s t : String} (h : ofText s = ofText t) : s = t := by
  have htext := congrArg toText? h
  rw [toText?_ofText, toText?_ofText] at htext
  exact Option.some.inj htext

end Bytes

end CopyTrial
