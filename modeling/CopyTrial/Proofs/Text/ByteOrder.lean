import Mathlib.Data.List.Basic
import Mathlib.Data.String.Basic
import CopyTrial.Bytes

/-!
# Texts in the order of their bytes

Texts are compared character by character. Their encodings are compared byte by byte, and this
comes to the same: the first byte in which two characters differ tells which one is greater, because
a character that needs more bytes starts with a greater one.

## Main results

* `Bytes.utf8EncodeChar_append_lt` — the encodings of two characters, whatever follows.
* `Bytes.ofText_lt_iff`, `Bytes.ofText_le_iff` — texts compare as their bytes.
-/

set_option autoImplicit false

namespace CopyTrial.Bytes

/-- A greater character has a greater encoding, whatever stands after the two. -/
theorem utf8EncodeChar_append_lt {c d : Char} (h : c.toNat < d.toNat) (bytes bytes' : Bytes) :
    String.utf8EncodeChar c ++ bytes < String.utf8EncodeChar d ++ bytes' := by
  have hd : d.toNat < 0x110000 := by
    rcases d.valid with hd | hd
    · exact hd.trans (by decide)
    · exact hd.2
  have hc : c.val.toNat = c.toNat := rfl
  have hd' : d.val.toNat = d.toNat := rfl
  simp only [String.utf8EncodeChar, hc, hd']
  generalize c.toNat = m at *
  generalize d.toNat = n at *
  -- one case for each pair of lengths; the digits of the two numbers in base 64 decide it
  split <;> split <;> (try split) <;> (try split) <;> (try split) <;> (try split) <;>
    (try omega) <;>
    simp (disch := omega) only [List.cons_append, List.nil_append, List.cons_lt_cons_iff,
      UInt8.lt_iff_toNat_lt, ← UInt8.toNat_inj, UInt8.toNat_ofNat', Nat.mod_eq_of_lt] <;>
    omega

/-- The encodings of characters compare as the characters.

**Proof sketch.** Induction on the first characters. Where both have a first one and these differ,
they decide; where they are the same, both encodings start with the same bytes. -/
theorem flatMap_utf8EncodeChar_lt {cs ds : List Char} (h : cs < ds) :
    cs.flatMap String.utf8EncodeChar < ds.flatMap String.utf8EncodeChar := by
  induction cs generalizing ds with
  | nil =>
    obtain _ | ⟨d, ds⟩ := ds
    · exact absurd h (List.not_lt_nil _)
    · obtain ⟨b, bytes, hb⟩ := List.exists_cons_of_ne_nil (String.utf8EncodeChar_ne_nil (c := d))
      rw [List.flatMap_cons, hb]
      exact List.nil_lt_cons ..
  | cons c cs ih =>
    obtain _ | ⟨d, ds⟩ := ds
    · exact absurd h (List.not_lt_nil _)
    · rw [List.flatMap_cons, List.flatMap_cons]
      rcases List.cons_lt_cons_iff.1 h with hlt | ⟨rfl, hlt⟩
      · exact utf8EncodeChar_append_lt hlt _ _
      · exact List.append_left_lt (ih hlt)

/-- **Texts compare as their bytes.** -/
theorem ofText_lt_iff (s t : String) : ofText s < ofText t ↔ s < t := by
  rw [ofText_eq_flatMap, ofText_eq_flatMap, String.lt_iff_toList_lt]
  refine ⟨fun h => ?_, flatMap_utf8EncodeChar_lt⟩
  rcases lt_trichotomy s.toList t.toList with hlt | heq | hgt
  · exact hlt
  · rw [heq] at h
    exact absurd h (List.lt_irrefl _)
  · exact absurd h (List.lt_asymm (flatMap_utf8EncodeChar_lt hgt))

/-- A text comes before another one, or is the same, if its bytes do. -/
theorem ofText_le_iff (s t : String) : ofText s ≤ ofText t ↔ s ≤ t := by
  rw [← List.not_lt, ← String.not_lt, ofText_lt_iff]

end CopyTrial.Bytes
