import CopyTrial.Proofs.Numeral.Spelling
import CopyTrial.Sha256

/-!
# Digests in hexadecimal

A digest has 32 bytes whatever the message, and it is written with two digits for each of them. The
digits spell the number that the bytes stand for, so nothing of a digest is lost.

## Main definitions

* `Bytes.IsHexOf` — a text is the hexadecimal form of bytes, in small letters.

## Main results

* `Bytes.isHexOf_hex` — the text that is written for bytes is their hexadecimal form.
* `Sha256.length_digest` — the length of a digest.
-/

set_option autoImplicit false

namespace CopyTrial

namespace Bytes

/-- The number that bytes stand for, the most significant one first. -/
def worth (bytes : Bytes) : Nat := Nat.ofDigits 256 (bytes.map UInt8.toNat).reverse

/-- A text is the hexadecimal form of bytes: it has two digits for each byte, letters are small, and
the digits spell the number that the bytes stand for. -/
structure IsHexOf (text : String) (bytes : Bytes) : Prop where
  length_eq : text.length = 2 * bytes.length
  digits : ∀ c ∈ text.toList, ∃ d < 16, c = Nat.digitChar d
  spells : Numeral.Spells 16 text.toList bytes.worth

/-- The values of the two hexadecimal digits of a byte. -/
def halves (b : UInt8) : List Nat := [b.toNat / 16, b.toNat % 16]

/-- There are two digits for each byte. -/
theorem length_flatMap_halves (bytes : Bytes) :
    (bytes.flatMap halves).length = 2 * bytes.length := by
  induction bytes with
  | nil => rfl
  | cons b bytes ih =>
    simp only [List.flatMap_cons, List.length_append, List.length_cons, ih, halves, List.length_nil]
    omega

/-- The digits of bytes, in base 16, stand for the number that the bytes stand for. -/
theorem ofDigits_flatMap_halves (bytes : Bytes) :
    Nat.ofDigits 16 (bytes.flatMap halves).reverse = bytes.worth := by
  induction bytes with
  | nil => rfl
  | cons b bytes ih =>
    have hsquare : (256 : Nat) ^ bytes.length = 16 ^ (2 * bytes.length) := by
      rw [pow_mul]
      rfl
    have hbyte : 16 * (b.toNat / 16) + b.toNat % 16 = b.toNat := Nat.div_add_mod _ _
    rw [worth] at ih ⊢
    rw [List.flatMap_cons, List.map_cons, Nat.ofDigits_reverse_cons, List.length_map, hsquare, ← ih]
    show Nat.ofDigits 16 (b.toNat / 16 :: b.toNat % 16 :: bytes.flatMap halves).reverse = _
    rw [Nat.ofDigits_reverse_cons, Nat.ofDigits_reverse_cons, List.length_cons,
      length_flatMap_halves]
    calc _ = Nat.ofDigits 16 (bytes.flatMap halves).reverse +
          16 ^ (2 * bytes.length) * (16 * (b.toNat / 16) + b.toNat % 16) := by ring
      _ = _ := by rw [hbyte]

/-- What is written for bytes are the characters of their digits. -/
theorem toList_hex (bytes : Bytes) :
    (hex bytes).toList = (bytes.flatMap halves).map Nat.digitChar := by
  rw [hex, String.toList_ofList, List.map_flatMap]
  rfl

/-- The digits of bytes are below sixteen. -/
theorem lt_of_mem_halves {bytes : Bytes} : ∀ d ∈ bytes.flatMap halves, d < 16 := by
  intro d hd
  obtain ⟨b, -, hb⟩ := List.mem_flatMap.1 hd
  have hlt := b.toNat_lt
  simp only [halves, List.mem_cons, List.not_mem_nil, or_false] at hb
  omega

/-- **What is written for bytes is their hexadecimal form.** -/
theorem isHexOf_hex (bytes : Bytes) : IsHexOf (hex bytes) bytes where
  length_eq := by rw [← String.length_toList, toList_hex, List.length_map, length_flatMap_halves]
  digits := by
    rw [toList_hex]
    exact List.forall_mem_map.2 fun d hd => ⟨d, lt_of_mem_halves d hd, rfl⟩
  spells := by
    refine ⟨bytes.flatMap halves, ?_, ofDigits_flatMap_halves bytes⟩
    rw [toList_hex, List.forall₂_map_left_iff]
    exact List.forall₂_same.2 fun d hd => ⟨lt_of_mem_halves d hd, .inl rfl⟩

end Bytes

namespace Sha256

/-- A number is written with as many bytes as asked for. -/
theorem length_bigEndian (count n : Nat) : (bigEndian count n).length = count := by
  simp [bigEndian]

/-- **A digest has 32 bytes**, whatever the message. -/
theorem length_digest (message : Bytes) : (digest message).length = 32 := by
  simp [digest, State.bytes, length_bigEndian]

/-- A digest is written with 64 characters. -/
theorem length_hexDigest (message : Bytes) : (hexDigest message).length = 64 := by
  rw [hexDigest, (Bytes.isHexOf_hex _).length_eq, length_digest]

end Sha256

end CopyTrial
