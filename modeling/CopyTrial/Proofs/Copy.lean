import CopyTrial.Primitive.Kind

/-!
# What copies leave in the destination

A copy lays the first bytes of the source over those of the destination and leaves the rest of the
destination alone. It does so whether it goes byte by byte or word by word: a word that is loaded
from eight bytes is stored as the same eight bytes. So the two ways agree on all buffers, and every
primitive that can be chosen by name is told by the number of bytes that it lays over.

## Main definitions

* `Kind.reach` — how many bytes a primitive of a kind copies, of those that it may.

## Main results

* `Copy.storeWord_loadWord` — a word is stored as the bytes that it was loaded from.
* `Copy.bytewise_eq`, `Copy.wordwise_eq` — what the two ways of copying leave.
* `Kind.copy_primitive_eq`, `Kind.getElem?_copy_filled` — what a primitive of a kind leaves.
* `Kind.copies_agree` — both ways of copying and all kinds of primitives, side by side.
-/

set_option autoImplicit false

namespace CopyTrial

namespace Copy

/-! ## Words -/

/-- Bytes that were read as a number are stored as themselves. -/
theorem bytesOfWord_wordOfBytes (bs : Bytes) : bytesOfWord bs.length (wordOfBytes bs) = bs := by
  induction bs with
  | nil => rfl
  | cons b bs ih =>
    have hb : b.toNat < 256 := b.toNat_lt
    have hlow : UInt8.ofNat (b.toNat + 256 * wordOfBytes bs) = b := by
      rw [← UInt8.toNat_inj, UInt8.toNat_ofNat']
      omega
    have hhigh : (b.toNat + 256 * wordOfBytes bs) / 256 = wordOfBytes bs := by omega
    rw [List.length_cons, wordOfBytes, bytesOfWord, hlow, hhigh, ih]

/-- The number that further bytes in front make of one below a bound. -/
theorem wordOfBytes_cons_lt (b : UInt8) {bs : Bytes} {bound : Nat} (h : wordOfBytes bs < bound) :
    wordOfBytes (b :: bs) < 256 * bound := by
  have hb : b.toNat < 256 := b.toNat_lt
  rw [wordOfBytes]
  omega

/-- Eight bytes denote a number of 64 bits. -/
theorem wordOfBytes_lt {bs : Bytes} (h : bs.length = 8) : wordOfBytes bs < UInt64.size := by
  obtain ⟨a, b, c, d, e, f, g, i, rfl⟩ : ∃ a b c d e f g i, bs = [a, b, c, d, e, f, g, i] := by
    match bs, h with
    | [a, b, c, d, e, f, g, i], _ => exact ⟨a, b, c, d, e, f, g, i, rfl⟩
  have hnil : wordOfBytes [] < 1 := Nat.one_pos
  exact wordOfBytes_cons_lt a <| wordOfBytes_cons_lt b <| wordOfBytes_cons_lt c <|
    wordOfBytes_cons_lt d <| wordOfBytes_cons_lt e <| wordOfBytes_cons_lt f <|
    wordOfBytes_cons_lt g <| wordOfBytes_cons_lt i hnil

/-- **A word is stored as the bytes that it was loaded from.** -/
theorem storeWord_loadWord {src : Bytes} (h : 8 ≤ src.length) :
    storeWord (loadWord src) = src.take 8 := by
  have hlength : (src.take 8).length = 8 := by
    rw [List.length_take]
    omega
  have hword : (loadWord src).toNat = wordOfBytes (src.take 8) :=
    UInt64.toNat_ofNat_of_lt' (wordOfBytes_lt hlength)
  have hbytes := bytesOfWord_wordOfBytes (src.take 8)
  rw [hlength] at hbytes
  rw [storeWord, hword, hbytes]

/-! ## Loops -/

/-- Copying bytes that both buffers hold lays them over the start of the destination. -/
theorem bytes_eq {count : Nat} {dest src : Bytes} (hdest : count ≤ dest.length)
    (hsrc : count ≤ src.length) : bytes count dest src = src.take count ++ dest.drop count := by
  induction count generalizing dest src with
  | zero => cases dest <;> cases src <;> rfl
  | succ count ih =>
    obtain ⟨d, dest, rfl⟩ := List.exists_cons_of_length_pos (Nat.zero_lt_of_lt hdest)
    obtain ⟨s, src, rfl⟩ := List.exists_cons_of_length_pos (Nat.zero_lt_of_lt hsrc)
    rw [bytes, ih (Nat.le_of_succ_le_succ hdest) (Nat.le_of_succ_le_succ hsrc)]
    rfl

/-- Copying words and then a tail lays all their bytes over the start of the destination.

**Proof sketch.** Induction on the words. Each of them stores the eight bytes that were loaded, and
the others go on eight bytes further in both buffers. -/
theorem words_eq {tail count : Nat} {dest src : Bytes} (hdest : 8 * count + tail ≤ dest.length)
    (hsrc : 8 * count + tail ≤ src.length) :
    words tail count dest src =
      src.take (8 * count + tail) ++ dest.drop (8 * count + tail) := by
  induction count generalizing dest src with
  | zero =>
    rw [Nat.mul_zero, Nat.zero_add] at hdest hsrc ⊢
    exact bytes_eq hdest hsrc
  | succ count ih =>
    have hdest' : 8 * count + tail ≤ (dest.drop 8).length := by
      rw [List.length_drop]
      omega
    have hsrc' : 8 * count + tail ≤ (src.drop 8).length := by
      rw [List.length_drop]
      omega
    have hsplit : 8 * (count + 1) + tail = 8 + (8 * count + tail) := by omega
    have htake : src.take (8 + (8 * count + tail)) =
        src.take 8 ++ (src.drop 8).take (8 * count + tail) := List.take_add
    rw [words, storeWord_loadWord (by omega), ih hdest' hsrc', hsplit, htake, List.drop_drop,
      List.append_assoc]

/-! ## The window -/

/-- A window is no longer than either buffer. -/
theorem window_le (dest src : Bytes) (size : Nat) :
    window dest src size ≤ dest.length ∧ window dest src size ≤ src.length := by
  unfold window
  omega

/-- **What a copy byte by byte leaves.** -/
theorem bytewise_eq (dest src : Bytes) (size : Nat) :
    bytewise dest src size =
      src.take (window dest src size) ++ dest.drop (window dest src size) := by
  obtain ⟨hdest, hsrc⟩ := window_le dest src size
  exact bytes_eq hdest hsrc

/-- **What a copy word by word leaves.** -/
theorem wordwise_eq (dest src : Bytes) (size : Nat) :
    wordwise dest src size =
      src.take (window dest src size) ++ dest.drop (window dest src size) := by
  obtain ⟨hdest, hsrc⟩ := window_le dest src size
  have hparts := Nat.div_add_mod (window dest src size) 8
  rw [wordwise, words_eq (by omega) (by omega), hparts]

/-- A copy of fewer bytes has the shorter window. -/
theorem window_min (dest src : Bytes) (size limit : Nat) :
    window dest src (min size limit) = min (window dest src size) limit := by
  unfold window
  omega

end Copy

namespace Kind

/-- How many bytes a primitive of a kind copies, if it may copy so many. -/
def reach : Kind → Nat → Nat
  | .reference, count => count
  | .wordwise, count => count
  | .noop, _ => 0
  | .truncate limit, count => min count limit.toNat
  | .external, count => count

/-- No primitive copies more than it may. -/
theorem reach_le (kind : Kind) (count : Nat) : kind.reach count ≤ count := by
  cases kind with
  | noop => exact Nat.zero_le count
  | truncate limit => exact Nat.min_le_left count limit.toNat
  | _ => exact Nat.le_refl count

/-- The external routine, told no more bytes than both buffers hold, copies them. -/
theorem copy_external (dest src : Bytes) (size : Nat) :
    Kind.external.primitive.copy dest src size = Copy.bytewise dest src size := rfl

/-- **What a primitive of a kind leaves**: as many bytes of the source as it reaches, and beyond
them the destination as it was. -/
theorem copy_primitive_eq (kind : Kind) (dest src : Bytes) (size : Nat) :
    kind.primitive.copy dest src size =
      src.take (kind.reach (Copy.window dest src size)) ++
        dest.drop (kind.reach (Copy.window dest src size)) := by
  cases kind with
  | reference => exact Copy.bytewise_eq dest src size
  | wordwise => exact Copy.wordwise_eq dest src size
  | noop => rfl
  | truncate limit =>
    rw [reach, ← Copy.window_min]
    exact Copy.bytewise_eq dest src (min size limit.toNat)
  | external => rw [copy_external, Copy.bytewise_eq, reach]

/-- What a primitive of a kind leaves, byte by byte: the source as far as it reaches, and beyond
that the destination as it was. -/
theorem getElem?_copy_primitive (kind : Kind) (dest src : Bytes) (size i : Nat) :
    (kind.primitive.copy dest src size)[i]? =
      if i < kind.reach (Copy.window dest src size) then src[i]? else dest[i]? := by
  have hreach := kind.reach_le (Copy.window dest src size)
  have hwindow := Copy.window_le dest src size
  have hlength : (src.take (kind.reach (Copy.window dest src size))).length =
      kind.reach (Copy.window dest src size) := by
    rw [List.length_take]
    omega
  rw [kind.copy_primitive_eq, List.getElem?_append, hlength]
  split
  · next hi => rw [List.getElem?_take, if_pos hi]
  · next hi => rw [List.getElem?_drop, Nat.add_sub_cancel' (Nat.le_of_not_lt hi)]

/-- What a primitive of a kind leaves of the whole source in a destination that was filled, byte by
byte. -/
theorem getElem?_copy_filled (kind : Kind) (src : Bytes) (fill : UInt8) (i : Nat) :
    (kind.primitive.copy (List.replicate src.length fill) src src.length)[i]? =
      if i < kind.reach src.length then src[i]? else if i < src.length then some fill else none := by
  have hwindow : Copy.window (List.replicate src.length fill) src src.length = src.length := by
    simp [Copy.window]
  rw [getElem?_copy_primitive, hwindow, List.getElem?_replicate]

/-- **Both ways of copying agree, and no primitive writes outside its window.** With buffers of any
lengths and any size, the two ways move the same number of bytes, the least of the three, and leave
the same destination. A primitive of any kind leaves the bytes of the source that it reaches, which
are no more than these, and beyond them the destination as it was. -/
theorem copies_agree (dest src : Bytes) (size : Nat) :
    ∃ count, count = min size (min dest.length src.length) ∧
      Copy.moveBytewise dest src size = (src.take count ++ dest.drop count, count) ∧
      Copy.moveWordwise dest src size = (src.take count ++ dest.drop count, count) ∧
      ∀ kind : Kind, kind.reach count ≤ count ∧
        kind.primitive.copy dest src size =
          src.take (kind.reach count) ++ dest.drop (kind.reach count) := by
  refine ⟨Copy.window dest src size, rfl, ?_, ?_, fun kind => ⟨kind.reach_le _, ?_⟩⟩
  · rw [Copy.moveBytewise, Copy.bytewise_eq]
  · rw [Copy.moveWordwise, Copy.wordwise_eq]
  · exact kind.copy_primitive_eq dest src size

end Kind

end CopyTrial
