import CopyTrial.Bytes

/-!
# Copying bytes

Two ways to copy the first bytes of a source over those of a destination: byte by byte, and in
words of eight bytes with a tail of single bytes. Neither reads or writes beyond its buffers.

## Main definitions

* `Copy.window` — how many bytes a copy moves.
* `Copy.bytewise`, `Copy.wordwise` — the two ways.
* `Copy.moveBytewise`, `Copy.moveWordwise` — the two ways, with the number of bytes moved.
* `Copy.raw` — a copy between pointers, either of which may be null.

## Main results

* `Copy.length_bytewise`, `Copy.length_wordwise` — a copy keeps the length of the destination.
-/

set_option autoImplicit false

namespace CopyTrial.Copy

/-- The number of bytes that a copy of `size` bytes moves: no more than either buffer holds. -/
def window (dest src : Bytes) (size : Nat) : Nat :=
  min size (min dest.length src.length)

/-- Copies `count` bytes, one after the other, as long as both buffers last. -/
def bytes : Nat → Bytes → Bytes → Bytes
  | count + 1, _ :: dest, s :: src => s :: bytes count dest src
  | _, dest, _ => dest

/-- The number that bytes denote, the first one being the least significant. -/
def wordOfBytes : Bytes → Nat
  | [] => 0
  | b :: rest => b.toNat + 256 * wordOfBytes rest

/-- The given number of bytes that denote a number, the least significant one first. -/
def bytesOfWord : Nat → Nat → Bytes
  | 0, _ => []
  | count + 1, w => UInt8.ofNat w :: bytesOfWord count (w / 256)

/-- The word of 64 bits that is loaded from the first eight bytes. -/
def loadWord (src : Bytes) : UInt64 := UInt64.ofNat (wordOfBytes (src.take 8))

/-- The eight bytes that a word is stored as. -/
def storeWord (w : UInt64) : Bytes := bytesOfWord 8 w.toNat

/-- Copies `count` words and then `tail` bytes. -/
def words (tail : Nat) : Nat → Bytes → Bytes → Bytes
  | 0, dest, src => bytes tail dest src
  | count + 1, dest, src =>
    storeWord (loadWord src) ++ words tail count (dest.drop 8) (src.drop 8)

/-- Copies byte by byte. -/
def bytewise (dest src : Bytes) (size : Nat) : Bytes :=
  bytes (window dest src size) dest src

/-- Copies word by word, and the bytes that fill no word one by one. -/
def wordwise (dest src : Bytes) (size : Nat) : Bytes :=
  words (window dest src size % 8) (window dest src size / 8) dest src

/-- Copies byte by byte, and gives back how many bytes have been moved beside what is in the
destination then. -/
def moveBytewise (dest src : Bytes) (size : Nat) : Bytes × Nat :=
  (bytewise dest src size, window dest src size)

/-- Copies word by word, and gives back how many bytes have been moved beside what is in the
destination then. -/
def moveWordwise (dest src : Bytes) (size : Nat) : Bytes × Nat :=
  (wordwise dest src size, window dest src size)

/-- A copy between two pointers, of which a null one has nothing behind it: nothing happens when
either is null. What is behind the destination afterwards is given. -/
def raw (dest src : Option Bytes) (size : Nat) : Option Bytes :=
  match dest, src with
  | some dest, some src => some (bytes size dest src)
  | dest, _ => dest

/-- Copying bytes keeps the length of the destination. -/
@[simp] theorem length_bytes (count : Nat) (dest src : Bytes) :
    (bytes count dest src).length = dest.length := by
  fun_induction bytes count dest src with
  | case1 count d dest s src ih => simp [ih]
  | case2 => rfl

/-- A copy byte by byte keeps the length of the destination. -/
@[simp] theorem length_bytewise (dest src : Bytes) (size : Nat) :
    (bytewise dest src size).length = dest.length := length_bytes _ _ _

/-- A number is stored as so many bytes. -/
@[simp] theorem length_bytesOfWord (count w : Nat) : (bytesOfWord count w).length = count := by
  induction count generalizing w with
  | zero => rfl
  | succ count ih => simp [bytesOfWord, ih]

/-- Words that fit the destination keep its length. -/
theorem length_words (tail count : Nat) (dest src : Bytes) (h : 8 * count ≤ dest.length) :
    (words tail count dest src).length = dest.length := by
  induction count generalizing dest src with
  | zero => simp [words]
  | succ count ih =>
    rw [words, List.length_append, ih _ _ (by rw [List.length_drop]; omega), storeWord,
      length_bytesOfWord, List.length_drop]
    omega

/-- A copy word by word keeps the length of the destination. -/
@[simp] theorem length_wordwise (dest src : Bytes) (size : Nat) :
    (wordwise dest src size).length = dest.length := by
  apply length_words
  have : window dest src size ≤ dest.length := by unfold window; omega
  omega

end CopyTrial.Copy
