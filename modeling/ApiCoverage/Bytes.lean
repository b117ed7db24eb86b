/-!
# Byte sequences and big-endian words

Class files store every integer with its most significant byte first. This module fixes the byte
sequence type of the project and the two directions between words and bytes; `toNat` is the one
reading of a byte group as a number, and the fixed-width readings are its truncations.
-/

namespace ApiCoverage

/-- A sequence of octets. -/
abbrev Bytes := List UInt8

namespace Bytes

/-- The number that a group of bytes denotes, most significant byte first. -/
def toNat (bytes : Bytes) : Nat :=
  bytes.foldl (fun value byte => value * 256 + byte.toNat) 0

/-- The last 16 bits of the number that a group of bytes denotes. -/
def toUInt16 (bytes : Bytes) : UInt16 :=
  UInt16.ofNat (toNat bytes)

/-- The last 32 bits of the number that a group of bytes denotes. -/
def toUInt32 (bytes : Bytes) : UInt32 :=
  UInt32.ofNat (toNat bytes)

/-- The last 64 bits of the number that a group of bytes denotes. -/
def toUInt64 (bytes : Bytes) : UInt64 :=
  UInt64.ofNat (toNat bytes)

/-- The signed reading of a group of at most four bytes: two's complement on 32 bits. -/
def toInt32 (bytes : Bytes) : Int :=
  Int.bmod (toNat bytes) 0x100000000

/-- Two bytes, the high one first. -/
def ofUInt16 (word : UInt16) : Bytes :=
  [(word >>> 8).toUInt8, word.toUInt8]

/-- Four bytes, the highest first. -/
def ofUInt32 (word : UInt32) : Bytes :=
  [(word >>> 24).toUInt8, (word >>> 16).toUInt8, (word >>> 8).toUInt8, word.toUInt8]

/-- Eight bytes, the highest first. -/
def ofUInt64 (word : UInt64) : Bytes :=
  [(word >>> 56).toUInt8, (word >>> 48).toUInt8, (word >>> 40).toUInt8, (word >>> 32).toUInt8,
    (word >>> 24).toUInt8, (word >>> 16).toUInt8, (word >>> 8).toUInt8, word.toUInt8]

/-- Whether at least `count` bytes remain; the walk stops at the shorter of the two. -/
def hasAtLeast : Nat → Bytes → Bool
  | 0, _ => true
  | _ + 1, [] => false
  | count + 1, _ :: rest => hasAtLeast count rest

theorem hasAtLeast_iff (count : Nat) (bytes : Bytes) :
    hasAtLeast count bytes = true ↔ count ≤ bytes.length := by
  induction count generalizing bytes with
  | zero => simp [hasAtLeast]
  | succ count ih =>
      cases bytes with
      | nil => simp [hasAtLeast]
      | cons byte rest => simp [hasAtLeast, ih]

/-- The first `count` bytes and the rest, when there are that many. -/
def split? (count : Nat) (bytes : Bytes) : Option (Bytes × Bytes) :=
  if hasAtLeast count bytes then some (bytes.take count, bytes.drop count) else none

theorem split?_eq_some_iff {count : Nat} {bytes front rest : Bytes} :
    split? count bytes = some (front, rest) ↔ bytes = front ++ rest ∧ front.length = count := by
  unfold split?
  split
  · next enough =>
      rw [hasAtLeast_iff] at enough
      constructor
      · intro same
        obtain ⟨rfl, rfl⟩ : bytes.take count = front ∧ bytes.drop count = rest := by
          simpa using same
        exact ⟨(List.take_append_drop count bytes).symm, by simp [enough]⟩
      · rintro ⟨rfl, rfl⟩
        simp
  · next short =>
      rw [hasAtLeast_iff] at short
      constructor
      · intro absurdity
        simp at absurdity
      · rintro ⟨rfl, rfl⟩
        simp at short

theorem split?_eq_none_iff {count : Nat} {bytes : Bytes} :
    split? count bytes = none ↔ bytes.length < count := by
  unfold split?
  split
  · next enough => rw [hasAtLeast_iff] at enough; simp [enough]
  · next short => rw [hasAtLeast_iff] at short; simpa using short

/-- The bytes of a text in standard UTF-8. -/
def ofText (text : String) : Bytes :=
  text.toByteArray.toList

end Bytes

end ApiCoverage
