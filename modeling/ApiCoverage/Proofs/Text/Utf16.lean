import ApiCoverage.Text.Utf16
import Mathlib.Logic.Basic

/-!
# Texts read back from their code units

A character is no surrogate, so a character of the basic plane is never taken for half of another one.
Hence the code units of a character sequence are decoded as the sequence, and nothing else is decoded.
-/

namespace ApiCoverage.Text.Utf16

/-- The surrogates are left out of the characters. -/
theorem toNat_lt_or_lt (char : Char) :
    char.toNat < 0xD800 ∨ 0xDFFF < char.toNat ∧ char.toNat < 0x110000 :=
  char.valid

theorem isHigh_iff {unit : UInt16} :
    isHigh unit = true ↔ 0xD800 ≤ unit.toNat ∧ unit.toNat < 0xDC00 := by
  simp [isHigh, UInt16.le_iff_toNat_le, UInt16.lt_iff_toNat_lt]

theorem isLow_iff {unit : UInt16} :
    isLow unit = true ↔ 0xDC00 ≤ unit.toNat ∧ unit.toNat < 0xE000 := by
  simp [isLow, UInt16.le_iff_toNat_le, UInt16.lt_iff_toNat_lt]

/-- A unit that is no surrogate is a character on its own. -/
theorem decodeOnto_of_plain {unit : UInt16} (high : isHigh unit = false) (low : isLow unit = false)
    (done : List Char) (rest : List UInt16) :
    decodeOnto done (unit :: rest) = decodeOnto (Char.ofNat unit.toNat :: done) rest := by
  cases rest <;> simp [decodeOnto, high, low]

/-- Two halves are one character. -/
theorem decodeOnto_of_pair {high low : UInt16} (first : isHigh high = true)
    (second : isLow low = true) (done : List Char) (rest : List UInt16) :
    decodeOnto done (high :: low :: rest) = decodeOnto (join high low :: done) rest := by
  simp [decodeOnto, first, second]

theorem encodeChar_of_basic {char : Char} (basic : char.toNat < 0x10000) :
    encodeChar char = [UInt16.ofNat char.toNat] :=
  if_pos basic

theorem encodeChar_of_beyond {char : Char} (beyond : ¬ char.toNat < 0x10000) :
    encodeChar char =
      [UInt16.ofNat (0xD800 + (char.toNat - 0x10000) / 0x400),
        UInt16.ofNat (0xDC00 + (char.toNat - 0x10000) % 0x400)] :=
  if_neg beyond

/-- The units of a character come back as the character. -/
theorem decodeOnto_encodeChar (char : Char) (done : List Char) (rest : List UInt16) :
    decodeOnto done (encodeChar char ++ rest) = decodeOnto (char :: done) rest := by
  have valid := toNat_lt_or_lt char
  by_cases basic : char.toNat < 0x10000
  · rw [encodeChar_of_basic basic]
    have code : (UInt16.ofNat char.toNat).toNat = char.toNat := by
      rw [UInt16.toNat_ofNat', Nat.mod_eq_of_lt basic]
    have high : isHigh (UInt16.ofNat char.toNat) = false := by
      rw [← Bool.not_eq_true, isHigh_iff, code]
      omega
    have low : isLow (UInt16.ofNat char.toNat) = false := by
      rw [← Bool.not_eq_true, isLow_iff, code]
      omega
    rw [List.singleton_append, decodeOnto_of_plain high low, code, Char.ofNat_toNat]
  · rw [encodeChar_of_beyond basic]
    generalize split : char.toNat - 0x10000 = distance
    have highCode : (UInt16.ofNat (0xD800 + distance / 0x400)).toNat =
        0xD800 + distance / 0x400 := by
      rw [UInt16.toNat_ofNat']
      omega
    have lowCode : (UInt16.ofNat (0xDC00 + distance % 0x400)).toNat =
        0xDC00 + distance % 0x400 := by
      rw [UInt16.toNat_ofNat']
      omega
    have high : isHigh (UInt16.ofNat (0xD800 + distance / 0x400)) = true := by
      rw [isHigh_iff, highCode]
      omega
    have low : isLow (UInt16.ofNat (0xDC00 + distance % 0x400)) = true := by
      rw [isLow_iff, lowCode]
      omega
    have joined : join (UInt16.ofNat (0xD800 + distance / 0x400))
        (UInt16.ofNat (0xDC00 + distance % 0x400)) = char := by
      have whole : 0x10000 + (0xD800 + distance / 0x400 - 0xD800) * 0x400 +
          (0xDC00 + distance % 0x400 - 0xDC00) = char.toNat := by
        omega
      rw [join, highCode, lowCode, whole, Char.ofNat_toNat]
    rw [List.cons_append, List.singleton_append, decodeOnto_of_pair high low, joined]

theorem decodeOnto_encode (chars done : List Char) :
    decodeOnto done (encode chars) = some (done.reverse ++ chars) := by
  induction chars generalizing done with
  | nil => simp [encode, decodeOnto]
  | cons char rest ih =>
      rw [encode, List.flatMap_cons, decodeOnto_encodeChar, ← encode, ih]
      simp

/-- A character sequence is read back from its code units. -/
theorem decode?_encode (chars : List Char) : decode? (encode chars) = some chars :=
  decodeOnto_encode chars []

/-! ## Only code units of characters are read -/

theorem toNat_ofNat_of_valid {code : Nat}
    (valid : code < 0xD800 ∨ 0xDFFF < code ∧ code < 0x110000) : (Char.ofNat code).toNat = code := by
  rw [Char.ofNat, dif_pos valid]
  rfl

/-- A unit that is no surrogate is the only unit of its character. -/
theorem encodeChar_ofNat {unit : UInt16} (high : ¬ isHigh unit = true) (low : ¬ isLow unit = true) :
    encodeChar (Char.ofNat unit.toNat) = [unit] := by
  have bound := unit.toNat_lt
  rw [isHigh_iff] at high
  rw [isLow_iff] at low
  have code : (Char.ofNat unit.toNat).toNat = unit.toNat := toNat_ofNat_of_valid (by omega)
  rw [encodeChar_of_basic (by omega), code, UInt16.ofNat_toNat]

/-- Two halves are the units of the character that they form. -/
theorem encodeChar_join {high low : UInt16} (first : isHigh high = true)
    (second : isLow low = true) : encodeChar (join high low) = [high, low] := by
  rw [isHigh_iff] at first
  rw [isLow_iff] at second
  have code : (join high low).toNat =
      0x10000 + (high.toNat - 0xD800) * 0x400 + (low.toNat - 0xDC00) :=
    toNat_ofNat_of_valid (by omega)
  have highCode : 0xD800 + ((join high low).toNat - 0x10000) / 0x400 = high.toNat := by
    omega
  have lowCode : 0xDC00 + ((join high low).toNat - 0x10000) % 0x400 = low.toNat := by
    omega
  rw [encodeChar_of_beyond (by omega), highCode, lowCode, UInt16.ofNat_toNat, UInt16.ofNat_toNat]

/-- The characters that are read from some units have these units. -/
theorem exists_of_decodeOnto {done chars : List Char} {units : List UInt16}
    (read : decodeOnto done units = some chars) :
    ∃ rest, chars = done.reverse ++ rest ∧ units = encode rest := by
  fun_induction decodeOnto done units with
  | case1 done =>
      cases read
      exact ⟨[], by simp, rfl⟩
  | case2 => cases read
  | case3 done unit plain =>
      cases read
      rw [Bool.or_eq_true, not_or] at plain
      refine ⟨[Char.ofNat unit.toNat], by simp, ?_⟩
      rw [encode, List.flatMap_singleton, encodeChar_ofNat plain.1 plain.2]
  | case4 done high low rest first second ih =>
      obtain ⟨chars, rfl, same⟩ := ih read
      refine ⟨join high low :: chars, by simp, ?_⟩
      rw [same, encode, encode, List.flatMap_cons, encodeChar_join first second]
      rfl
  | case5 => cases read
  | case6 => cases read
  | case7 done unit next rest notHigh notLow ih =>
      obtain ⟨chars, rfl, same⟩ := ih read
      refine ⟨Char.ofNat unit.toNat :: chars, by simp, ?_⟩
      rw [same, encode, encode, List.flatMap_cons, encodeChar_ofNat notHigh notLow]
      rfl

/-- A unit sequence is read as a character sequence exactly if it is that of the characters. -/
theorem decode?_eq_some_iff {units : List UInt16} {chars : List Char} :
    decode? units = some chars ↔ units = encode chars := by
  constructor
  · intro read
    obtain ⟨rest, rfl, same⟩ := exists_of_decodeOnto read
    exact same
  · rintro rfl
    exact decode?_encode chars

end ApiCoverage.Text.Utf16
