import ApiCoverage.Bytes
import ApiCoverage.Text.Utf16

/-!
# The text encoding of class files

Class files hold text in a variant of UTF-8 that encodes 16-bit code units: NUL takes two bytes,
and a character beyond the basic plane takes three bytes for each half. Tools also write standard
UTF-8, which differs on exactly those characters, so reading accepts either form: standard UTF-8
when the bytes are that, and otherwise the variant, whose two- and three-byte groups need not be
the shortest ones.
-/

namespace ApiCoverage.Text.ModifiedUtf8

/-- The text whose standard UTF-8 form the bytes are. -/
def decodeStandard? (bytes : Bytes) : Option String :=
  String.fromUTF8? ⟨bytes.toArray⟩

/-- The bytes of one code unit. -/
def encodeUnit (unit : UInt16) : Bytes :=
  let code := unit.toNat
  if 0 < code && code < 0x80 then [UInt8.ofNat code]
  else if code < 0x800 then [UInt8.ofNat (0xC0 + code / 0x40), UInt8.ofNat (0x80 + code % 0x40)]
  else
    [UInt8.ofNat (0xE0 + code / 0x1000), UInt8.ofNat (0x80 + code / 0x40 % 0x40),
      UInt8.ofNat (0x80 + code % 0x40)]

/-- The variant encoding of a text. -/
def encode (text : String) : Bytes :=
  (Utf16.encode text.toList).flatMap encodeUnit

/-- Whether a byte continues a group. -/
def isContinuation (byte : UInt8) : Bool :=
  byte &&& 0xC0 == 0x80

/-- The payload bits of a continuation byte. -/
def continuationBits (byte : UInt8) : Nat :=
  byte.toNat % 0x40

/-- The code units of a byte sequence, after those in `done`, which stand in reverse. The first
byte of a group decides its length; a byte that starts no group has no reading. -/
def unitsOnto (done : List UInt16) : Bytes → Option (List UInt16)
  | [] => some done.reverse
  | lead :: rest =>
      if lead &&& 0x80 == 0 then unitsOnto (UInt16.ofNat lead.toNat :: done) rest
      else if lead &&& 0xE0 == 0xC0 then
        match rest with
        | second :: rest =>
            if isContinuation second then
              let unit := lead.toNat % 0x20 * 0x40 + continuationBits second
              unitsOnto (UInt16.ofNat unit :: done) rest
            else none
        | [] => none
      else if lead &&& 0xF0 == 0xE0 then
        match rest with
        | second :: third :: rest =>
            if isContinuation second && isContinuation third then
              let unit := lead.toNat % 0x10 * 0x1000 + continuationBits second * 0x40 +
                continuationBits third
              unitsOnto (UInt16.ofNat unit :: done) rest
            else none
        | _ => none
      else none

/-- The text that the groups of a byte sequence spell. -/
def decodeGroups? (bytes : Bytes) : Option String := do
  let units ← unitsOnto [] bytes
  let chars ← Utf16.decode? units
  return String.ofList chars

/-- The text of a class file constant. -/
def decode? (bytes : Bytes) : Option String :=
  match decodeStandard? bytes with
  | some text => some text
  | none => decodeGroups? bytes

end ApiCoverage.Text.ModifiedUtf8
