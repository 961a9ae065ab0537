import AssignOnce.Text.Literal

/-!
# ASCII in texts of bytes

Classes of bytes that are ASCII characters. No byte of a character outside ASCII belongs to any of
them.
-/

namespace AssignOnce

namespace Ascii

/-- The byte of an ASCII character. -/
def byte (c : Char) : UInt8 := UInt8.ofNat c.toNat

/-- Whether a byte is one of some ASCII characters. -/
def isOneOf (s : String) (b : UInt8) : Bool :=
  s.toList.any fun c => byte c == b

/-- Whether a byte is a letter. -/
def isLetter (b : UInt8) : Bool :=
  byte 'a' ≤ b && b ≤ byte 'z' || byte 'A' ≤ b && b ≤ byte 'Z'

/-- Whether a byte is a decimal digit. -/
def isDigit (b : UInt8) : Bool :=
  byte '0' ≤ b && b ≤ byte '9'

/-- The value of a hexadecimal digit. -/
def hexDigit? (b : UInt8) : Option Nat :=
  if b.toNat < 128 then Literal.hexDigit? (Char.ofNat b.toNat) else none

/-- Whether a byte is a hexadecimal digit. -/
def isHexDigit (b : UInt8) : Bool :=
  (hexDigit? b).isSome

end Ascii

end AssignOnce
