import AssignOnce.Text.Literal
import AssignOnce.Text.Printable

/-!
# Quoted text in messages

`Quoted.render` writes bytes between double quotes. Printable characters stand for themselves, the
quote and the backslash are escaped, control characters have short or hexadecimal escapes, other
characters are written by their number, and a byte that begins no character is written by its
value.
-/

namespace AssignOnce

namespace Quoted

/-- A number in lower-case hexadecimal digits, filled up with zeros. -/
def hex (width n : Nat) : String :=
  let digits := Nat.toDigits 16 n
  String.ofList (List.replicate (width - digits.length) '0' ++ digits)

/-- The escape that begins with a backslash. -/
def escaped (s : String) : String :=
  String.ofList [Literal.backslash] ++ s

/-- How a character is written between double quotes. -/
def char (c : Char) : String :=
  if c = Literal.doubleQuote ∨ c = Literal.backslash then escaped (String.ofList [c])
  else if isPrintable c then String.ofList [c]
  else if c.toNat = 7 then escaped "a"
  else if c.toNat = 8 then escaped "b"
  else if c.toNat = 12 then escaped "f"
  else if c.toNat = 10 then escaped "n"
  else if c.toNat = 13 then escaped "r"
  else if c.toNat = 9 then escaped "t"
  else if c.toNat = 11 then escaped "v"
  else if c.toNat < 32 ∨ c.toNat = 127 then escaped ("x" ++ hex 2 c.toNat)
  else if c.toNat < 0x10000 then escaped ("u" ++ hex 4 c.toNat)
  else escaped ("U" ++ hex 8 c.toNat)

/-- The inside of quoted bytes. -/
def body : Bytes → String
  | [] => ""
  | b :: rest =>
    match Utf8.first? (b :: rest) with
    | some c => char c ++ body (rest.drop (c.utf8Size - 1))
    | none => escaped ("x" ++ hex 2 b.toNat) ++ body rest
termination_by text => text.length
decreasing_by all_goals simp only [List.length_drop, List.length_cons]; omega

/-- Bytes between double quotes. -/
def render (text : Bytes) : String :=
  let quote := String.ofList [Literal.doubleQuote]
  quote ++ body text ++ quote

/-- A string between double quotes. -/
def string (s : String) : String :=
  render (Utf8.encode s)

end Quoted

end AssignOnce
