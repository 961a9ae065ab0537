import AssignOnce.Bisection
import AssignOnce.Text.Lines

/-!
# Positions in an editor

Editors count lines and characters from 0. A line ends with a newline, so a text that ends with one
has an empty last line. Characters are counted in UTF-16 code units; a byte that begins no
character counts as one unit. `EditorText.positionAt` turns an offset into a position and
`EditorText.offsetAt` a position into an offset, both for any argument: an offset outside the text
counts as its nearest end, a line past the last one as the end of the text, a character past the end
of its line as that end, and a position inside a character as the one behind it. Both look lines up
in the table of the offsets at which they start (`EditorText.lineStarts`).
-/

namespace AssignOnce

/-- A position in an editor. -/
structure Position where
  line : Nat
  character : Nat
  deriving DecidableEq, Repr

/-- A part of a text in an editor. -/
structure Range where
  start : Position
  stop : Position
  deriving DecidableEq, Repr

namespace Position

/-- Whether a position comes before another one. -/
def isBefore (a b : Position) : Bool :=
  a.line < b.line || a.line == b.line && a.character < b.character

end Position

namespace Range

/-- Whether two ranges share a position; ranges that touch do. -/
def intersects (a b : Range) : Bool :=
  !a.stop.isBefore b.start && !b.stop.isBefore a.start

end Range

/-- The number of UTF-16 code units of a character. -/
def utf16Units (c : Char) : Nat :=
  if c.toNat < 0x10000 then 1 else 2

theorem utf16Units_pos (c : Char) : 0 < utf16Units c := by
  unfold utf16Units
  split <;> omega

namespace EditorText

/-- The number of UTF-16 code units of some characters. -/
def charUnits : List Char → Nat
  | [] => 0
  | c :: rest => utf16Units c + charUnits rest

/-- The number of UTF-16 code units of a text. -/
def units (text : Bytes) : Nat :=
  charUnits (Utf8.decode text)

/-- The offsets behind the newlines of a text that begins at an offset. -/
def startsFrom (offset : Nat) : Bytes → List Nat
  | [] => []
  | b :: rest =>
    if b = Lines.newline then (offset + 1) :: startsFrom (offset + 1) rest
    else startsFrom (offset + 1) rest

/-- The offsets at which the lines of a text start. -/
def lineStarts (text : Bytes) : List Nat :=
  0 :: startsFrom 0 text

/-- The line of an offset, given where lines start. -/
def lineOf (starts : List Nat) (offset : Nat) : Nat :=
  let found := bisect (· < offset) starts 0 starts.length
  -- an offset at which no line starts is on the line in front of the next one
  if starts[found]? = some offset then found else found - 1

/-- The position of an offset. -/
def positionAt (text : Bytes) (offset : Int) : Position :=
  let offset := min offset.toNat text.length
  let starts := lineStarts text
  let line := lineOf starts offset
  ⟨line, units ((text.take offset).drop (starts.getD line 0))⟩

/-- The offset at which a line ends, its newline left out. -/
def lineStop (text : Bytes) (line : Nat) : Nat :=
  match (lineStarts text)[line + 1]? with
  | some next => next - 1
  | none => text.length

/-- The offset at which reading has passed a count of units or has come to the end of a line. It has
come to an offset of that line and has passed some units of it. -/
def advance (text : Bytes) (stop count passed offset : Nat) : Nat :=
  if offset < stop ∧ passed < count then
    let read := Utf8.next (text.drop offset)
    advance text stop count (passed + utf16Units read.1) (offset + read.2)
  else offset
termination_by stop - offset
decreasing_by
  have := Utf8.next_size_pos (text.drop offset)
  omega

/-- The offset of a position. -/
def offsetAt (text : Bytes) (p : Position) : Nat :=
  match (lineStarts text)[p.line]? with
  | some start => advance text (lineStop text p.line) p.character 0 start
  | none => text.length

/-- The range between two offsets. -/
def rangeAt (text : Bytes) (start stop : Int) : Range :=
  ⟨positionAt text start, positionAt text stop⟩

end EditorText

end AssignOnce
