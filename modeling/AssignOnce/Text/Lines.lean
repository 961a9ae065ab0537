import AssignOnce.Text.Utf8

/-!
# Lines of a source file

Lines are numbered from 1. A line starts at the beginning of the text and after every newline
that is not the last byte, so a final newline starts no line of its own. The line of an offset
therefore depends only on the newlines before it, the last byte of the text left out
(`Lines.before`); an offset past the end belongs to the last line.
-/

namespace AssignOnce

namespace Lines

/-- The byte that ends a line. -/
def newline : UInt8 := 10

/-- The bytes in front of an offset that can end a line. -/
def before (text : Bytes) (offset : Nat) : Bytes :=
  text.dropLast.take offset

/-- The line that an offset lies on. -/
def number (text : Bytes) (offset : Nat) : Nat :=
  1 + (before text offset).count newline

/-- The offset at which the line of an offset starts. -/
def start (text : Bytes) (offset : Nat) : Nat :=
  (before text offset).length -
    ((before text offset).reverse.takeWhile (· != newline)).length

/-- The leading spaces and tabs of a piece of a line. -/
def blanks (piece : Bytes) : Bytes :=
  piece.takeWhile fun b => b == 32 || b == 9

/-- Line numbers grow with the offset. -/
theorem number_mono (text : Bytes) {a b : Nat} (h : a ≤ b) : number text a ≤ number text b := by
  have hs : (before text a).Sublist (before text b) := (List.take_prefix_take_left h).sublist
  have := hs.count_le newline
  unfold number
  omega

end Lines

end AssignOnce
