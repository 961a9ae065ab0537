import AssignOnce.Text.Letter
import AssignOnce.Text.DecimalDigit

/-!
# Identifiers

An identifier is a letter or underscore followed by letters, underscores and decimal digits, and
it is no keyword. The blank identifier names no variable, so a nameable variable has any other
identifier.
-/

namespace AssignOnce

/-- The words that are no identifiers. -/
def keywords : List String :=
  ["break", "case", "chan", "const", "continue", "default", "defer", "else", "fallthrough", "for",
   "func", "go", "goto", "if", "import", "interface", "map", "package", "range", "return", "select",
   "struct", "switch", "type", "var"]

/-- A character that may begin an identifier. -/
def startsIdentifier (c : Char) : Bool :=
  c == '_' || isLetter c

/-- A character that may stand in an identifier behind its first. -/
def continuesIdentifier (c : Char) : Bool :=
  startsIdentifier c || isDecimalDigit c

/-- Whether a name is an identifier. -/
def isIdentifier (name : String) : Bool :=
  match name.toList with
  | [] => false
  | c :: rest => startsIdentifier c && rest.all continuesIdentifier && !keywords.contains name

/-- The identifier of what is not named. -/
def blankName : String := "_"

/-- Whether a name can name a variable. -/
def namesVariable (name : String) : Bool :=
  isIdentifier name && name != blankName

end AssignOnce
