import AssignOnce.Directive.Lexeme
import AssignOnce.Program.Comment
import AssignOnce.Text.Identifier

/-!
# Directives that permit reassignment

A comment `//reassignguard:allow x, y` permits a function to reassign the variables it names. The
marker is followed by the end of the comment, a space or a tab; what follows a further `//` is an
explanation. Names may be quoted. Arguments that name no variable are kept as invalid entries that
permit nothing.
-/

namespace AssignOnce

/-- The name of the tool, as it stands in directives. -/
def toolName : String := "reassignguard"

/-- An argument of a directive. -/
structure Entry where
  /-- The name, without quotes. -/
  name : String
  span : Span
  /-- Whether the name can name a variable. -/
  valid : Bool
  deriving DecidableEq, Repr

/-- A directive that permits reassignment. -/
structure Permission where
  /-- The span of the comment. -/
  span : Span
  entries : List Entry
  deriving DecidableEq, Repr

namespace Permission

/-- How a directive begins. -/
def marker : String := "//" ++ toolName ++ ":allow"

/-- The names that a directive permits to reassign. -/
def names (p : Permission) : List String :=
  (p.entries.filter (·.valid)).map (·.name)

/-- Whether a directive permits to reassign variables of a name. -/
def allows (p : Permission) (name : String) : Bool :=
  p.names.contains name

/-- The name that an argument stands for. A string that is no literal stands for itself. -/
def nameOf : Lexeme → Option String
  | .quoted t => some ((Literal.value? (String.ofList t)).getD (String.ofList t))
  | .word t => some (String.ofList t)
  | .separator _ => none

/-- The entries of the lexemes that stand from a position on. -/
def entriesFrom (p : Int) : List Lexeme → List Entry
  | [] => []
  | l :: rest =>
    let stop := p + Utf8.width l.text
    match nameOf l with
    | some name => ⟨name, ⟨p, stop⟩, namesVariable name⟩ :: entriesFrom stop rest
    | none => entriesFrom stop rest

/-- The text in front of the first `//`. -/
def withoutExplanation : List Char → List Char
  | [] => []
  | c :: rest =>
    if c = '/' ∧ rest.head? = some '/' then [] else c :: withoutExplanation rest

/-- What follows the marker, if a comment is a directive. -/
def arguments? (text : String) : Option (List Char) :=
  if marker.toList.isPrefixOf text.toList then
    match text.toList.drop marker.toList.length with
    | [] => some []
    | c :: rest => if c = ' ' ∨ c = '\t' then some (c :: rest) else none
  else none

/-- Reads a directive. -/
def parse? (c : Comment) : Option Permission :=
  (arguments? c.text).map fun args =>
    { span := c.span
      entries := entriesFrom (c.span.start + Utf8.width marker.toList)
        (Lexeme.scan (withoutExplanation args)) }

/-- The directives of a comment group. -/
def ofGroup (g : CommentGroup) : List Permission :=
  g.comments.filterMap parse?

/-- Writes a directive. -/
def format (names : List String) : String :=
  marker ++ " " ++ String.intercalate ", " names

end Permission

end AssignOnce
