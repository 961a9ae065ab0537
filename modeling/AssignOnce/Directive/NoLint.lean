import AssignOnce.Directive.Basic

/-!
# Comments that switch off linters

A comment `//nolint:a,b` switches off the linters it lists, upper and lower case alike, where `all`
stands for every linter. White space may stand in front of the word; a comment without a list
switches off nothing.
-/

namespace AssignOnce

namespace NoLint

/-- A character of a list of linters. -/
def inList (c : Char) : Bool :=
  c.isAlphanum || c == ',' || c == '_' || c == '-'

/-- The list of linters of a comment. -/
def list? (text : String) : Option (List Char) :=
  let slashes := "//".toList
  let word := "nolint:".toList
  let opened := (text.toList.drop slashes.length).dropWhile Lexeme.isBlank
  if slashes.isPrefixOf text.toList && word.isPrefixOf opened then
    match (opened.drop word.length).takeWhile inList with
    | [] => none
    | cs => some cs
  else none

/-- The linters of a list, in lower case. -/
def linters (list : List Char) : List String :=
  ((String.ofList list).splitOn ",").map fun s => s.map Char.toLower

end NoLint

namespace Comment

/-- Whether a comment switches off this tool. -/
def isNoLint (c : Comment) : Bool :=
  match NoLint.list? c.text with
  | some list => (NoLint.linters list).any fun l => l == toolName || l == "all"
  | none => false

end Comment

namespace CommentGroup

/-- Whether the last comment of a group switches off this tool. -/
def endsInNoLint (g : CommentGroup) : Bool :=
  g.comments.getLast?.any (·.isNoLint)

/-- Whether some comment of a group switches off this tool. -/
def hasNoLint (g : CommentGroup) : Bool :=
  g.comments.any (·.isNoLint)

end CommentGroup

end AssignOnce
