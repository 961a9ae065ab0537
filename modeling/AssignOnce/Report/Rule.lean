import AssignOnce.Fix.Edit

/-!
# Rules and diagnostics

The rules that the tool checks, how severe a breach is, and how it is reported.
-/

namespace AssignOnce

/-- How severe a breach of a rule is. -/
structure Severity where
  level : UInt8
  deriving DecidableEq, Repr

namespace Severity

/-- A hint. -/
def info : Severity := ⟨0⟩

/-- A possible mistake. -/
def warning : Severity := ⟨1⟩

/-- A mistake. -/
def error : Severity := ⟨2⟩

/-- The name of a severity; levels without a name are given by their number. -/
def name (s : Severity) : String :=
  if s = info then "info"
  else if s = warning then "warning"
  else if s = error then "error"
  else "Severity(" ++ toString s.level.toNat ++ ")"

/-- The number that editors have for a severity. -/
def editorLevel (s : Severity) : Nat :=
  if s = error then 1 else if s = warning then 2 else 3

end Severity

/-- A set of edits that mends what a diagnostic is about. -/
structure Fix where
  title : String
  edits : List Edit
  deriving DecidableEq, Repr

/-- What is reported about a part of the text. -/
structure Diagnostic where
  span : Span
  category : String
  message : String
  fixes : List Fix
  deriving DecidableEq, Repr

namespace Diagnostic

/-- A failure of the tool itself. -/
def internal (span : Span) (what : String) : Diagnostic :=
  ⟨span, "internal", "Internal Error: " ++ what, []⟩

end Diagnostic

/-- A rule. Its message names what the breach is about between `before` and `after`. -/
structure Rule where
  id : String
  severity : Severity
  title : String
  before : String
  after : String
  deriving DecidableEq, Repr

namespace Rule

/-- A variable presumed to be assigned once is written again. -/
def reassignment : Rule where
  id := "RO0001"
  severity := .error
  title := "Disallowed reassignment"
  before := "Reassignment of variable '"
  after := "'"

/-- A directive names a variable that needs no permission. -/
def unnecessaryPermission : Rule where
  id := "RO3001"
  severity := .info
  title := "Unnecessary permission"
  before := "Unnecessary permission to reassign '"
  after := "'"

/-- A directive has no necessary entry. -/
def unnecessaryDirective : Rule where
  id := "RO3002"
  severity := .info
  title := "Unnecessary directive"
  before := "Unnecessary reassignment directive '"
  after := "'"

/-- All rules. -/
def all : List Rule := [reassignment, unnecessaryPermission, unnecessaryDirective]

/-- The rule with an id. -/
def find? (id : String) : Option Rule :=
  all.find? (·.id == id)

/-- The message with a place holder for the name. -/
def template (r : Rule) : String := r.before ++ "%s" ++ r.after

/-- The message about a name. -/
def message (r : Rule) (name : String) : String :=
  r.before ++ name ++ r.after ++ " (" ++ r.id ++ ")"

/-- The diagnostic about a name. -/
def diagnostic (r : Rule) (span : Span) (name : String) : Diagnostic :=
  ⟨span, r.id, r.message name, []⟩

/-- The number that editors have for the severity of a category; what is no rule is an error of the
tool. -/
def editorLevel (category : String) : Nat :=
  match find? category with
  | some r => r.severity.editorLevel
  | none => Severity.error.editorLevel

end Rule

namespace Fix

/-- The title of the fix that declares a new variable. -/
def newVariableTitle : String := "Declare new variable"

/-- The title of the fix that permits the write. -/
def permitTitle : String := "Allow reassignment"

end Fix

/-- Text filled up with spaces to a width. -/
def padRight (width : Nat) (s : String) : String :=
  s ++ String.ofList (List.replicate (width - s.length) ' ')

/-- The list of all rules and fixes, a line each. -/
def ruleList : String :=
  String.join (Rule.all.map fun r =>
    r.id ++ "  " ++ padRight 7 r.severity.name ++ "  " ++ r.title ++ "\n") ++
  String.join ([Fix.newVariableTitle, Fix.permitTitle].map fun title =>
    Rule.reassignment.id ++ "  fix: " ++ title ++ "\n")

end AssignOnce
