import AssignOnce.Config.Basic
import AssignOnce.Report.Basic

/-!
# Checking a package

Every file is checked by itself, function by function: first the writes of a declared function, or
of a literal outside any function, then the directives of it and of the literals in it. Generated
files are skipped unless asked for and get no fixes. Files and functions whose comments end in a
comment that switches off the tool are skipped.
-/

namespace AssignOnce

/-- The name of the check in analysis frameworks. -/
def checkName : String := toolName

/-- What the check is for. -/
def checkDoc : String :=
  toolName ++ " detects reassignments of variables presumed to be assigned once"

/-- Where the check is described. -/
def checkUrl : String := "https://pkg.go.dev/fillmore-labs.com/reassignguard"

/-- Why a package cannot be checked. -/
inductive CheckError where
  /-- The trees of the files are missing. -/
  | treesMissing
  deriving DecidableEq, Repr

namespace CheckError

/-- What is said of a package that cannot be checked. -/
def message : CheckError → String
  | .treesMissing => toolName ++ ": inspect analyzer result missing"

end CheckError

namespace Config

/-- What counts as a disallowed write. -/
def policy (c : Config) : Policy where
  outArgs := c.behavior.enabled outArgsMask
  params := c.behavior.enabled paramsMask

/-- Whether disallowed writes are reported. -/
def reportsWrites (c : Config) : Bool := c.checks.enabled reassignMask

/-- Whether unnecessary permissions are reported. -/
def reportsUnused (c : Config) : Bool := c.checks.enabled unusedMask

/-- Whether generated files are checked. -/
def checksGenerated (c : Config) : Bool := c.behavior.enabled generatedMask

end Config

namespace Source

variable (src : Source)

/-- The disallowed writes below a node, with their variables. -/
def disallowedWrites (policy : Policy) (root : Nat) : List (Write × Nat) :=
  (src.resolved (src.tree.writes policy.outArgs root)).filter fun (w, o) =>
    src.disallowed policy.params o w.target

/-- What is reported about the writes of a function body. -/
def checkWrites (c : Config) (body : Nat) : List Diagnostic :=
  src.reportWrites false (!src.file.isGenerated) (.ofLimit c.maxTries)
    (src.disallowedWrites c.policy body)

/-- What is reported about the directives of a function and of the functions in it. -/
def checkPermissions (c : Config) (f : Nat) : List Diagnostic :=
  ((src.tree.functionsBelow f).flatMap (src.audit c.policy)).flatMap src.reportFinding

/-- What is reported about a function; a function without a body is not checked. -/
def checkFunction (c : Config) (f : Nat) : List Diagnostic :=
  match src.tree.body? f with
  | none => []
  | some body =>
    (if c.reportsWrites then src.checkWrites c body else []) ++
      (if c.reportsUnused then src.checkPermissions c f else [])

/-- The comment group above the package clause. -/
def fileDoc? : Option CommentGroup :=
  match src.tree.kind 0 with
  | .file doc => src.file.group? doc
  | _ => none

/-- Whether a file is left out. -/
def skips (c : Config) : Bool :=
  src.file.isGenerated && !c.checksGenerated || SourceFile.suppresses src.fileDoc?

/-- The functions of a file that are checked by themselves. -/
def checkedFunctions : List Nat :=
  (src.tree.functionsBelow 0).filter fun f =>
    src.tree.isTopFunction f && !SourceFile.suppresses (src.file.commentsOf? f)

/-- What is reported about a file. -/
def check (c : Config) : List Diagnostic :=
  if !src.file.located then
    [.internal (src.tree.span 0) ("File " ++ src.file.packageName ++ " without valid info")]
  else if src.skips c then []
  else src.checkedFunctions.flatMap (src.checkFunction c)

end Source

/-- A package that is to be checked. -/
structure Pass where
  package : Package
  files : List SourceFile
  /-- Reads the files of the package. -/
  reader : Option Reader
  /-- Whether the trees of the files are at hand. -/
  hasTrees : Bool

namespace Pass

/-- The content of a file, from the reader of the configuration or else of the pass. -/
def content (p : Pass) (c : Config) (f : SourceFile) : Option Bytes :=
  match c.reader, p.reader with
  | some read, _ => read f.name
  | none, some read => read f.name
  | none, none => none

/-- What is reported about the files of a package, file by file. -/
def check (p : Pass) (c : Config) : Except CheckError (List (List Diagnostic)) :=
  if p.hasTrees then
    .ok (p.files.map fun f => (Source.mk p.package (f.withContent (p.content c f))).check c)
  else .error .treesMissing

end Pass

end AssignOnce
