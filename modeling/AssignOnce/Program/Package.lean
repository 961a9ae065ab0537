import AssignOnce.Program.Object
import AssignOnce.Program.Scope
import AssignOnce.Program.SourceFile
import AssignOnce.Program.Type

/-!
# Packages

The tables that the files of a package share, and a file together with them.
-/

namespace AssignOnce

/-- What is known of a package beyond its files. -/
structure Package where
  path : String
  objects : Array Object
  types : TypeTable
  scopes : ScopeForest
  deriving Inhabited

namespace Package

/-- The object at a place of the table. -/
def object (p : Package) (o : Nat) : Object :=
  p.objects.getD o default

/-- The variable at a place of the table. -/
def asVariable? (p : Package) (o : Nat) : Option Variable :=
  (p.object o).asVariable?

end Package

/-- A file with the tables of its package. -/
structure Source where
  package : Package
  file : SourceFile
  deriving Inhabited

namespace Source

variable (src : Source)

/-- The tree of the file. -/
abbrev tree : Tree := src.file.tree

/-- The variable that an identifier refers to. -/
def variableAt? (i : Nat) : Option Nat :=
  match (src.tree.kind i).uses? with
  | some o => if (src.package.asVariable? o).isSome then some o else none
  | none => none

end Source

end AssignOnce
