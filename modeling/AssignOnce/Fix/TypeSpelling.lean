import AssignOnce.Fix.Error
import AssignOnce.Program.Package
import AssignOnce.Text.Literal

/-!
# Spelling types

A type can be written in a file if every package that its spelling names is the package of the file
or one of its imports, and if every type it is made of can be named there: no such type is invalid
or untyped, or unexported in another package. Types are followed through at most 32 steps, as
they may contain themselves.
-/

namespace AssignOnce

namespace Import

/-- The path and the name of an import whose package can be named; a dot import needs no name. -/
def usable? (i : Import) : Option (String × String) :=
  match Literal.value? i.literal with
  | none => none
  | some path =>
    match i.name with
    | none => i.packageName.map fun name => (path, name)
    | some name =>
      if name = "_" then none else if name = "." then some (path, "") else some (path, name)

end Import

namespace Source

variable (src : Source)

/-- The name by which a file refers to a package: nothing for its own package, else the name of the
last import of the path. -/
def qualifier? (path : String) : Option String :=
  if path = src.package.path then some ""
  else (src.file.imports.filterMap Import.usable?).reverse.lookup path

/-- A package name as it stands in front of a type. -/
def qualified (name : String) : String :=
  if name = "" then "" else name ++ "."

/-- A piece of a spelling. A package that cannot be named is left out. -/
def spellPiece : Piece → String
  | .text s => s
  | .package path => qualified ((src.qualifier? path).getD "")

/-- The spelling of a type in the file. -/
def spelling (t : Nat) : String :=
  String.join ((src.package.types.entry t).spelling.map src.spellPiece)

/-- The package of a piece if it cannot be named. -/
def missingPackage? : Piece → Option String
  | .text _ => none
  | .package path => if (src.qualifier? path).isNone then some path else none

/-- The last package of the spelling of a type that cannot be named; a package without a path is
not missed. -/
def missingImport? (t : Nat) : Option String :=
  ((src.package.types.entry t).spelling.filterMap src.missingPackage?).getLast?.filter (· != "")

/-- Whether all that a type is made of can be named, as far as it lies less than the given number
of steps away; beyond that nothing can. -/
def accessible : (steps t : Nat) → Bool
  | 0, _ => false
  | steps + 1, t =>
    match (src.package.types.entry t).shape with
    | .basic invalid untyped _ => !invalid && !untyped
    | .declared package exported args =>
      (exported || package.all (· == src.package.path)) && args.all (accessible steps)
    | .composite parts => parts.all (accessible steps)
    | .tuple _ | .closed => true

/-- The number of types on the longest path that is followed. -/
def maxPath : Nat := 33

/-- Spells a type in the file. -/
def spellType (t : Nat) : Except Unspellable String :=
  match src.missingImport? t with
  | some path => .error (.notImported path)
  | none =>
    if src.accessible maxPath t then .ok (src.spelling t)
    else .error (.inaccessible (src.spelling t))

end Source

end AssignOnce
