import AssignOnce.Tree.Node

/-!
# Objects

What identifiers declare and refer to. Only variables matter in detail: where they are declared,
in which scope, and whether they are fields of a structure.
-/

namespace AssignOnce

/-- The scope that a variable belongs to. -/
inductive Home where
  /-- The variable belongs to no scope. -/
  | nowhere
  /-- The variable is declared at the top level of a package. -/
  | package
  | scope (s : Nat)
  deriving DecidableEq, Repr

/-- A variable. -/
structure Variable where
  /-- The position of its declaration. -/
  pos : Int
  isField : Bool
  /-- Whether the variable belongs to a package. -/
  inPackage : Bool
  home : Home
  deriving DecidableEq, Repr

/-- What an object is. -/
inductive ObjectKind where
  | variable (v : Variable)
  /-- The predeclared value `nil`. -/
  | nil
  /-- A constant, type, function, package, builtin or label. -/
  | other
  deriving DecidableEq, Repr, Inhabited

/-- A named entity of a program. -/
structure Object where
  name : String
  type : Nat
  kind : ObjectKind
  deriving DecidableEq, Repr, Inhabited

namespace Object

/-- The variable that an object is. -/
def asVariable? (o : Object) : Option Variable :=
  match o.kind with
  | .variable v => some v
  | _ => none

end Object

end AssignOnce
