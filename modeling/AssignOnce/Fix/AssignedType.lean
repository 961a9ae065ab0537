import AssignOnce.Analysis.Write
import AssignOnce.Program.Package

/-!
# The type that a declaration would infer

The type that a variable gets when an assignment is turned into a declaration. For a constant the
recorded type is the one it was converted to, so literals and names of constants are looked at
themselves; other constant expressions are taken at their recorded type.
-/

namespace AssignOnce

namespace LiteralKind

/-- The type of a variable declared with a literal. -/
def type : LiteralKind → Nat
  | .integer => TypeTable.int
  | .float => TypeTable.float64
  | .imaginary => TypeTable.complex128
  | .character => TypeTable.rune
  | .string => TypeTable.string

end LiteralKind

namespace Source

variable (src : Source)

/-- The type recorded for an expression. -/
def recordedType? (e : Nat) : Option Nat := (src.tree.node e).type

/-- The type of a variable declared with the value of an object. -/
def objectType (o : Nat) : Nat :=
  match (src.package.object o).kind with
  | .nil => TypeTable.untypedNil
  | _ => src.package.types.defaultOf (src.package.object o).type

/-- The type of a variable declared with the value of an expression. -/
def valueType? (e : Nat) : Option Nat :=
  match src.tree.kind (src.tree.unparen e) with
  | .basicLit l => some l.type
  | .ident _ _ (some o) => some (src.objectType o)
  | _ => (src.recordedType? e).map src.package.types.defaultOf

/-- The type of an element of an expression with several values. The second value of an expression
that has one value by itself says whether there was one. -/
def elementType? (e k : Nat) : Option Nat :=
  let single := if k = 0 then src.recordedType? e else some TypeTable.bool
  match (src.recordedType? e).map fun t => (src.package.types.entry t).shape with
  | some (.tuple elements) => if k < elements.length then elements[k]? else single
  | _ => single

/-- The type that the left side with an index would get in a declaration. -/
def assignedType? (stmt k : Nat) : Option Nat :=
  let rhs := src.tree.rhs stmt
  if rhs.length = (src.tree.lhs stmt).length then rhs[k]?.bind src.valueType?
  else
    match rhs with
    | [e] => src.elementType? e k
    | _ => none

end Source

end AssignOnce
