/-!
# Types

The table of the types of a package. A type has a shape that tells which types it is made of, a
class of identical types, and a spelling in which every package name is left open. The table
begins with the predeclared types that expressions can have by themselves (`TypeTable.bool` to
`TypeTable.untypedNil`).
-/

namespace AssignOnce

/-- A piece of the spelling of a type. -/
inductive Piece where
  | text (s : String)
  /-- The name of the package with a path, and a period behind it. -/
  | package (path : String)
  deriving DecidableEq, Repr

/-- What a type is made of. -/
inductive Shape where
  /-- A predeclared type; `fallback` is the type of a variable declared with a value of it, where
  that is another one. -/
  | basic (invalid untyped : Bool) (fallback : Option Nat)
  /-- A declared type or alias of a package, with its type arguments. -/
  | declared (package : Option String) (exported : Bool) (args : List Nat)
  /-- A type literal with its parts: element, key and element, parameters and results, or
  fields. -/
  | composite (parts : List Nat)
  /-- The results of a call. -/
  | tuple (elements : List Nat)
  /-- An interface, a type parameter or a union, whose parts are not looked at. -/
  | closed
  deriving DecidableEq, Repr, Inhabited

/-- An entry of the table of types. -/
structure TypeEntry where
  shape : Shape
  /-- The class of identical types. -/
  identity : Nat
  spelling : List Piece
  /-- Whether the underlying type is a boolean type. -/
  isBoolean : Bool
  deriving DecidableEq, Repr, Inhabited

/-- The types of a package. -/
abbrev TypeTable := Array TypeEntry

namespace TypeTable

/-- The type of truth values. -/
def bool : Nat := 0

/-- The type of an integer literal. -/
def int : Nat := 1

/-- The type of a floating-point literal. -/
def float64 : Nat := 2

/-- The type of an imaginary literal. -/
def complex128 : Nat := 3

/-- The type of a character literal. -/
def rune : Nat := 4

/-- The type of a string literal. -/
def string : Nat := 5

/-- The type of `nil`. -/
def untypedNil : Nat := 6

/-- The entry of a type. -/
def entry (types : TypeTable) (t : Nat) : TypeEntry :=
  types.getD t default

/-- The type that a variable gets when it is declared with a value of a type. -/
def defaultOf (types : TypeTable) (t : Nat) : Nat :=
  match (types.entry t).shape with
  | .basic _ _ (some d) => d
  | _ => t

/-- Whether two types are identical; a missing type is identical to none. -/
def identical (types : TypeTable) (a b : Option Nat) : Bool :=
  match a, b with
  | some a, some b => (types.entry a).identity == (types.entry b).identity
  | _, _ => false

/-- Whether a type is a boolean type; a missing type is none. -/
def isBoolean (types : TypeTable) (t : Option Nat) : Bool :=
  t.any fun t => (types.entry t).isBoolean

end TypeTable

end AssignOnce
