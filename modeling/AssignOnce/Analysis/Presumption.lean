import AssignOnce.Analysis.Write
import AssignOnce.Program.Package

/-!
# Variables presumed to be assigned once

A variable is presumed to be assigned once if it is local and the file declares it in a variable
declaration, an assignment, a loop over a range, or, if asked for, as a parameter or receiver.
Results are meant to be assigned, so they are not presumed. A write to a presumed variable is
disallowed unless a directive of some function around it permits the name.
-/

namespace AssignOnce

/-- How an identifier declares a variable. -/
inductive DeclarationForm where
  /-- By a variable declaration, an assignment or a loop. -/
  | plain
  /-- As a parameter or receiver. -/
  | parameter
  | other
  deriving DecidableEq, Repr

/-- What counts as a disallowed write. -/
structure Policy where
  /-- Whether arguments `&x` are writes. -/
  outArgs : Bool
  /-- Whether parameters and receivers are presumed to be assigned once. -/
  params : Bool
  deriving DecidableEq, Repr

namespace Tree

variable (t : Tree)

/-- Whether a list of fields holds the parameters or the receiver of a function. -/
def isParameterList (i : Nat) : Bool :=
  match t.parentKind? i, t.field i with
  | some .funcType, .params => true
  | some (.funcDecl ..), .recv => true
  | _, _ => false

/-- How an identifier declares a variable. -/
def declarationForm (i : Nat) : DeclarationForm :=
  match t.parentKind? i, t.field i with
  | some (.valueSpec _), .names => .plain
  | some (.assignStmt ..), .lhs => .plain
  | some .rangeStmt, .key => .plain
  | some .rangeStmt, .value => .plain
  | some .field, .names =>
    if ((t.parent? i).bind t.parent?).any t.isParameterList then .parameter else .other
  | _, _ => .other

end Tree

namespace Variable

/-- Whether a variable is local to a function or file. -/
def isLocal (v : Variable) : Bool :=
  !v.isField && v.inPackage && v.home != .nowhere && v.home != .package

end Variable

namespace Source

variable (src : Source)

/-- The variable that a write resolves to. -/
def resolve? (w : Write) : Option Nat :=
  src.variableAt? w.target

/-- The name of an object. -/
def nameOf (o : Nat) : String := (src.package.object o).name

/-- The identifier of the file that declares a variable. It is looked for at the position of the
variable; symbols without a declaration of their own have none. -/
def declaration? (o : Nat) : Option Nat :=
  match src.package.asVariable? o with
  | none => none
  | some v =>
    match src.tree.innermostAt? src.file.bounds ⟨v.pos, v.pos + (src.nameOf o).utf8ByteSize⟩ with
    | some i => if (src.tree.kind i).declares = .object o then some i else none
    | none => none

/-- Whether a variable is presumed to be assigned once. -/
def presumed (params : Bool) (o : Nat) : Bool :=
  match src.package.asVariable? o with
  | none => false
  | some v =>
    v.isLocal && v.pos != 0 &&
      match src.declaration? o with
      | none => false
      | some i =>
        match src.tree.declarationForm i with
        | .plain => true
        | .parameter => params
        | .other => false

/-- Whether a function permits to reassign variables of a name. -/
def permits (f : Nat) (name : String) : Bool :=
  (src.file.permissionsOf f).any (·.allows name)

/-- Whether a write to a variable at a node is disallowed. -/
def disallowed (params : Bool) (o node : Nat) : Bool :=
  src.presumed params o &&
    (src.tree.functionsAround node).all fun f => !src.permits f (src.nameOf o)

/-- Whether a write is disallowed, unless the work is cancelled before the first function is
asked. -/
def verdict (cancelled params : Bool) (o node : Nat) : Except Cancelled Bool :=
  if cancelled && src.presumed params o && !(src.tree.functionsAround node).isEmpty then .error ⟨⟩
  else .ok (src.disallowed params o node)

end Source

end AssignOnce
