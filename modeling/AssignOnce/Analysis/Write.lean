import AssignOnce.Program.Function
import AssignOnce.Text.Identifier

/-!
# Writes to variables

A write gives a new value to a variable that exists already. There are five kinds: plain
assignments, assignments that update, increments and decrements, elements of assignments with
several left sides, and arguments `&x` through which a call can write. The post statement of a loop
is no write, and neither is a declaration.

`Tree.writesAt` gives the writes of a single node and `Tree.writes` those of all nodes below one,
in preorder.
-/

namespace AssignOnce

/-- How a variable is written. -/
inductive WriteKind where
  /-- A statement `x = e`. -/
  | assign
  /-- A statement `x op= e` with the operator `op`. -/
  | compound (op : Operator)
  /-- A statement `x++` or `x--`, which adds or subtracts one. -/
  | incDec (op : Operator)
  /-- An element of the left side of an assignment with several. -/
  | tuple (index : Nat)
  /-- An argument `&x` of a call. -/
  | outArg (unary : Nat)
  deriving DecidableEq, Repr

namespace WriteKind

/-- Whether a write happens through an argument. -/
def isOutArg : WriteKind → Bool
  | .outArg _ => true
  | _ => false

end WriteKind

/-- A write. -/
structure Write where
  kind : WriteKind
  /-- The statement that writes. -/
  stmt : Nat
  /-- The node that is written. -/
  target : Nat
  deriving DecidableEq, Repr

/-- Work was given up because its result is no longer wanted. -/
structure Cancelled where
  deriving DecidableEq, Repr

namespace Cancelled

/-- What is said when work was given up. -/
def message (_ : Cancelled) : String := "context canceled"

end Cancelled

namespace Tree

variable (t : Tree)

/-- The identifier that an expression is, without parentheses and unless it is the blank one. -/
def bareIdent? (i : Nat) : Option Nat :=
  match (t.kind (t.unparen i)).identName? with
  | some name => if name = blankName then none else some (t.unparen i)
  | none => none

/-- Whether an expression is the blank identifier, without parentheses. -/
def isBlankIdent (i : Nat) : Bool :=
  (t.kind (t.unparen i)).identName? == some blankName

/-- Whether a node is the post statement of a loop. -/
def isPost (i : Nat) : Bool :=
  t.parentKind? i == some .forStmt && t.field i == .post

/-- Whether a node is an argument of a call. -/
def isArgument (i : Nat) : Bool :=
  t.parentKind? i == some .callExpr && t.field i == .args

/-- The left sides of an assignment. -/
def lhs (i : Nat) : List Nat := t.childrenIn i .lhs

/-- The right sides of an assignment. -/
def rhs (i : Nat) : List Nat := t.childrenIn i .rhs

/-- The writes of an assignment with an operator. In a declaration with several left sides those
are written that are not declared by it. -/
def assignmentWrites (i : Nat) (op : Operator) : List Write :=
  match op, t.lhs i with
  | .define, [_] => []
  | .define, lhs =>
    lhs.zipIdx.filterMap fun (e, k) =>
      match t.bareIdent? e with
      | some x => if (t.kind x).declares = .nothing then some ⟨.tuple k, i, e⟩ else none
      | none => none
  | .assign, [e] => (t.bareIdent? e).toList.map fun x => ⟨.assign, i, x⟩
  | .assign, lhs =>
    lhs.zipIdx.filterMap fun (e, k) => (t.bareIdent? e).map fun x => ⟨.tuple k, i, x⟩
  | op, lhs =>
    (lhs.head?.bind t.bareIdent?).toList.map fun x =>
      ⟨.compound (op.updating?.getD .illegal), i, x⟩

/-- The operator of an increment or decrement. -/
def stepOperator (op : Operator) : Operator :=
  if op = .decrement then .arithmetic .sub else .arithmetic .add

/-- The writes that a node is itself. -/
def writesAt (outArgs : Bool) (i : Nat) : List Write :=
  match t.kind i with
  | .assignStmt op _ => if t.isPost i then [] else t.assignmentWrites i op
  | .incDecStmt op =>
    if t.isPost i then []
    else ((t.childIn? i .x).bind t.bareIdent?).toList.map fun x => ⟨.incDec (stepOperator op), i, x⟩
  | .unaryExpr (.arithmetic .and) =>
    if outArgs && t.isArgument i then
      match (t.childIn? i .x).bind t.bareIdent?, t.statement? i with
      | some x, some s => [⟨.outArg i, s, x⟩]
      | _, _ => []
    else []
  | _ => []

/-- The writes of a node and of all nodes below it, in preorder. -/
def writes (outArgs : Bool) (root : Nat) : List Write :=
  (t.subtree root).flatMap (t.writesAt outArgs)

/-- Whether a node is looked at when writes are collected. -/
def mayWrite (i : Nat) : Bool :=
  match t.kind i with
  | .assignStmt .. | .incDecStmt _ | .unaryExpr _ => true
  | _ => false

/-- The writes below a node, unless the work is cancelled before the first node that is looked
at. -/
def collect (cancelled outArgs : Bool) (root : Nat) : Except Cancelled (List Write) :=
  if cancelled && (t.subtree root).any t.mayWrite then .error ⟨⟩ else .ok (t.writes outArgs root)

end Tree

end AssignOnce
