import AssignOnce.Analysis.Presumption
import AssignOnce.Fix.AssignedType
import AssignOnce.Fix.FreshName
import AssignOnce.Fix.Rename
import AssignOnce.Fix.TypeSpelling

/-!
# Declaring a new variable in place of a write

The fix for a disallowed write declares a new variable with the written value and lets all later
references of the function refer to it. What is declared, and how, depends on the kind of the
write; a declaration that infers its type is used only if it infers the type of the old variable.

* `Source.placeOf`: where the new variable is declared;
* `Source.declare`: the edits that declare it;
* `Source.references`: the edits of the later references;
* `Source.newVariable`: all of them, with the names given out afterwards.
-/

namespace AssignOnce

/-- The place of a declaration: a statement and the scope around its start. -/
structure Place where
  stmt : Nat
  scope : Nat
  deriving DecidableEq, Repr

/-- A declaration of a new variable. -/
structure Declaration where
  edits : List Edit
  /-- The first position at which references are to the new variable. -/
  start : Int
  deriving DecidableEq, Repr

namespace Tree

variable (t : Tree)

/-- The statement of a list of statements around a node, inside the innermost function literal. -/
def listStatement? (i : Nat) : Option Nat :=
  let ends := fun j => t.inStatementList j || (t.kind j).isFunctionLiteral
  (throughFirst ends (t.enclosing i)).find? t.inStatementList

/-- The root of the tree of a node. -/
def root (i : Nat) : Nat :=
  (t.enclosing i).getLastD i

/-- The operator of an assignment and its span. -/
def assignOperator (i : Nat) : Operator × Span :=
  match t.kind i with
  | .assignStmt op p => (op, ⟨p, p + op.text.utf8ByteSize⟩)
  | _ => (.illegal, default)

/-- The edit that turns an assignment into a declaration. -/
def defineEdit (i : Nat) : Edit :=
  .replacement (t.assignOperator i).2 Operator.define.text

/-- The left side of an assignment with an index. -/
def lhsAt (i k : Nat) : Nat := (t.lhs i).getD k i

/-- The first right side of an assignment. -/
def firstRhs (i : Nat) : Nat := (t.rhs i).headD i

/-- Whether an expression must stand in parentheses to be the right operand of an operator. -/
def needsParens (op : Operator) (e : Nat) : Bool :=
  match t.kind (t.unparen e) with
  | .binaryExpr inner => op.parenthesizes inner
  | _ => false

end Tree

namespace Source

variable (src : Source)

/-- The type of a variable. -/
def typeOf (o : Nat) : Nat := (src.package.object o).type

/-- The variable that a write is to, or why it is to none. -/
def written? (w : Write) : Except FixError Nat :=
  match (src.tree.kind w.target).identName? with
  | none => .error (.unresolved none)
  | some name =>
    match src.variableAt? w.target with
    | some o => .ok o
    | none => .error (.unresolved (some name))

/-- The place at the start of a statement. -/
def placeAt (stmt : Nat) (name : String) : Except FixError Place :=
  match src.package.scopes.innermostAt? (src.tree.start stmt) with
  | some s => .ok ⟨stmt, s⟩
  | none => .error (.noFunction name)

/-- Where the new variable is declared: at the statement that writes, and for an argument in front
of the statement of a list around it. -/
def placeOf (w : Write) (name : String) : Except FixError Place :=
  match w.kind with
  | .outArg _ =>
    match src.tree.listStatement? w.stmt with
    | some s => src.placeAt s name
    | none => .error (.needsDeclaration name)
  | _ => src.placeAt w.stmt name

/-- Whether a declaration in place of an assignment would infer the type of a variable for the left
side with an index. -/
def infers (stmt k o : Nat) : Bool :=
  src.package.types.identical (src.assignedType? stmt k) (some (src.typeOf o))

/-- The type of a variable, spelled for a declaration at a statement. A declaration needs a place
in a list of statements. -/
def declaredType (stmt o : Nat) : Except FixError String :=
  if src.tree.inStatementList stmt then (src.spellType (src.typeOf o)).mapError .unspellable
  else .error (.needsDeclaration (src.nameOf o))

/-- Whether a left side keeps its meaning when its assignment becomes a declaration in a scope: it
is blank, or the name of a variable of that scope. -/
def keepsMeaning (s e : Nat) : Bool :=
  src.tree.isBlankIdent e ||
    match src.variableAt? e with
    | some o => (src.package.asVariable? o).any fun v => v.home == .scope s
    | none => false

/-- Whether an assignment can become a declaration in a scope that declares only the left side with
an index. -/
def definable (stmt k s : Nat) : Bool :=
  (src.tree.lhs stmt).zipIdx.all fun (e, i) => i == k || src.keepsMeaning s e

/-- A declaration in place of `x = e`. -/
def declareAssign (stmt o : Nat) (name : String) : Except FixError Declaration :=
  let t := src.tree
  if src.infers stmt 0 o then
    .ok ⟨[.replacement (t.span (t.lhsAt stmt 0)) name, t.defineEdit stmt], t.stop stmt⟩
  else
    (src.declaredType stmt o).map fun type =>
      let front := ⟨t.start stmt, t.start (t.firstRhs stmt)⟩
      ⟨[.replacement front ("var " ++ name ++ " " ++ type ++ " = ")], t.stop stmt⟩

/-- The beginning of a declaration with the old value as left operand. -/
def operandText (o : Nat) (op : Operator) (name : String) : String :=
  name ++ " := " ++ src.nameOf o ++ " " ++ op.text ++ " "

/-- The operator between operands of the type of a variable. -/
def operatorFor (o : Nat) (op : Operator) : Operator :=
  op.forOperands (src.package.types.isBoolean (some (src.typeOf o)))

/-- A declaration in place of `x op= e`. -/
def declareCompound (stmt o : Nat) (op : Operator) (name : String) : Declaration :=
  let t := src.tree
  let op := src.operatorFor o op
  let e := t.firstRhs stmt
  let front := ⟨t.start stmt, t.start e⟩
  let text := src.operandText o op name
  if t.needsParens op e then
    ⟨[.replacement front (text ++ "("), .insertion (t.stop e) ")"], t.stop stmt⟩
  else ⟨[.replacement front text], t.stop stmt⟩

/-- A declaration in place of `x++` or `x--`. -/
def declareIncDec (stmt o : Nat) (op : Operator) (name : String) : Declaration :=
  let t := src.tree
  ⟨[.replacement (t.span stmt) (src.operandText o (src.operatorFor o op) name ++ "1")], t.stop stmt⟩

/-- A declaration for one left side of an assignment with several. If the assignment itself cannot
declare just this one, the new variable is declared in front of it. -/
def declareTuple (stmt k o s : Nat) (name : String) : Except FixError Declaration :=
  let t := src.tree
  let element := Edit.replacement (t.span (t.lhsAt stmt k)) name
  if src.infers stmt k o && (t.assignOperator stmt).1 == .define then .ok ⟨[element], t.stop stmt⟩
  else if src.infers stmt k o && src.definable stmt k s then
    .ok ⟨[element, t.defineEdit stmt], t.stop stmt⟩
  else
    (src.declaredType stmt o).map fun type =>
      let line := "var " ++ name ++ " " ++ type ++ "\n" ++ src.file.indent (t.start stmt)
      ⟨[.insertion (t.start stmt) line, element], t.stop stmt⟩

/-- A declaration in front of the statement with a call, for an argument `&x`. Arguments are
evaluated before the call, so only references behind it are to the new variable. -/
def declareOutArg (stmt unary target o : Nat) (name : String) : Declaration :=
  let t := src.tree
  let line := name ++ " := " ++ src.nameOf o ++ "\n" ++ src.file.indent (t.start stmt)
  ⟨[.insertion (t.start stmt) line, .replacement (t.span target) name],
    t.stop ((t.parent? unary).getD unary)⟩

/-- The declaration of a new variable for a write. -/
def declare (w : Write) (o : Nat) (place : Place) (name : String) : Except FixError Declaration :=
  match w.kind with
  | .assign => src.declareAssign w.stmt o name
  | .compound op => .ok (src.declareCompound w.stmt o op name)
  | .incDec op => .ok (src.declareIncDec w.stmt o op name)
  | .tuple k => src.declareTuple w.stmt k o place.scope name
  | .outArg unary => .ok (src.declareOutArg place.stmt unary w.target o name)

/-- The root of the references to a variable: the innermost function around the write, or the
file. -/
def referenceRoot (w : Write) : Nat :=
  (src.tree.function? w.target).getD (src.tree.root w.target)

/-- The renaming of the references behind a declaration. -/
def renameFor (w : Write) (o : Nat) (name : String) (start : Int) : Rename :=
  { old := src.nameOf o
    new := name
    start := start
    stop := src.tree.stop (src.referenceRoot w)
    object := some o }

/-- Whether an edit lies outside a scope. -/
def escapes (s : Nat) (e : Edit) : Bool :=
  let span := (src.package.scopes.scope s).span
  e.start < span.start || span.stop < e.rangeStop

/-- The edits of the references to a new variable, all of which must lie in its scope. -/
def references (cancelled : Bool) (w : Write) (o s : Nat) (name : String) (start : Int) :
    Except FixError (List Edit) :=
  match (src.renameFor w o name start).editsUnless src.tree cancelled (src.referenceRoot w) with
  | .error e => .error e
  | .ok edits =>
    match edits.find? (src.escapes s) with
    | some e => .error (.escapesScope (src.nameOf o) (src.file.location e.start))
    | none => .ok edits

/-- The edits that declare a new variable with a name and refer to it. -/
def replaceBy (cancelled : Bool) (w : Write) (o : Nat) (place : Place) (name : String) :
    Except FixError (List Edit) :=
  match src.declare w o place name with
  | .error e => .error e
  | .ok d => (src.references cancelled w o place.scope name d.start).map (d.edits ++ ·)

/-- The edits that declare a new variable in place of a write, and the namer afterwards. The name
stays given out even if the edits cannot be made. -/
def newVariable (cancelled : Bool) (n : Namer) (w : Write) : Except FixError (List Edit) × Namer :=
  match src.written? w with
  | .error e => (.error e, n)
  | .ok o =>
    match src.placeOf w (src.nameOf o) with
    | .error e => (.error e, n)
    | .ok place =>
      match n.unique src.package.scopes (src.nameOf o) place.scope with
      | .error e => (.error e, n)
      | .ok (name, n) => (src.replaceBy cancelled w o place name, n)

end Source

end AssignOnce
