import AssignOnce.Directive.NoLint
import AssignOnce.Program.SourceFile

/-!
# Functions and their comments

Functions are declared functions and function literals. The comments of a declared function are its
doc comment. The comments of a literal belong to its anchor, the statement or declaration that
holds it: the doc comment of a declaration, or the comment group on the lines directly above a
statement.

* `Tree.functionsAround`: the functions around a node, innermost first, up to a declared one;
* `Tree.anchor`: the node whose comments speak for a function;
* `SourceFile.permissionsOf`: the directives of a function;
* `SourceFile.suppressedAt`: whether a comment on the line of a position switches off the tool.
-/

namespace AssignOnce

/-- The elements of a list up to the first one that has a property, which is included. -/
def throughFirst {α : Type} (p : α → Bool) : List α → List α
  | [] => []
  | a :: rest => if p a then [a] else a :: throughFirst p rest

namespace Tree

variable (t : Tree)

/-- Whether a node is a function. -/
def isFunction (i : Nat) : Bool := (t.kind i).isFunction

/-- All functions below a node, in preorder. -/
def functionsBelow (root : Nat) : List Nat :=
  (t.subtree root).filter t.isFunction

/-- The innermost function around a node, the node included. -/
def function? (i : Nat) : Option Nat :=
  (t.enclosing i).find? t.isFunction

/-- The function around a function literal. -/
def outerFunction? (f : Nat) : Option Nat :=
  if (t.kind f).isFunctionLiteral then (t.parent? f).bind t.function? else none

/-- The functions around a node, innermost first; nothing lies around a declared function. -/
def functionsAround (i : Nat) : List Nat :=
  throughFirst (fun f => (t.kind f).isFunctionDeclaration) ((t.enclosing i).filter t.isFunction)

/-- Whether a function is checked by itself: it is declared, or no function lies around it. -/
def isTopFunction (f : Nat) : Bool :=
  match t.kind f with
  | .funcDecl .. => true
  | .funcLit => (t.outerFunction? f).isNone
  | _ => false

/-- The name of a function in reports. -/
def functionName (f : Nat) : String :=
  match t.kind f with
  | .funcDecl .. => ((t.childIn? f .name).bind fun i => (t.kind i).identName?).getD ""
  | _ => "func literal"

/-- The node of the type of a function. -/
def functionType? (f : Nat) : Option Nat :=
  t.childIn? f .type

/-- The body of a function; a function may be declared without one. -/
def body? (f : Nat) : Option Nat :=
  match t.kind f with
  | .funcDecl false _ => none
  | _ => t.childIn? f .body

/-- Whether comments can stand above a node: it is an element of a list of statements, a
declaration, a part of a grouped declaration, or the root. -/
def canAnchor (i : Nat) : Bool :=
  match t.parentKind? i, t.field i with
  | none, _ => true
  | some (.file _), .decls => true
  | some (.genDecl grouped _), .specs => grouped
  | _, _ => t.inStatementList i

/-- The node whose comments speak for a function. -/
def anchor (f : Nat) : Nat :=
  if (t.kind f).isFunctionLiteral then ((t.enclosing f).find? t.canAnchor).getD f else f

/-- The end of what stands in front of a node in its parent. -/
def precedingStop (i : Nat) : Int :=
  match t.previousSibling? i with
  | some j => t.stop j
  | none =>
    match t.parentKind? i with
    | some (.blockStmt brace) => brace
    | some (.caseClause colon) => colon
    | some (.commClause colon) => colon
    | _ => 0

end Tree

namespace SourceFile

variable (file : SourceFile)

/-- The comments that belong to an anchor. -/
def anchorComments? (a : Nat) : Option CommentGroup :=
  match file.tree.kind a with
  | .funcDecl _ doc => file.group? doc
  | .genDecl _ doc => file.group? doc
  | .valueSpec doc => file.group? doc
  | _ => file.leadingComment? (file.tree.precedingStop a) (file.tree.start a)

/-- The comments that belong to a function. -/
def commentsOf? (f : Nat) : Option CommentGroup :=
  file.anchorComments? (file.tree.anchor f)

/-- The directives of a function. -/
def permissionsOf (f : Nat) : List Permission :=
  match file.commentsOf? f with
  | some g => Permission.ofGroup g
  | none => []

/-- Whether a comment group, if there is one, ends in a comment that switches off the tool. -/
def suppresses (g : Option CommentGroup) : Bool :=
  g.any (·.endsInNoLint)

/-- Whether a comment behind a position and on its line switches off the tool. -/
def suppressedAt (p : Int) : Bool :=
  ((file.groups.drop (file.groupsBefore p)).takeWhile fun g =>
    file.line g.start == file.line p).any (·.hasNoLint)

end SourceFile

end AssignOnce
