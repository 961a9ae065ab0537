import AssignOnce.Fix.Edit
import AssignOnce.Fix.Error

/-!
# Renaming

A renaming replaces the identifiers with an old name in a part of the text. With an object, these
are the ones that refer to it; without one, those that can be neither a selected field nor a key of
a composite literal.
-/

namespace AssignOnce

/-- A change of a name. -/
structure Rename where
  old : String
  new : String
  /-- The first position at which identifiers are renamed. -/
  start : Int
  /-- The position from which on no identifier is renamed, or none. -/
  stop : Int
  /-- The object that renamed identifiers refer to. -/
  object : Option Nat
  deriving DecidableEq, Repr

namespace Rename

variable (r : Rename) (t : Tree)

/-- Whether a position lies in the part of the text in which names are changed. -/
def covers (p : Int) : Bool :=
  r.start ≤ p && (r.stop == 0 || p < r.stop)

/-- Whether an identifier is a reference that the renaming is about. -/
def refers (i : Nat) : Bool :=
  match r.object with
  | some o =>
    !(t.parentKind? i == some .selectorExpr && t.field i == .sel) && (t.kind i).uses? == some o
  | none =>
    !(t.parentKind? i == some .selectorExpr && t.field i == .sel) &&
      !(t.parentKind? i == some .keyValueExpr && t.field i == .key)

/-- Whether a node is renamed. -/
def applies (i : Nat) : Bool :=
  (t.kind i).identName? == some r.old && r.covers (t.start i) && r.refers t i

/-- The nodes below a root that are renamed, in preorder. -/
def renamed (root : Nat) : List Nat :=
  (t.subtree root).filter (r.applies t)

/-- The edits of a renaming below a root. -/
def edits (root : Nat) : List Edit :=
  (r.renamed t root).map fun i => .replacement (t.span i) r.new

/-- The edits of a renaming, unless the work is cancelled before the first identifier. -/
def editsUnless (cancelled : Bool) (root : Nat) : Except FixError (List Edit) :=
  if cancelled && (t.subtree root).any fun i => (t.kind i).isIdent then .error .cancelled
  else .ok (r.edits t root)

end Rename

end AssignOnce
