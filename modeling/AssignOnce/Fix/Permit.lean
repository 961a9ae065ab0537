import AssignOnce.Analysis.Presumption
import AssignOnce.Fix.Edit
import AssignOnce.Fix.Error

/-!
# Permitting a write

The other fix for a disallowed write inserts a directive above the anchor of the innermost function
around it. The names of the directive are sorted and without repetitions.
-/

namespace AssignOnce

/-- A directive to be inserted. -/
structure Insertion where
  anchor : Nat
  names : List String
  edit : Edit
  deriving DecidableEq, Repr

/-- Names in order, each once. -/
def sortedNames (names : List String) : List String :=
  (names.mergeSort fun a b => decide (a ≤ b)).eraseReps

namespace Source

variable (src : Source)

/-- The directive for some names above a function. -/
def insertionFor (f : Nat) (names : List String) : Insertion :=
  let anchor := src.tree.anchor f
  let start := src.tree.start anchor
  let line := Permission.format (sortedNames names) ++ "\n" ++ src.file.indent start
  { anchor := anchor
    names := sortedNames names
    edit := .insertion start line }

/-- The directive that permits the function around a node to reassign variables of some names. -/
def permit (cancelled : Bool) (node : Nat) (names : List String) : Except FixError Insertion :=
  if cancelled then .error .cancelled
  else
    match src.tree.function? node with
    | some f => .ok (src.insertionFor f names)
    | none => .error (.noFunction ("[" ++ String.intercalate " " names ++ "]"))

end Source

end AssignOnce
