import AssignOnce.Tree.Node

/-!
# Edits

An edit replaces a part of the text, or inserts text at a position. Two edits overlap if they start
at the same position or if their ranges share a byte; which of two edits at one position comes
first would be open. A `FixSession` keeps the edits of the fixes offered so far and accepts a fix
only if none of its edits overlaps them.
-/

namespace AssignOnce

/-- A change of the text. -/
structure Edit where
  start : Int
  /-- The end of the replaced text; an edit without one inserts at its start. -/
  stop : Option Int
  text : String
  deriving DecidableEq, Repr

namespace Edit

/-- An edit that inserts text. -/
def insertion (p : Int) (text : String) : Edit := ⟨p, none, text⟩

/-- An edit that replaces a span. -/
def replacement (s : Span) (text : String) : Edit := ⟨s.start, some s.stop, text⟩

/-- The end of the range of an edit, which never lies before its start. -/
def rangeStop (e : Edit) : Int :=
  match e.stop with
  | some p => max e.start p
  | none => e.start

/-- Whether two edits get in each other's way. -/
def overlaps (a b : Edit) : Bool :=
  a.start == b.start || a.start < b.rangeStop && b.start < a.rangeStop

end Edit

/-- The edits of the fixes offered so far. -/
structure FixSession where
  taken : List Edit
  deriving DecidableEq, Repr

namespace FixSession

/-- The session before the first fix. -/
def empty : FixSession := ⟨[]⟩

/-- Whether no edit of a fix overlaps an edit taken before. -/
def admits (s : FixSession) (edits : List Edit) : Bool :=
  edits.all fun e => s.taken.all fun t => !e.overlaps t

/-- Offers a fix: says whether it is accepted, and keeps its edits if so. -/
def offer (s : FixSession) (edits : List Edit) : Bool × FixSession :=
  if s.admits edits then (true, ⟨s.taken ++ edits⟩) else (false, s)

end FixSession

end AssignOnce
