import AssignOnce.Tree.Node

/-!
# Comments

Comments without code or an empty line between them form a group. The text of a comment includes
its marker.
-/

namespace AssignOnce

/-- A comment. -/
structure Comment where
  span : Span
  text : String
  deriving DecidableEq, Repr, Inhabited

/-- A group of comments, from the first to the last. -/
structure CommentGroup where
  comments : List Comment
  deriving DecidableEq, Repr, Inhabited

namespace CommentGroup

variable (g : CommentGroup)

/-- The position at which the first comment starts. -/
def start : Int :=
  match g.comments.head? with
  | some c => c.span.start
  | none => 0

/-- The position behind the last comment. -/
def stop : Int :=
  match g.comments.getLast? with
  | some c => c.span.stop
  | none => 0

/-- The span of all comments. -/
def span : Span := ⟨g.start, g.stop⟩

end CommentGroup

end AssignOnce
