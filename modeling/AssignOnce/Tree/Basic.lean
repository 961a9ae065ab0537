import AssignOnce.Tree.Node

/-!
# Syntax trees

A tree is the list of its nodes in preorder, each with a link to its parent. All navigation is
stated through `Tree.parent?`, which only follows links that lead to an earlier node, so that every
walk towards the root ends:

* `Tree.enclosing`: a node and the nodes above it, innermost first;
* `Tree.subtree`: a node and the nodes below it, in preorder;
* `Tree.children`, `Tree.childrenIn`: the children of a node, all of them or those in one field;
* `Tree.unparen`: an expression without its parentheses;
* `Tree.innermostAt?`: the innermost node around a piece of the text.
-/

namespace AssignOnce

/-- A syntax tree: its nodes in preorder, the root first. -/
structure Tree where
  nodes : Array Node
  deriving Inhabited

namespace Tree

variable (t : Tree)

/-- The number of nodes. -/
def size : Nat := t.nodes.size

/-- A node of the tree; places outside the tree hold a default node. -/
def node (i : Nat) : Node := t.nodes.getD i default

/-- The kind of a node. -/
def kind (i : Nat) : Kind := (t.node i).kind

/-- The field of the parent that holds a node. -/
def field (i : Nat) : Field := (t.node i).field

/-- The span of a node. -/
def span (i : Nat) : Span := (t.node i).span

/-- The position at which a node starts. -/
def start (i : Nat) : Int := (t.span i).start

/-- The position behind a node. -/
def stop (i : Nat) : Int := (t.span i).stop

/-- The places of all nodes, in preorder. -/
def ids : List Nat := List.range t.size

/-- The parent of a node. -/
def parent? (i : Nat) : Option Nat :=
  match (t.node i).parent with
  | some p => if p < i then some p else none
  | none => none

theorem lt_of_parent? {t : Tree} {i p : Nat} (h : t.parent? i = some p) : p < i := by
  unfold parent? at h
  split at h
  · split at h
    · cases h; assumption
    · cases h
  · cases h

/-- The kind of the parent of a node. -/
def parentKind? (i : Nat) : Option Kind :=
  (t.parent? i).map t.kind

/-- A node and the nodes above it, innermost first. -/
def enclosing (t : Tree) (i : Nat) : List Nat :=
  match _h : t.parent? i with
  | none => [i]
  | some p => i :: t.enclosing p
termination_by i
decreasing_by exact lt_of_parent? _h

/-- Whether one node lies below another or is it. -/
def within (i root : Nat) : Bool :=
  (t.enclosing i).contains root

/-- A node and the nodes below it, in preorder. -/
def subtree (root : Nat) : List Nat :=
  t.ids.filter fun i => t.within i root

/-- The children of a node, in order. -/
def children (i : Nat) : List Nat :=
  t.ids.filter fun j => t.parent? j == some i

/-- The children of a node in one of its fields, in order. -/
def childrenIn (i : Nat) (f : Field) : List Nat :=
  (t.children i).filter fun j => t.field j == f

/-- The first child of a node in one of its fields. -/
def childIn? (i : Nat) (f : Field) : Option Nat :=
  (t.childrenIn i f).head?

/-- The child of the same parent that comes just before a node, in whatever field. -/
def previousSibling? (i : Nat) : Option Nat :=
  match t.parent? i with
  | some p => ((t.children p).filter (· < i)).getLast?
  | none => none

theorem mem_children {t : Tree} {i j : Nat} :
    j ∈ t.children i ↔ j < t.size ∧ t.parent? j = some i := by
  simp [children, ids]

theorem mem_childrenIn {t : Tree} {i j : Nat} {f : Field} :
    j ∈ t.childrenIn i f ↔ (j < t.size ∧ t.parent? j = some i) ∧ t.field j = f := by
  simp [childrenIn, mem_children]

theorem childIn?_bounds {t : Tree} {i j : Nat} {f : Field} (h : t.childIn? i f = some j) :
    i < j ∧ j < t.size := by
  have hj := (mem_childrenIn.1 (List.mem_of_mem_head? h)).1
  exact ⟨lt_of_parent? hj.2, hj.1⟩

/-- An expression without the parentheses around it. -/
def unparen (t : Tree) (i : Nat) : Nat :=
  if t.kind i = .parenExpr then
    match _h : t.childIn? i .x with
    | some j => t.unparen j
    | none => i
  else i
termination_by t.size - i
decreasing_by have := childIn?_bounds _h; omega

/-- The innermost statement around a node, the node included. -/
def statement? (i : Nat) : Option Nat :=
  (t.enclosing i).find? fun j => (t.kind j).isStatement

/-- Whether a node is an element of a list of statements: of a block, of a case or of a clause of
`select`. -/
def inStatementList (i : Nat) : Bool :=
  match t.parentKind? i, t.field i with
  | some (.blockStmt _), .list => true
  | some (.caseClause _), .body => true
  | some (.commClause _), .body => true
  | _, _ => false

/-! ## Walking towards the root -/

theorem enclosing_of_parent {t : Tree} {i p : Nat} (h : t.parent? i = some p) :
    t.enclosing i = i :: t.enclosing p := by
  rw [enclosing]
  split <;> simp_all

theorem enclosing_of_root {t : Tree} {i : Nat} (h : t.parent? i = none) :
    t.enclosing i = [i] := by
  rw [enclosing]
  split <;> simp_all

theorem self_mem_enclosing (i : Nat) : i ∈ t.enclosing i := by
  rw [enclosing]
  split <;> simp

theorem le_of_mem_enclosing {t : Tree} {i j : Nat} (h : j ∈ t.enclosing i) : j ≤ i := by
  induction i using Nat.strongRecOn with
  | ind i ih =>
    cases hp : t.parent? i with
    | none => rw [enclosing_of_root hp] at h; simp_all
    | some p =>
      rw [enclosing_of_parent hp, List.mem_cons] at h
      rcases h with rfl | h
      · exact Nat.le_refl _
      · have hlt := lt_of_parent? hp
        have := ih p hlt h
        omega

theorem within_iff {t : Tree} {i root : Nat} : t.within i root = true ↔ root ∈ t.enclosing i := by
  simp [within]

theorem mem_subtree {t : Tree} {i root : Nat} :
    i ∈ t.subtree root ↔ i < t.size ∧ root ∈ t.enclosing i := by
  simp [subtree, ids, within_iff]

/-! ## Finding a node by its place in the text -/

/-- The state of the search for the innermost node around a piece of the text. -/
structure Search where
  /-- The innermost node found so far. -/
  best : Option Nat
  /-- A node that ends before the piece, with all that lies below it. -/
  skipped : Option Nat
  /-- Whether a node behind the piece has been reached. -/
  ended : Bool

namespace Search

/-- The search before the first node. -/
def begin : Search := ⟨none, none, false⟩

/-- Whether a node is the type of a declared function of which a part around the piece has been
found before. The span of such a type also covers the receiver and the name, which come first. -/
def overlapsName (s : Search) (i : Nat) : Bool :=
  match t.kind i, t.parent? i, s.best with
  | .funcType, some p, some b => (t.kind p).isFunctionDeclaration && p < b
  | _, _, _ => false

/-- Looks at the next node. The root has the bounds of the file. -/
def visit (bounds piece : Span) (s : Search) (i : Nat) : Search :=
  if s.ended || s.skipped.any (t.within i) || s.overlapsName t i then s
  else
    let span := if i = 0 then bounds else t.span i
    if piece.start < span.start then { s with ended := true }
    else if piece.stop ≤ span.stop then { s with best := some i }
    else if span.stop < piece.start then { s with skipped := some i }
    else s

end Search

/-- The innermost node around a piece of the text of a file with the given bounds. -/
def innermostAt? (bounds piece : Span) : Option Nat :=
  (t.ids.foldl (Search.visit t bounds piece) .begin).best

end Tree

end AssignOnce
