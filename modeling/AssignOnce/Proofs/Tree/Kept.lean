import AssignOnce.Proofs.Tree.Preorder

/-!
# Trees that are kept in others

When a comment is added to a file, the file is read again: nodes move, the comment may become a part
of the tree, and objects are numbered anew. What stays is said by `Tree.KeptIn`: every node has a
place in the new tree, below the place of its parent, in the same field and with a kind of the same
shape. Then functions and their anchors stay as well (`KeptIn.function?`, `KeptIn.anchor`).
-/

namespace AssignOnce

namespace Kind

/-- A kind without positions, comments and objects. -/
def shape : Kind → Kind
  | .file _ => .file none
  | .ident name _ _ => .ident name .nothing none
  | .assignStmt op _ => .assignStmt op 0
  | .blockStmt _ => .blockStmt 0
  | .caseClause _ => .caseClause 0
  | .commClause _ => .commClause 0
  | .valueSpec _ => .valueSpec none
  | .genDecl grouped _ => .genDecl grouped none
  | .funcDecl hasBody _ => .funcDecl hasBody none
  | k => k

theorem isFunction_shape (k : Kind) : k.shape.isFunction = k.isFunction := by
  cases k <;> rfl

theorem isFunctionLiteral_shape (k : Kind) : k.shape.isFunctionLiteral = k.isFunctionLiteral := by
  cases k <;> rfl

end Kind

namespace Tree

/-- Whether comments can stand above a node with a parent of a kind, in a field of it. -/
def canAnchorIn (parent? : Option Kind) (field : Field) : Bool :=
  match parent?, field with
  | none, _ => true
  | some (.file _), .decls => true
  | some (.genDecl grouped _), .specs => grouped
  | some (.blockStmt _), .list => true
  | some (.caseClause _), .body => true
  | some (.commClause _), .body => true
  | _, _ => false

theorem canAnchor_eq (t : Tree) (i : Nat) :
    t.canAnchor i = canAnchorIn ((t.parentKind? i).map Kind.shape) (t.field i) := by
  unfold canAnchor inStatementList
  cases t.parentKind? i with
  | none => rfl
  | some k => cases k <;> cases t.field i <;> rfl

/-- Whether all nodes of a tree have a place in another one, where only nodes for comments are new
and kinds may differ in positions, comments and objects. -/
structure KeptIn (t t' : Tree) (place : Nat → Nat) : Prop where
  parent {i : Nat} : i < t.size → t'.parent? (place i) = (t.parent? i).map place
  field {i : Nat} : i < t.size → t'.field (place i) = t.field i
  shape {i : Nat} : i < t.size → (t'.kind (place i)).shape = (t.kind i).shape

theorem keptIn_iff {t t' : Tree} {place : Nat → Nat} : t.KeptIn t' place ↔
    ∀ i < t.size, t'.parent? (place i) = (t.parent? i).map place ∧
      t'.field (place i) = t.field i ∧ (t'.kind (place i)).shape = (t.kind i).shape := by
  constructor
  · intro h i hi
    exact ⟨h.parent hi, h.field hi, h.shape hi⟩
  · intro h
    exact ⟨fun hi => (h _ hi).1, fun hi => (h _ hi).2.1, fun hi => (h _ hi).2.2⟩

instance (t t' : Tree) (place : Nat → Nat) : Decidable (t.KeptIn t' place) :=
  decidable_of_iff _ keptIn_iff.symm

theorem lt_size_of_isFunction {t : Tree} {f : Nat} (h : t.isFunction f) : f < t.size := by
  rcases Nat.lt_or_ge f t.size with hlt | hge
  · exact hlt
  · rw [isFunction, kind, node_of_size_le hge] at h
    cases h

theorem anchor_mem_enclosing (t : Tree) (f : Nat) : t.anchor f ∈ t.enclosing f := by
  unfold anchor
  split
  · cases ha : (t.enclosing f).find? t.canAnchor with
    | none => exact t.self_mem_enclosing f
    | some a => exact List.mem_of_find?_eq_some ha
  · exact t.self_mem_enclosing f

theorem anchor_lt_size {t : Tree} {f : Nat} (hf : f < t.size) : t.anchor f < t.size :=
  Nat.lt_of_le_of_lt (le_of_mem_enclosing (t.anchor_mem_enclosing f)) hf

namespace KeptIn

variable {t t' : Tree} {place : Nat → Nat} (h : t.KeptIn t' place) {i : Nat}
include h

/-- What is found around a node by a property that nodes keep is found at its place. -/
theorem find?_enclosing (hi : i < t.size) {p p' : Nat → Bool}
    (hp : ∀ j < t.size, p' (place j) = p j) :
    (t'.enclosing (place i)).find? p' = ((t.enclosing i).find? p).map place := by
  induction i using Nat.strongRecOn with
  | ind i ih =>
    have hparent := h.parent hi
    cases hq : t.parent? i with
    | none =>
      rw [hq] at hparent
      rw [enclosing_of_root hq, enclosing_of_root hparent, List.find?_singleton,
        List.find?_singleton, hp i hi]
      split <;> rfl
    | some q =>
      have hlt := lt_of_parent? hq
      rw [hq] at hparent
      rw [enclosing_of_parent hq, enclosing_of_parent hparent, List.find?_cons, List.find?_cons,
        hp i hi]
      cases p i with
      | true => rfl
      | false => exact ih q hlt (by omega)

theorem isFunction (hi : i < t.size) : t'.isFunction (place i) = t.isFunction i := by
  rw [Tree.isFunction, Tree.isFunction, ← Kind.isFunction_shape, h.shape hi, Kind.isFunction_shape]

theorem canAnchor (hi : i < t.size) : t'.canAnchor (place i) = t.canAnchor i := by
  have hparent : (t'.parentKind? (place i)).map Kind.shape = (t.parentKind? i).map Kind.shape := by
    rw [parentKind?, parentKind?, h.parent hi]
    cases hp : t.parent? i with
    | none => rfl
    | some p =>
      have hlt := lt_of_parent? hp
      simp only [Option.map_some, h.shape (Nat.lt_trans hlt hi)]
  rw [canAnchor_eq, canAnchor_eq, hparent, h.field hi]

theorem function? (hi : i < t.size) : t'.function? (place i) = (t.function? i).map place :=
  h.find?_enclosing hi fun _ => h.isFunction

theorem anchor (hi : i < t.size) : t'.anchor (place i) = place (t.anchor i) := by
  have hliteral : (t'.kind (place i)).isFunctionLiteral = (t.kind i).isFunctionLiteral := by
    rw [← Kind.isFunctionLiteral_shape, h.shape hi, Kind.isFunctionLiteral_shape]
  unfold Tree.anchor
  rw [hliteral, h.find?_enclosing hi fun _ => h.canAnchor]
  split
  · cases (t.enclosing i).find? t.canAnchor <;> rfl
  · rfl

end KeptIn

end Tree

end AssignOnce
