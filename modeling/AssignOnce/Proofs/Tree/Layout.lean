import AssignOnce.Fix.NewVariable
import AssignOnce.Proofs.Tree.Preorder

/-!
# Trees laid out in a text

Where the nodes of a tree stand in the text. In a nested tree (`Tree.Nested`) every node but the
comments lies inside its parent (`Nested.inside_of_mem_enclosing`), and a name that refers to
something is not empty. In a tree that is laid out (`Tree.LaidOut`) the children of a node also
follow each other, with one exception: the type of a declared function starts at its keyword, in
front of the receiver and the name. Outermost functions therefore follow each other
(`LaidOut.stop_le_start_of_outermost`).
-/

namespace AssignOnce

namespace Kind

/-- Whether a kind is a comment or a group of comments. -/
def isComment : Kind → Bool
  | .comment | .commentGroup => true
  | _ => false

theorem isComment_of_isFunction {k : Kind} (h : k.isFunction) : k.isComment = false := by
  cases k <;> first | rfl | cases h

theorem isComment_of_isStatement {k : Kind} (h : k.isStatement) : k.isComment = false := by
  cases k <;> first | rfl | cases h

theorem isComment_of_identName? {k : Kind} {name : String} (h : k.identName? = some name) :
    k.isComment = false := by
  cases k <;> first | rfl | cases h

theorem not_isFunction_of_isStatement {k : Kind} (h : k.isStatement) : ¬ k.isFunction := by
  cases k <;> first | exact Bool.false_ne_true | cases h

end Kind

namespace Tree

variable {t : Tree}

/-- Nodes lie inside their parents. Comments, which may stand in front of what they belong to, are
left out. -/
structure Nested (t : Tree) : Prop where
  ordered : ∀ i < t.size, (t.kind i).isComment = false → t.start i ≤ t.stop i
  inside : ∀ i < t.size, ∀ p ∈ t.parent? i, (t.kind i).isComment = false →
    (t.kind p).isComment = false ∧ t.start p ≤ t.start i ∧ t.stop i ≤ t.stop p
  referring : ∀ i < t.size, (t.kind i).uses?.isSome → t.start i < t.stop i

/-- Functions and statements have the parts that the grammar gives them: a body is a statement and
starts behind the keyword of its function, the elements of a list of statements are statements, and
the operator of an assignment stands between the left sides and the right sides. -/
structure Formed (t : Tree) : Prop where
  bodies : ∀ f < t.size, t.isFunction f → ∀ b ∈ t.body? f,
    (t.kind b).isStatement ∧ t.start f < t.start b
  statements : ∀ i < t.size, t.inStatementList i → (t.kind i).isStatement
  leftSides : ∀ i < t.size, ∀ e ∈ t.lhs i,
    t.stop e ≤ (t.assignOperator i).2.start ∧ (t.assignOperator i).2.stop ≤ t.stop i
  rightSides : ∀ i < t.size, ∀ e ∈ t.rhs i,
    (t.assignOperator i).2.stop ≤ t.start e ∧ (t.kind e).isComment = false

/-- Whether two nodes other than comments have the same parent. -/
def areSiblings (t : Tree) (a b : Nat) : Bool :=
  (t.parent? a).isSome && t.parent? a == t.parent? b && !(t.kind a).isComment &&
    !(t.kind b).isComment

/-- Whether a node is the type of a declared function. -/
def isDeclaredType (t : Tree) (i : Nat) : Bool :=
  t.kind i == .funcType && (t.parentKind? i).any Kind.isFunctionDeclaration

/-- The nodes of a tree follow each other in the text. -/
structure LaidOut (t : Tree) : Prop extends t.Nested, t.Formed where
  siblings : ∀ b < t.size, ∀ a < b, t.areSiblings a b →
    t.stop a ≤ t.start b ∨ t.isDeclaredType b
  identifiers : ∀ j < t.size, ∀ i < j, (t.kind i).isIdent → (t.kind j).isIdent →
    t.stop i ≤ t.start j ∨ t.stop j ≤ t.start i

instance (t : Tree) : Decidable t.Nested :=
  decidable_of_iff (_ ∧ _ ∧ _) ⟨fun ⟨ordered, inside, referring⟩ => ⟨ordered, inside, referring⟩,
    fun h => ⟨h.ordered, h.inside, h.referring⟩⟩

instance (t : Tree) : Decidable t.Formed :=
  decidable_of_iff (_ ∧ _ ∧ _ ∧ _)
    ⟨fun ⟨bodies, statements, left, right⟩ => ⟨bodies, statements, left, right⟩,
      fun h => ⟨h.bodies, h.statements, h.leftSides, h.rightSides⟩⟩

instance (t : Tree) : Decidable t.LaidOut :=
  decidable_of_iff (t.Nested ∧ t.Formed ∧ _ ∧ _)
    ⟨fun ⟨nested, formed, siblings, identifiers⟩ => ⟨nested, formed, siblings, identifiers⟩,
      fun h => ⟨h.toNested, h.toFormed, h.siblings, h.identifiers⟩⟩

theorem lt_size_of_identName? {i : Nat} {name : String}
    (h : (t.kind i).identName? = some name) : i < t.size := by
  rcases Nat.lt_or_ge i t.size with hi | hi
  · exact hi
  · rw [kind, node_of_size_le hi] at h
    cases h

/-! ## Nodes inside nodes -/

/-- A node lies inside the nodes around it, and none of them is a comment. -/
theorem Nested.inside_of_mem_enclosing (h : t.Nested) {i a : Nat} (ha : a ∈ t.enclosing i)
    (hi : (t.kind i).isComment = false) :
    (t.kind a).isComment = false ∧ t.start a ≤ t.start i ∧ t.stop i ≤ t.stop a := by
  induction i using Nat.strongRecOn with
  | ind i ih =>
    rcases mem_enclosing_iff.1 ha with rfl | ⟨p, hp, hap⟩
    · exact ⟨hi, Int.le_refl _, Int.le_refl _⟩
    · obtain ⟨hpc, hstart, hstop⟩ := h.inside i (lt_size_of_parent? hp) p hp hi
      obtain ⟨hac, hstart', hstop'⟩ := ih p (lt_of_parent? hp) hap hpc
      exact ⟨hac, Int.le_trans hstart' hstart, Int.le_trans hstop hstop'⟩

/-! ## Functions -/

/-- An outermost function ends before the next one starts. -/
theorem LaidOut.stop_le_start_of_outermost (h : t.LaidOut) (ht : t.WellFormed) {f g : Nat}
    (hf : t.Outermost f) (hg : t.Outermost g) (hfg : f < g) (hs : g < t.size) :
    t.stop f ≤ t.start g := by
  have hn : f ∉ t.enclosing g := fun hm => by
    have := ht.eq_of_outermost hg hm hf.isFunction
    omega
  obtain ⟨p, a, ha, b, hb, hap, hbp, hab⟩ := ht.exists_branch hfg hs hn
  obtain ⟨hac, -, hfa⟩ := h.inside_of_mem_enclosing ha (Kind.isComment_of_isFunction hf.isFunction)
  obtain ⟨hbc, hbg, -⟩ := h.inside_of_mem_enclosing hb (Kind.isComment_of_isFunction hg.isFunction)
  have hsib : t.areSiblings a b := by simp [areSiblings, hap, hbp, hac, hbc]
  rcases h.siblings b (lt_size_of_parent? hbp) a hab hsib with hle | hd
  · omega
  · -- nothing that lies in a declared function is outermost
    simp only [isDeclaredType, parentKind?, hbp, Option.map_some, Option.any_some,
      Bool.and_eq_true] at hd
    have hpf : p ∈ t.enclosing f := mem_enclosing_trans (parent_mem_enclosing hap) ha
    have hfp : t.isFunction p := by
      rw [Tree.isFunction, Kind.isFunction_eq, hd.2]
      rfl
    have := ht.eq_of_outermost hf hpf hfp
    have := lt_of_parent? hap
    have := le_of_mem_enclosing ha
    omega

end Tree

end AssignOnce
